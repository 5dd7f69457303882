import EnigmaMemory.Lib.HashTree

/-!
# Binary hash trees with duplicated odd nodes

A level of digests is combined two neighbours at a time; a last node without a neighbour is
combined with itself. The levels are kept, from the leaves up to the root.

* `climb_dupPath`: the path read off the levels at any index leads from the digest at that
  index to the root.
* `exists_dupTree`: the last level is the root of a tree all of whose leaves are given ones, so
  that `Scheme.climb_sound` applies to it.
-/

namespace HashTree

/-! ## Levels -/

section Levels

variable {β γ τ : Type*} (f : β → β → β)

/-- One level up: neighbours combined, a trailing odd node with itself. -/
def pairDup : List β → List β
  | a :: b :: rest => f a b :: pairDup rest
  | [a] => [f a a]
  | [] => []

/-- The levels from the given one up to the first with at most one node. -/
def dupLevels : ℕ → List β → List (List β)
  | 0, level => [level]
  | fuel + 1, level => if level.length ≤ 1 then [level] else level :: dupLevels fuel (pairDup f level)

example : dupLevels (· + ·) 2 [1, 2, 4] = [[1, 2, 4], [3, 8], [11]] := by simp [dupLevels, pairDup]

/-- The texts hashed to combine a level. -/
def dupTexts (text : β → β → τ) : List β → List τ
  | a :: b :: rest => text a b :: dupTexts text rest
  | [a] => [text a a]
  | [] => []

/-- The texts hashed between the levels. -/
def dupLevelTexts (text : β → β → τ) (levels : List (List β)) : List τ := levels.dropLast.flatMap (dupTexts text)

theorem length_pairDup : ∀ l : List β, (pairDup f l).length = (l.length + 1) / 2
  | a :: b :: rest => by simp only [pairDup, List.length_cons, length_pairDup rest]; omega
  | [a] => by simp [pairDup]
  | [] => by simp [pairDup]

/-- The node at position `k` of the next level. -/
theorem getElem?_pairDup : ∀ (l : List β) (k : ℕ),
    (pairDup f l)[k]? = l[2 * k]?.map fun a => f a (l[2 * k + 1]?.getD a)
  | a :: b :: rest, 0 => by simp [pairDup]
  | a :: b :: rest, k + 1 => by
    rw [pairDup, List.getElem?_cons_succ, getElem?_pairDup rest k]
    rw [show 2 * (k + 1) = 2 * k + 1 + 1 by omega, List.getElem?_cons_succ, List.getElem?_cons_succ,
      List.getElem?_cons_succ, List.getElem?_cons_succ]
  | [a], 0 => by simp [pairDup]
  | [a], k + 1 => by simp [pairDup, show 2 * (k + 1) = 2 * k + 1 + 1 by omega]
  | [], k => by simp [pairDup]

theorem map_pairDup (g : γ → γ → γ) (φ : β → γ) (hφ : ∀ a b, φ (f a b) = g (φ a) (φ b)) :
    ∀ l : List β, (pairDup f l).map φ = pairDup g (l.map φ)
  | a :: b :: rest => by simp [pairDup, hφ, map_pairDup g φ hφ rest]
  | [a] => by simp [pairDup, hφ]
  | [] => by simp [pairDup]

theorem dupLevels_ne_nil (fuel : ℕ) (l : List β) : dupLevels f fuel l ≠ [] := by
  cases fuel with
  | zero => exact List.cons_ne_nil _ _
  | succ fuel =>
    rw [dupLevels]
    split <;> exact List.cons_ne_nil _ _

/-- A level with more than one node stands below the levels of the next one. -/
theorem dupLevels_succ {fuel : ℕ} {l : List β} (h : 1 < l.length) :
    dupLevels f (fuel + 1) l = l :: dupLevels f fuel (pairDup f l) := by
  rw [dupLevels, if_neg (by omega)]

theorem dupLevels_short {fuel : ℕ} {l : List β} (h : l.length ≤ 1) : dupLevels f fuel l = [l] := by
  cases fuel with
  | zero => rfl
  | succ fuel => rw [dupLevels, if_pos h]

theorem map_dupLevels (g : γ → γ → γ) (φ : β → γ) (hφ : ∀ a b, φ (f a b) = g (φ a) (φ b)) (fuel : ℕ) :
    ∀ l : List β, (dupLevels f fuel l).map (List.map φ) = dupLevels g fuel (l.map φ) := by
  induction fuel with
  | zero => intro l; rfl
  | succ fuel ih =>
    intro l
    rw [dupLevels, dupLevels, List.length_map]
    split
    · rfl
    · rw [List.map_cons, ih, map_pairDup f g φ hφ]

theorem dupTexts_map (text : β → β → τ) (text' : γ → γ → τ) (φ : β → γ) (ht : ∀ a b, text' (φ a) (φ b) = text a b) :
    ∀ l : List β, dupTexts text' (l.map φ) = dupTexts text l
  | a :: b :: rest => by simp [dupTexts, ht, dupTexts_map text text' φ ht rest]
  | [a] => by simp [dupTexts, ht]
  | [] => by simp [dupTexts]

theorem dupLevelTexts_map (text : β → β → τ) (text' : γ → γ → τ) (φ : β → γ) (ht : ∀ a b, text' (φ a) (φ b) = text a b)
    (levels : List (List β)) : dupLevelTexts text' (levels.map (List.map φ)) = dupLevelTexts text levels := by
  rw [dupLevelTexts, ← List.map_dropLast, List.flatMap_map]
  exact congrArg (fun g => levels.dropLast.flatMap g) (funext (dupTexts_map text text' φ ht))

theorem dupLevelTexts_succ (text : β → β → τ) {fuel : ℕ} {l : List β} (h : 1 < l.length) :
    dupLevelTexts text (dupLevels f (fuel + 1) l) =
      dupTexts text l ++ dupLevelTexts text (dupLevels f fuel (pairDup f l)) := by
  rw [dupLevels_succ f h, dupLevelTexts, List.dropLast_cons_of_ne_nil (dupLevels_ne_nil f _ _), List.flatMap_cons]
  rfl

/-- The top level is the top level above the next one. -/
theorem getLast?_dupLevels_succ {fuel : ℕ} {l : List β} (h : 1 < l.length) :
    (dupLevels f (fuel + 1) l).getLast? = (dupLevels f fuel (pairDup f l)).getLast? := by
  rw [dupLevels_succ f h, List.getLast?_cons]
  cases hl : (dupLevels f fuel (pairDup f l)).getLast? with
  | none => exact absurd (List.getLast?_eq_none_iff.1 hl) (dupLevels_ne_nil f _ _)
  | some top => rfl

/-- **Enough levels leave one node.** -/
theorem length_getLast?_dupLevels (fuel : ℕ) : ∀ l : List β, l ≠ [] → l.length ≤ fuel + 1 →
    ∃ top, (dupLevels f fuel l).getLast? = some [top] := by
  induction fuel with
  | zero =>
    intro l hne hn
    have hpos := List.length_pos_iff.2 hne
    obtain ⟨x, rfl⟩ := List.length_eq_one_iff.1 (show l.length = 1 by omega)
    exact ⟨x, rfl⟩
  | succ fuel ih =>
    intro l hne hn
    have hpos := List.length_pos_iff.2 hne
    by_cases hl : 1 < l.length
    · have hlen := length_pairDup f l
      rw [getLast?_dupLevels_succ f hl]
      exact ih _ (List.ne_nil_of_length_pos (by omega)) (by omega)
    · obtain ⟨x, rfl⟩ := List.length_eq_one_iff.1 (show l.length = 1 by omega)
      exact ⟨x, by rw [dupLevels_short f (by simp)]; rfl⟩

end Levels

/-! ## Paths -/

section Paths

variable {β : Type*} (f : β → β → β)

/-- The sibling of a position on its level. A node without a neighbour is its own. -/
def dupSibling (level : List β) (i : ℕ) : List (Side × β) :=
  (if i % 2 = 1 then level[i - 1]?.map (Side.left, ·) else (level[i + 1]?.or level[i]?).map (Side.right, ·)).toList

/-- The siblings met on the way up through the levels from position `i`. -/
def dupPath : List (List β) → ℕ → List (Side × β)
  | level :: next :: above, i => dupSibling level i ++ dupPath (next :: above) (i / 2)
  | _, _ => []

/-- The two kinds of position, with the sibling and the parent. -/
theorem dupSibling_cases {level : List β} {i : ℕ} {c : β} (hc : level[i]? = some c) :
    (∃ k, i = 2 * k ∧ dupSibling level i = [(.right, level[2 * k + 1]?.getD c)]) ∨
    (∃ k d, i = 2 * k + 1 ∧ level[2 * k]? = some d ∧ dupSibling level i = [(.left, d)]) := by
  obtain ⟨k, rfl | rfl⟩ : ∃ k, i = 2 * k ∨ i = 2 * k + 1 := ⟨i / 2, by omega⟩
  · refine .inl ⟨k, rfl, ?_⟩
    rw [dupSibling, if_neg (by omega), hc]
    cases level[2 * k + 1]? <;> rfl
  · have hlt : 2 * k < level.length := by
      have := (List.getElem?_eq_some_iff.1 hc).1
      omega
    have hd := List.getElem?_eq_getElem hlt
    exact .inr ⟨k, _, rfl, hd, by rw [dupSibling, if_pos (by omega), Nat.add_sub_cancel, hd]; rfl⟩

/-- One sibling leads to the parent on the next level. -/
theorem climb_dupSibling {level : List β} {i : ℕ} {c : β} (hc : level[i]? = some c) :
    (pairDup f level)[i / 2]? = some (climb f c (dupSibling level i)) := by
  rw [getElem?_pairDup]
  rcases dupSibling_cases hc with ⟨k, rfl, hs⟩ | ⟨k, d, rfl, hd, hs⟩
  · rw [show 2 * k / 2 = k by omega, hc, hs]
    rfl
  · rw [show (2 * k + 1) / 2 = k by omega, hc, hd, hs]
    rfl

theorem dupPath_succ {fuel : ℕ} {level : List β} (h : 1 < level.length) (i : ℕ) :
    dupPath (dupLevels f (fuel + 1) level) i =
      dupSibling level i ++ dupPath (dupLevels f fuel (pairDup f level)) (i / 2) := by
  rw [dupLevels_succ f h]
  obtain ⟨next, above, hl⟩ := List.exists_cons_of_ne_nil (dupLevels_ne_nil f fuel (pairDup f level))
  rw [hl]
  rfl

/-- **The path leads to the root.** -/
theorem climb_dupPath (fuel : ℕ) : ∀ (level : List β) (i : ℕ) (c : β), level[i]? = some c → level.length ≤ fuel + 1 →
    (dupLevels f fuel level).getLast? = some [climb f c (dupPath (dupLevels f fuel level) i)] := by
  induction fuel with
  | zero =>
    intro level i c hc hn
    have hi := (List.getElem?_eq_some_iff.1 hc).1
    obtain ⟨x, rfl⟩ := List.length_eq_one_iff.1 (show level.length = 1 by omega)
    obtain rfl : i = 0 := by simp at hi; omega
    cases hc
    rfl
  | succ fuel ih =>
    intro level i c hc hn
    have hi := (List.getElem?_eq_some_iff.1 hc).1
    by_cases hl : 1 < level.length
    · have hlen := length_pairDup f level
      rw [getLast?_dupLevels_succ f hl, ih _ (i / 2) _ (climb_dupSibling f hc) (by omega), dupPath_succ f hl]
      simp only [climb, List.foldl_append]
    · obtain ⟨x, rfl⟩ := List.length_eq_one_iff.1 (show level.length = 1 by omega)
      obtain rfl : i = 0 := by simp at hi; omega
      cases hc
      rw [dupLevels_short f (by simp)]
      rfl

theorem mem_dupTexts {τ : Type*} (text : β → β → τ) : ∀ (level : List β) (k : ℕ) (a : β), level[2 * k]? = some a →
    text a (level[2 * k + 1]?.getD a) ∈ dupTexts text level
  | x :: y :: rest, 0, a, ha => by
    cases ha
    exact List.mem_cons_self
  | x :: y :: rest, k + 1, a, ha => by
    rw [show 2 * (k + 1) = 2 * k + 1 + 1 by omega, List.getElem?_cons_succ, List.getElem?_cons_succ] at ha
    rw [show 2 * (k + 1) + 1 = 2 * k + 1 + 1 + 1 by omega, List.getElem?_cons_succ, List.getElem?_cons_succ]
    exact List.mem_cons_of_mem _ (mem_dupTexts text rest k a ha)
  | [x], 0, a, ha => by
    cases ha
    exact List.mem_cons_self
  | [x], k + 1, a, ha => by simp at ha
  | [], k, a, ha => by simp at ha

end Paths

/-! ## Trees -/

section Trees

variable {α τ δ : Type*} (S : Scheme α τ δ)

/-- Climbing a path hashes no text that the levels did not hash. -/
theorem climbTexts_dupPath (fuel : ℕ) : ∀ (level : List δ) (i : ℕ) (c : δ), level[i]? = some c →
    ∀ x ∈ S.climbTexts c (dupPath (dupLevels S.node fuel level) i),
      x ∈ dupLevelTexts S.nodeText (dupLevels S.node fuel level) := by
  induction fuel with
  | zero =>
    intro level i c _ x hx
    exact absurd hx List.not_mem_nil
  | succ fuel ih =>
    intro level i c hc x hx
    by_cases hl : 1 < level.length
    · have hup := climb_dupSibling S.node hc
      rw [dupPath_succ S.node hl] at hx
      rw [dupLevelTexts_succ S.node S.nodeText hl, List.mem_append]
      rcases dupSibling_cases hc with ⟨k, rfl, hs⟩ | ⟨k, d, rfl, hd, hs⟩
      · rw [hs] at hx hup
        rcases List.mem_cons.1 hx with rfl | hx
        · exact .inl (mem_dupTexts S.nodeText level k c hc)
        · exact .inr (ih _ _ _ hup x hx)
      · rw [hs] at hx hup
        rcases List.mem_cons.1 hx with rfl | hx
        · have hmem := mem_dupTexts S.nodeText level k d hd
          rw [hc] at hmem
          exact .inl hmem
        · exact .inr (ih _ _ _ hup x hx)
    · rw [dupLevels_short S.node (by omega)] at hx
      exact absurd hx List.not_mem_nil

theorem fringe_pairDup {a : α} : ∀ ts : List (Tree α), a ∈ (pairDup Tree.node ts).flatMap Tree.fringe →
    a ∈ ts.flatMap Tree.fringe
  | s :: t :: rest => by
    have ih := fringe_pairDup rest (a := a)
    simp only [pairDup, List.flatMap_cons, List.mem_append, Tree.fringe]
    tauto
  | [s] => by simp [pairDup, Tree.fringe]
  | [] => fun h => h

theorem texts_pairDup {x : τ} : ∀ ts : List (Tree α), x ∈ (pairDup Tree.node ts).flatMap S.texts →
    x ∈ ts.flatMap S.texts ∨ x ∈ dupTexts S.nodeText (ts.map S.root)
  | s :: t :: rest => by
    have ih := texts_pairDup rest (x := x)
    simp only [pairDup, List.flatMap_cons, List.mem_append, Scheme.texts, List.mem_cons, List.map_cons, dupTexts]
    tauto
  | [s] => by
    simp only [pairDup, List.flatMap_cons, List.flatMap_nil, List.append_nil, List.mem_append, Scheme.texts, List.mem_cons,
      List.map_cons, List.map_nil, dupTexts, List.not_mem_nil, or_false]
    tauto
  | [] => .inl

/-- The trees of the top level have no other leaves than those below, and no other texts than
those below and between. -/
theorem dupLevels_trees (fuel : ℕ) : ∀ (ts top : List (Tree α)), (dupLevels Tree.node fuel ts).getLast? = some top →
    (∀ a ∈ top.flatMap Tree.fringe, a ∈ ts.flatMap Tree.fringe) ∧
    ∀ x ∈ top.flatMap S.texts, x ∈ ts.flatMap S.texts ∨ x ∈ dupLevelTexts S.nodeText (dupLevels S.node fuel (ts.map S.root)) := by
  induction fuel with
  | zero =>
    intro ts top h
    cases h
    exact ⟨fun a ha => ha, fun x hx => .inl hx⟩
  | succ fuel ih =>
    intro ts top h
    by_cases hl : 1 < ts.length
    · rw [getLast?_dupLevels_succ _ hl] at h
      obtain ⟨hfringe, htexts⟩ := ih _ _ h
      refine ⟨fun a ha => fringe_pairDup ts (hfringe a ha), fun x hx => ?_⟩
      rw [dupLevelTexts_succ S.node S.nodeText (by rwa [List.length_map]), List.mem_append,
        ← map_pairDup Tree.node S.node S.root (fun _ _ => rfl)]
      rcases htexts x hx with h | h
      · rcases texts_pairDup S ts h with h | h
        · exact .inl h
        · exact .inr (.inl h)
      · exact .inr (.inr h)
    · rw [dupLevels_short _ (by omega)] at h
      cases h
      exact ⟨fun a ha => ha, fun x hx => .inl hx⟩

/-- **The levels over a list of leaves end in the root of one tree with leaves of that list**,
hashing every text of that tree on the way. -/
theorem exists_dupTree {xs : List α} (hne : xs ≠ []) :
    ∃ t : Tree α, (∀ a ∈ t.fringe, a ∈ xs) ∧ (dupLevels S.node xs.length (xs.map S.leaf)).getLast? = some [S.root t] ∧
      ∀ x ∈ S.texts t, x ∈ xs.map S.leafText ∨
        x ∈ dupLevelTexts S.nodeText (dupLevels S.node xs.length (xs.map S.leaf)) := by
  obtain ⟨t, ht⟩ := length_getLast?_dupLevels Tree.node xs.length (xs.map Tree.leaf) (by simpa using hne) (by simp)
  have hroot : (xs.map Tree.leaf).map S.root = xs.map S.leaf := by rw [List.map_map]; rfl
  obtain ⟨hfringe, htexts⟩ := dupLevels_trees S xs.length _ _ ht
  rw [flatMap_leaf Tree.fringe id (fun _ => rfl), List.map_id, List.flatMap_singleton] at hfringe
  rw [flatMap_leaf S.texts S.leafText (fun _ => rfl), List.flatMap_singleton, hroot] at htexts
  refine ⟨t, hfringe, ?_, htexts⟩
  have hmap := map_dupLevels Tree.node S.node S.root (fun _ _ => rfl) xs.length (xs.map Tree.leaf)
  rw [hroot] at hmap
  rw [← hmap, List.getLast?_map, ht]
  rfl

end Trees

end HashTree
