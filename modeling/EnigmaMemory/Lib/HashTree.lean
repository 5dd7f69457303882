import Mathlib.Data.List.Induction
import Mathlib.Data.Set.Function
import Mathlib.Tactic.Common

/-!
# Binary hash trees with promoted odd nodes

A level of digests is combined two neighbours at a time; a last node without a
neighbour moves up unchanged. The levels end in one digest, the root.

* `climb_auditPath`: the audit path read off the levels at any index leads from the
  digest at that index to the root, for every number of leaves.
* `Scheme.climb_sound`: any path at all that leads from a leaf's digest to the root of
  a tree starts at a leaf of that tree.
* `Scheme.root_inj`: trees with one root are equal.

The last two need the hash to keep apart the texts hashed on the two sides, and
nothing more.
-/

namespace HashTree

/-! ## Levels -/

section Levels

variable {β γ : Type*} (f : β → β → β)

/-- One level up: neighbours combined, a trailing odd node promoted. -/
def pairUp : List β → List β
  | a :: b :: rest => f a b :: pairUp rest
  | [a] => [a]
  | [] => []

/-- Levels up until one node is left; `fuel` bounds the number of levels. -/
def reduce : ℕ → List β → List β
  | 0, level => level
  | fuel + 1, level => if level.length ≤ 1 then level else reduce fuel (pairUp f level)

example : reduce (· + ·) 2 [1, 2, 4] = [7] := by simp [reduce, pairUp]

/-- The texts hashed to combine a level, `text a b` being the one for two neighbours. -/
def pairTexts {τ : Type*} (text : β → β → τ) : List β → List τ
  | a :: b :: rest => text a b :: pairTexts text rest
  | _ => []

/-- The texts hashed on all levels. -/
def levelTexts {τ : Type*} (text : β → β → τ) : ℕ → List β → List τ
  | 0, _ => []
  | fuel + 1, level =>
    if level.length ≤ 1 then [] else pairTexts text level ++ levelTexts text fuel (pairUp f level)

theorem length_pairUp : ∀ l : List β, (pairUp f l).length = (l.length + 1) / 2
  | a :: b :: rest => by simp only [pairUp, List.length_cons, length_pairUp rest]; omega
  | [a] => by simp [pairUp]
  | [] => by simp [pairUp]

/-- The node at position `k` of the next level. -/
theorem getElem?_pairUp : ∀ (l : List β) (k : ℕ), (pairUp f l)[k]? =
    match l[2 * k]?, l[2 * k + 1]? with
    | some a, some b => some (f a b)
    | some a, none => some a
    | none, _ => none
  | a :: b :: rest, 0 => by simp [pairUp]
  | a :: b :: rest, k + 1 => by
    rw [pairUp, List.getElem?_cons_succ, getElem?_pairUp rest k]
    rw [show 2 * (k + 1) = 2 * k + 1 + 1 by omega, List.getElem?_cons_succ, List.getElem?_cons_succ,
      List.getElem?_cons_succ, List.getElem?_cons_succ]
  | [a], 0 => by simp [pairUp]
  | [a], k + 1 => by simp [pairUp, show 2 * (k + 1) = 2 * k + 1 + 1 by omega]
  | [], k => by simp [pairUp]

theorem map_pairUp (g : γ → γ → γ) (φ : β → γ) (hφ : ∀ a b, φ (f a b) = g (φ a) (φ b)) :
    ∀ l : List β, (pairUp f l).map φ = pairUp g (l.map φ)
  | a :: b :: rest => by simp [pairUp, hφ, map_pairUp g φ hφ rest]
  | [a] => by simp [pairUp]
  | [] => by simp [pairUp]

theorem map_reduce (g : γ → γ → γ) (φ : β → γ) (hφ : ∀ a b, φ (f a b) = g (φ a) (φ b)) (fuel : ℕ) :
    ∀ l : List β, (reduce f fuel l).map φ = reduce g fuel (l.map φ) := by
  induction fuel with
  | zero => intro l; rfl
  | succ fuel ih =>
    intro l
    simp only [reduce, List.length_map]
    split
    · rfl
    · rw [ih, map_pairUp f g φ hφ]

theorem pairTexts_map {τ : Type*} (text : β → β → τ) (text' : γ → γ → τ) (φ : β → γ)
    (hφ : ∀ a b, text' (φ a) (φ b) = text a b) : ∀ l : List β, pairTexts text' (l.map φ) = pairTexts text l
  | a :: b :: rest => by simp [pairTexts, hφ, pairTexts_map text text' φ hφ rest]
  | [a] => by simp [pairTexts]
  | [] => by simp [pairTexts]

theorem levelTexts_map {τ : Type*} (g : γ → γ → γ) (text : β → β → τ) (text' : γ → γ → τ) (φ : β → γ)
    (hφ : ∀ a b, φ (f a b) = g (φ a) (φ b)) (ht : ∀ a b, text' (φ a) (φ b) = text a b) (fuel : ℕ) :
    ∀ l : List β, levelTexts g text' fuel (l.map φ) = levelTexts f text fuel l := by
  induction fuel with
  | zero => intro l; rfl
  | succ fuel ih =>
    intro l
    simp only [levelTexts, List.length_map, pairTexts_map text text' φ ht]
    rw [← map_pairUp f g φ hφ, ih]

/-- **Enough levels leave one node.** -/
theorem length_reduce (fuel : ℕ) : ∀ l : List β, l ≠ [] → l.length ≤ fuel + 1 →
    (reduce f fuel l).length = 1 := by
  induction fuel with
  | zero =>
    intro l hl hn
    have := List.length_pos_iff.2 hl
    rw [reduce]; omega
  | succ fuel ih =>
    intro l hl hn
    have hpos := List.length_pos_iff.2 hl
    rw [reduce]
    split
    · omega
    · have hlen := length_pairUp f l
      exact ih _ (List.ne_nil_of_length_pos (by omega)) (by omega)

end Levels

/-! ## Audit paths -/

inductive Side where
  | left
  | right
  deriving DecidableEq, Repr

section Paths

variable {β : Type*} (f : β → β → β)

/-- Combine with a sibling that stands on the given side. -/
def step (current : β) (s : Side × β) : β :=
  match s.1 with
  | .left => f s.2 current
  | .right => f current s.2

def climb (current : β) (path : List (Side × β)) : β := path.foldl (step f) current

/-- The position that is combined with `cursor`. -/
def siblingIndex (cursor : ℕ) : ℕ := if cursor % 2 = 0 then cursor + 1 else cursor - 1

/-- The sibling of a position on its level. A promoted node has none. -/
def siblingAt (level : List β) (cursor : ℕ) : List (Side × β) :=
  match level[siblingIndex cursor]? with
  | some h => [(if siblingIndex cursor < cursor then .left else .right, h)]
  | none => []

/-- The siblings met on the way up from position `cursor`. -/
def auditPath : ℕ → List β → ℕ → List (Side × β)
  | 0, _, _ => []
  | fuel + 1, level, cursor =>
    if level.length ≤ 1 then []
    else siblingAt level cursor ++ auditPath fuel (pairUp f level) (cursor / 2)

/-- An even position has its sibling on the right, or none at the end of the level; an
odd position has one on the left. -/
theorem siblingAt_cases {level : List β} {i : ℕ} {c : β} (hc : level[i]? = some c) :
    (∃ k, i = 2 * k ∧ level[2 * k + 1]? = none ∧ siblingAt level i = []) ∨
    (∃ k d, i = 2 * k ∧ level[2 * k + 1]? = some d ∧ siblingAt level i = [(.right, d)]) ∨
    (∃ k d, i = 2 * k + 1 ∧ level[2 * k]? = some d ∧ siblingAt level i = [(.left, d)]) := by
  obtain ⟨k, rfl | rfl⟩ : ∃ k, i = 2 * k ∨ i = 2 * k + 1 := ⟨i / 2, by omega⟩
  · have hs : siblingIndex (2 * k) = 2 * k + 1 := if_pos (by omega)
    rw [siblingAt, hs, if_neg (by omega)]
    cases hd : level[2 * k + 1]? with
    | none => exact Or.inl ⟨k, rfl, hd, rfl⟩
    | some d => exact Or.inr (Or.inl ⟨k, d, rfl, hd, rfl⟩)
  · have hs : siblingIndex (2 * k + 1) = 2 * k := if_neg (by omega)
    have hlt : 2 * k < level.length := by
      have := (List.getElem?_eq_some_iff.1 hc).1; omega
    rw [siblingAt, hs, if_pos (by omega), List.getElem?_eq_getElem hlt]
    exact Or.inr (Or.inr ⟨k, _, rfl, List.getElem?_eq_getElem hlt, rfl⟩)

/-- One level of the audit path leads to the parent on the next level. -/
theorem climb_level {level : List β} {i : ℕ} {c : β} (hc : level[i]? = some c) :
    (pairUp f level)[i / 2]? = some (climb f c (siblingAt level i)) := by
  rw [getElem?_pairUp]
  rcases siblingAt_cases hc with ⟨k, rfl, hn, hs⟩ | ⟨k, d, rfl, hd, hs⟩ | ⟨k, d, rfl, hd, hs⟩
  · rw [show 2 * k / 2 = k by omega, hc, hn, hs]; rfl
  · rw [show 2 * k / 2 = k by omega, hc, hd, hs]; rfl
  · rw [show (2 * k + 1) / 2 = k by omega, hc, hd, hs]; rfl

/-- **The audit path leads to the root.** -/
theorem climb_auditPath (fuel : ℕ) : ∀ (level : List β) (i : ℕ) (c : β), level[i]? = some c →
    level.length ≤ fuel + 1 → reduce f fuel level = [climb f c (auditPath f fuel level i)] := by
  induction fuel with
  | zero =>
    intro level i c hc hn
    have hi := (List.getElem?_eq_some_iff.1 hc).1
    obtain ⟨x, rfl⟩ := List.length_eq_one_iff.1 (show level.length = 1 by omega)
    have : i = 0 := by simp at hi; omega
    subst this
    simp at hc; subst hc; rfl
  | succ fuel ih =>
    intro level i c hc hn
    have hi := (List.getElem?_eq_some_iff.1 hc).1
    rw [reduce, auditPath]
    split
    · obtain ⟨x, rfl⟩ := List.length_eq_one_iff.1 (show level.length = 1 by omega)
      have : i = 0 := by simp at hi; omega
      subst this
      simp at hc; subst hc; rfl
    · have hlen := length_pairUp f level
      rw [ih _ (i / 2) _ (climb_level f hc) (by omega)]
      simp only [climb, List.foldl_append]

theorem climb_map {γ : Type*} (g : γ → γ → γ) (φ : β → γ) (hφ : ∀ a b, φ (f a b) = g (φ a) (φ b)) (c : β)
    (path : List (Side × β)) : climb g (φ c) (path.map (Prod.map id φ)) = φ (climb f c path) := by
  induction path generalizing c with
  | nil => rfl
  | cons s path ih =>
    obtain ⟨side, d⟩ := s
    have hs : step g (φ c) (side, φ d) = φ (step f c (side, d)) := by
      cases side with
      | left => exact (hφ d c).symm
      | right => exact (hφ c d).symm
    rw [List.map_cons, climb, List.foldl_cons, Prod.map, id, hs]
    exact ih _

theorem auditPath_map {γ : Type*} (g : γ → γ → γ) (φ : β → γ) (hφ : ∀ a b, φ (f a b) = g (φ a) (φ b)) (fuel : ℕ) :
    ∀ (level : List β) (i : ℕ), auditPath g fuel (level.map φ) i = (auditPath f fuel level i).map (Prod.map id φ) := by
  induction fuel with
  | zero => intro level i; rfl
  | succ fuel ih =>
    intro level i
    rw [auditPath, auditPath, List.length_map]
    split
    · rfl
    · rw [List.map_append, ← ih, map_pairUp f g φ hφ, siblingAt, siblingAt, List.getElem?_map]
      cases level[siblingIndex i]? <;> rfl

theorem mem_pairTexts {τ : Type*} (text : β → β → τ) : ∀ (level : List β) (k : ℕ) (a b : β),
    level[2 * k]? = some a → level[2 * k + 1]? = some b → text a b ∈ pairTexts text level
  | x :: y :: rest, 0, a, b, ha, hb => by
    simp only [Nat.mul_zero, List.getElem?_cons_zero, List.getElem?_cons_succ, Nat.zero_add, Option.some.injEq] at ha hb
    rw [pairTexts, ha, hb]
    exact List.mem_cons_self
  | x :: y :: rest, k + 1, a, b, ha, hb => by
    rw [show 2 * (k + 1) = 2 * k + 1 + 1 by omega, List.getElem?_cons_succ, List.getElem?_cons_succ] at ha
    rw [show 2 * (k + 1) + 1 = 2 * k + 1 + 1 + 1 by omega, List.getElem?_cons_succ, List.getElem?_cons_succ] at hb
    exact List.mem_cons_of_mem _ (mem_pairTexts text rest k a b ha hb)
  | [x], k, a, b, ha, hb => by simp at hb
  | [], k, a, b, ha, hb => by simp at ha

end Paths

/-! ## Trees and their texts -/

inductive Tree (α : Type*) where
  | leaf (a : α)
  | node (l r : Tree α)

/-- The leaves, from left to right. -/
def Tree.fringe {α : Type*} : Tree α → List α
  | .leaf a => [a]
  | .node l r => l.fringe ++ r.fringe

/-- How leaves and nodes are turned into texts to hash. The two kinds of text never
coincide, and each text determines what it was made from. -/
structure Scheme (α τ δ : Type*) where
  hash : τ → δ
  leafText : α → τ
  nodeText : δ → δ → τ
  leaf_inj : ∀ {a b}, leafText a = leafText b → a = b
  node_inj : ∀ {l r l' r'}, nodeText l r = nodeText l' r' → l = l' ∧ r = r'
  leaf_ne_node : ∀ {a l r}, leafText a ≠ nodeText l r

namespace Scheme

variable {α τ δ : Type*} (S : Scheme α τ δ)

def leaf (a : α) : δ := S.hash (S.leafText a)

def node (l r : δ) : δ := S.hash (S.nodeText l r)

def root : Tree α → δ
  | .leaf a => S.leaf a
  | .node l r => S.node (root l) (root r)

/-- The text hashed last: the root is its digest. -/
def top : Tree α → τ
  | .leaf a => S.leafText a
  | .node l r => S.nodeText (S.root l) (S.root r)

/-- Every text hashed to compute the root. -/
def texts : Tree α → List τ
  | .leaf a => [S.leafText a]
  | .node l r => S.nodeText (S.root l) (S.root r) :: (texts l ++ texts r)

/-- The text hashed when a path is climbed by one step. -/
def stepText (current : δ) (s : Side × δ) : τ :=
  match s.1 with
  | .left => S.nodeText s.2 current
  | .right => S.nodeText current s.2

/-- Every text hashed while a path is climbed. -/
def climbTexts : δ → List (Side × δ) → List τ
  | _, [] => []
  | current, s :: path => S.stepText current s :: climbTexts (step S.node current s) path

theorem root_eq_hash (t : Tree α) : S.root t = S.hash (S.top t) := by cases t <;> rfl

theorem top_mem_texts (t : Tree α) : S.top t ∈ S.texts t := by cases t <;> simp [top, texts]

theorem step_eq_hash (c : δ) (s : Side × δ) : step S.node c s = S.hash (S.stepText c s) := by
  obtain ⟨s, d⟩ := s; cases s <;> rfl

theorem climbTexts_append (c : δ) (p : List (Side × δ)) (s : Side × δ) :
    S.climbTexts c (p ++ [s]) = S.climbTexts c p ++ [S.stepText (climb S.node c p) s] := by
  induction p generalizing c with
  | nil => rfl
  | cons x p ih => simp [climbTexts, ih, climb]

/-- Climbing an audit path hashes no text that the levels did not hash. -/
theorem climbTexts_auditPath (fuel : ℕ) : ∀ (level : List δ) (i : ℕ) (c : δ), level[i]? = some c →
    ∀ x ∈ S.climbTexts c (auditPath S.node fuel level i), x ∈ levelTexts S.node S.nodeText fuel level := by
  induction fuel with
  | zero => intro level i c _ x hx; exact absurd hx List.not_mem_nil
  | succ fuel ih =>
    intro level i c hc x hx
    rw [auditPath] at hx
    rw [levelTexts]
    split at hx
    · exact absurd hx List.not_mem_nil
    · rename_i hlen
      rw [if_neg hlen, List.mem_append]
      have hup := climb_level S.node hc
      rcases siblingAt_cases hc with ⟨k, rfl, -, hs⟩ | ⟨k, d, rfl, hd, hs⟩ | ⟨k, d, rfl, hd, hs⟩
      · rw [hs] at hx hup
        exact Or.inr (ih _ _ _ hup x hx)
      · rw [hs] at hx hup
        rcases List.mem_cons.1 hx with rfl | hx
        · exact Or.inl (mem_pairTexts S.nodeText level k c d hc hd)
        · exact Or.inr (ih _ _ _ hup x hx)
      · rw [hs] at hx hup
        rcases List.mem_cons.1 hx with rfl | hx
        · exact Or.inl (mem_pairTexts S.nodeText level k d c hd hc)
        · exact Or.inr (ih _ _ _ hup x hx)

/-- **A path to the root of a tree starts at one of its leaves**, whatever the siblings. -/
theorem climb_sound {D : Set τ} (hinj : Set.InjOn S.hash D) {a : α} (ha : S.leafText a ∈ D)
    (path : List (Side × δ)) : ∀ t : Tree α, (∀ x ∈ S.texts t, x ∈ D) →
      (∀ x ∈ S.climbTexts (S.leaf a) path, x ∈ D) → climb S.node (S.leaf a) path = S.root t →
      a ∈ t.fringe := by
  -- peel the last step of the path against the top of the tree
  induction path using List.reverseRecOn with
  | nil =>
    intro t ht _ h
    have htop := hinj ha (ht _ (S.top_mem_texts t)) (h.trans (S.root_eq_hash t))
    cases t with
    | leaf b => simp [Tree.fringe, S.leaf_inj htop]
    | node l r => exact absurd htop S.leaf_ne_node
  | append_singleton p s ih =>
    intro t ht hp h
    have hp' : ∀ x ∈ S.climbTexts (S.leaf a) p, x ∈ D := fun x hx =>
      hp x (by rw [climbTexts_append]; exact List.mem_append_left _ hx)
    have hs : S.stepText (climb S.node (S.leaf a) p) s ∈ D :=
      hp _ (by rw [climbTexts_append]; exact List.mem_append_right _ (List.mem_singleton_self _))
    have hlast : climb S.node (S.leaf a) (p ++ [s]) =
        S.hash (S.stepText (climb S.node (S.leaf a) p) s) := by
      rw [climb, List.foldl_append]; exact S.step_eq_hash _ s
    have htop := hinj hs (ht _ (S.top_mem_texts t)) (hlast.symm.trans (h.trans (S.root_eq_hash t)))
    obtain ⟨side, d⟩ := s
    cases t with
    | leaf b => cases side <;> exact absurd htop.symm S.leaf_ne_node
    | node l r =>
      have htl : ∀ x ∈ S.texts l, x ∈ D := fun x hx => ht x (by simp [texts, hx])
      have htr : ∀ x ∈ S.texts r, x ∈ D := fun x hx => ht x (by simp [texts, hx])
      rw [Tree.fringe, List.mem_append]
      cases side with
      | left => exact Or.inr (ih r htr hp' (S.node_inj htop).2)
      | right => exact Or.inl (ih l htl hp' (S.node_inj htop).1)

/-- **The root determines the tree.** -/
theorem root_inj {D : Set τ} (hinj : Set.InjOn S.hash D) : ∀ t u : Tree α,
    (∀ x ∈ S.texts t, x ∈ D) → (∀ x ∈ S.texts u, x ∈ D) → S.root t = S.root u → t = u := by
  intro t
  induction t with
  | leaf a =>
    intro u ht hu h
    have htop := hinj (ht _ (S.top_mem_texts _)) (hu _ (S.top_mem_texts u)) (h.trans (S.root_eq_hash u))
    cases u with
    | leaf b => rw [S.leaf_inj htop]
    | node l r => exact absurd htop S.leaf_ne_node
  | node l r ihl ihr =>
    intro u ht hu h
    have htop := hinj (ht _ (S.top_mem_texts _)) (hu _ (S.top_mem_texts u)) (h.trans (S.root_eq_hash u))
    cases u with
    | leaf b => exact absurd htop.symm S.leaf_ne_node
    | node l' r' =>
      obtain ⟨hl, hr⟩ := S.node_inj htop
      have htl : ∀ x ∈ S.texts l, x ∈ D := fun x hx => ht x (by simp [texts, hx])
      have htr : ∀ x ∈ S.texts r, x ∈ D := fun x hx => ht x (by simp [texts, hx])
      have hul : ∀ x ∈ S.texts l', x ∈ D := fun x hx => hu x (by simp [texts, hx])
      have hur : ∀ x ∈ S.texts r', x ∈ D := fun x hx => hu x (by simp [texts, hx])
      rw [ihl l' htl hul hl, ihr r' htr hur hr]

end Scheme

/-! ## The tree over a list of leaves -/

section Build

variable {α : Type*}

theorem fringe_pairUp : ∀ ts : List (Tree α), (pairUp Tree.node ts).flatMap Tree.fringe = ts.flatMap Tree.fringe
  | a :: b :: rest => by simp [pairUp, Tree.fringe, fringe_pairUp rest]
  | [a] => by simp [pairUp]
  | [] => by simp [pairUp]

theorem fringe_reduce (fuel : ℕ) : ∀ ts : List (Tree α),
    (reduce Tree.node fuel ts).flatMap Tree.fringe = ts.flatMap Tree.fringe := by
  induction fuel with
  | zero => intro ts; rfl
  | succ fuel ih =>
    intro ts
    rw [reduce]
    split
    · rfl
    · rw [ih, fringe_pairUp]

variable {τ δ : Type*} (S : Scheme α τ δ)

theorem texts_pairUp : ∀ (ts : List (Tree α)), ∀ x ∈ (pairUp Tree.node ts).flatMap S.texts,
    x ∈ ts.flatMap S.texts ∨ x ∈ pairTexts S.nodeText (ts.map S.root)
  | a :: b :: rest => by
    intro x hx
    have ih := texts_pairUp rest x
    simp only [pairUp, List.flatMap_cons, List.mem_append, Scheme.texts, List.mem_cons] at hx
    simp only [List.flatMap_cons, List.mem_append, List.map_cons, pairTexts, List.mem_cons]
    tauto
  | [a] => fun x hx => Or.inl (by simpa [pairUp] using hx)
  | [] => fun x hx => absurd hx (by simp [pairUp])

theorem texts_reduce (fuel : ℕ) : ∀ (ts : List (Tree α)), ∀ x ∈ (reduce Tree.node fuel ts).flatMap S.texts,
    x ∈ ts.flatMap S.texts ∨ x ∈ levelTexts S.node S.nodeText fuel (ts.map S.root) := by
  induction fuel with
  | zero => intro ts x hx; exact Or.inl hx
  | succ fuel ih =>
    intro ts x hx
    simp only [reduce, levelTexts, List.length_map] at hx ⊢
    split
    · rename_i hl; rw [if_pos hl] at hx; exact Or.inl hx
    · rename_i hl
      rw [if_neg hl] at hx
      rw [List.mem_append]
      rcases ih _ x hx with h | h
      · rcases texts_pairUp S ts x h with h | h
        · exact Or.inl h
        · exact Or.inr (Or.inl h)
      · rw [map_pairUp Tree.node S.node S.root (fun _ _ => rfl)] at h
        exact Or.inr (Or.inr h)

theorem flatMap_leaf {ε : Type*} (g : Tree α → List ε) (g' : α → ε) (hg : ∀ a, g (.leaf a) = [g' a])
    (xs : List α) : (xs.map Tree.leaf).flatMap g = xs.map g' := by
  induction xs with
  | nil => rfl
  | cons x xs ih => simp [hg, ih]

/-- **The levels over a list of leaves compute the root of one tree with that fringe**,
hashing every text of that tree on the way. -/
theorem exists_tree {xs : List α} (hne : xs ≠ []) :
    ∃ t : Tree α, t.fringe = xs ∧ reduce S.node xs.length (xs.map S.leaf) = [S.root t] ∧
      ∀ x ∈ S.texts t, x ∈ xs.map S.leafText ∨
        x ∈ levelTexts S.node S.nodeText xs.length (xs.map S.leaf) := by
  have hlen := length_reduce Tree.node xs.length (xs.map Tree.leaf) (by simpa using hne) (by simp)
  obtain ⟨t, ht⟩ := List.length_eq_one_iff.1 hlen
  have hroot : (xs.map Tree.leaf).map S.root = xs.map S.leaf := by rw [List.map_map]; rfl
  refine ⟨t, ?_, ?_, ?_⟩
  · have hf := fringe_reduce xs.length (xs.map Tree.leaf)
    rw [ht, flatMap_leaf _ id (fun _ => rfl)] at hf
    simpa using hf
  · have hm := map_reduce Tree.node S.node S.root (fun _ _ => rfl) xs.length (xs.map Tree.leaf)
    rw [ht, hroot] at hm
    exact hm.symm
  · intro x hx
    have h := texts_reduce S xs.length (xs.map Tree.leaf) x (by rw [ht]; simpa using hx)
    rw [flatMap_leaf _ S.leafText (fun _ => rfl), hroot] at h
    exact h

end Build

end HashTree
