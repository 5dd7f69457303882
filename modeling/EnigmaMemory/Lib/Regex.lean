import Mathlib.Tactic.Common

/-!
# Regular expressions

Expressions over character codes with the anchors that look at the characters beside a
position. `ends` lists where the matches that begin at a position end, and `search` looks for a
match anywhere in a text, as an unanchored test does.

* `search_eq_false`: a text over an alphabet that every match has to leave has no match.
-/

/-- A set of character codes: ranges, or what they leave out. -/
structure CharClass where
  ranges : List (ℕ × ℕ)
  negated : Bool := false

namespace CharClass

def has (c : CharClass) (x : ℕ) : Bool := c.ranges.any (fun r => decide (r.1 ≤ x) && decide (x ≤ r.2)) != c.negated

/-- No character of the class lies in one of the given ranges. -/
def avoids (alphabet : List (ℕ × ℕ)) (c : CharClass) : Bool :=
  !c.negated && c.ranges.all fun r => alphabet.all fun a => decide (r.2 < a.1) || decide (a.2 < r.1)

/-- A text over an alphabet given by ranges. -/
def Over (alphabet : List (ℕ × ℕ)) (s : List ℕ) : Prop := ∀ x ∈ s, ∃ a ∈ alphabet, a.1 ≤ x ∧ x ≤ a.2

instance (alphabet : List (ℕ × ℕ)) (s : List ℕ) : Decidable (Over alphabet s) :=
  inferInstanceAs (Decidable (∀ x ∈ s, ∃ a ∈ alphabet, a.1 ≤ x ∧ x ≤ a.2))

theorem has_eq_false {alphabet : List (ℕ × ℕ)} {c : CharClass} {x : ℕ} (h : c.avoids alphabet = true)
    (hx : ∃ a ∈ alphabet, a.1 ≤ x ∧ x ≤ a.2) : c.has x = false := by
  obtain ⟨a, ha, hlow, hhigh⟩ := hx
  rw [avoids, Bool.and_eq_true, Bool.not_eq_true', List.all_eq_true] at h
  obtain ⟨hneg, hranges⟩ := h
  have hnone : c.ranges.any (fun r => decide (r.1 ≤ x) && decide (x ≤ r.2)) = false := by
    rw [List.any_eq_false]
    intro r hr
    have hfar := List.all_eq_true.1 (hranges r hr) a ha
    simp only [Bool.or_eq_true, decide_eq_true_eq] at hfar
    simp only [Bool.and_eq_true, decide_eq_true_eq, not_and, Nat.not_le]
    omega
  rw [has, hnone, hneg]
  rfl

end CharClass

inductive Regex where
  | cls (c : CharClass)
  | eps
  | seq (a b : Regex)
  | alt (a b : Regex)
  | star (a : Regex)
  /-- `^` -/
  | start
  /-- `$` -/
  | stop
  /-- `\b` -/
  | boundary

namespace Regex

/-! ## Writing expressions -/

def any : List Regex → Regex
  | [] => cls ⟨[], false⟩
  | [r] => r
  | r :: rest => alt r (any rest)

def cat : List Regex → Regex
  | [] => eps
  | [r] => r
  | r :: rest => seq r (cat rest)

def opt (r : Regex) : Regex := alt r eps

/-- `r{n}` -/
def times (r : Regex) : ℕ → Regex
  | 0 => eps
  | n + 1 => seq r (times r n)

/-- `r{n,}` -/
def atLeast (r : Regex) (n : ℕ) : Regex := seq (times r n) (star r)

/-- `r{0,n}` -/
def upTo (r : Regex) : ℕ → Regex
  | 0 => eps
  | n + 1 => opt (seq r (upTo r n))

/-- `r+` -/
def plus (r : Regex) : Regex := atLeast r 1

/-- The ranges with the letters of both cases. -/
def foldCase (ranges : List (ℕ × ℕ)) : List (ℕ × ℕ) :=
  ranges.flatMap fun r => r ::
    (if max r.1 65 ≤ min r.2 90 then [(max r.1 65 + 32, min r.2 90 + 32)] else []) ++
    if max r.1 97 ≤ min r.2 122 then [(max r.1 97 - 32, min r.2 122 - 32)] else []

/-- A literal text. -/
def lit (s : String) : Regex := cat (s.toList.map fun c => cls ⟨[(c.toNat, c.toNat)], false⟩)

/-- A literal text in letters of either case, each letter with the further characters that
`extra` counts as one of it. -/
def litFold (extra : ℕ → List (ℕ × ℕ)) (s : String) : Regex :=
  cat (s.toList.map fun c => cls ⟨foldCase [(c.toNat, c.toNat)] ++ extra c.toNat, false⟩)

/-! ## Matching -/

/-- A letter, a digit or an underscore. -/
def isWord : Option ℕ → Bool
  | none => false
  | some x => decide (48 ≤ x ∧ x ≤ 57 ∨ 65 ≤ x ∧ x ≤ 90 ∨ x = 95 ∨ 97 ≤ x ∧ x ≤ 122)

/-- A position in a text: the character before it and the text after it. -/
abbrev Pos := Option ℕ × List ℕ

/-- Where `n` or fewer repetitions end; a repetition that consumes nothing is not repeated. -/
def starEnds (step : Pos → List Pos) : ℕ → Pos → List Pos
  | 0, p => [p]
  | n + 1, p => p :: ((step p).filter fun q => decide (q.2.length < p.2.length)).flatMap (starEnds step n)

/-- Where the matches that begin at a position end. -/
def ends : Regex → Pos → List Pos
  | cls c, p =>
    match p.2 with
    | [] => []
    | x :: rest => if c.has x then [(some x, rest)] else []
  | eps, p => [p]
  | seq a b, p => (ends a p).flatMap (ends b)
  | alt a b, p => ends a p ++ ends b p
  | star a, p => starEnds (ends a) p.2.length p
  | start, p => if p.1.isNone then [p] else []
  | stop, p => if p.2.isEmpty then [p] else []
  | boundary, p => if isWord p.1 != isWord p.2.head? then [p] else []

/-- A match begins at this position or at a later one. -/
def search (r : Regex) : Option ℕ → List ℕ → Bool
  | before, [] => !(r.ends (before, [])).isEmpty
  | before, x :: rest => !(r.ends (before, x :: rest)).isEmpty || search r (some x) rest

/-- `r.test(s)` -/
def test (r : Regex) (s : List ℕ) : Bool := r.search none s

example : (any [cat [start, lit "ab"], cat [boundary, lit "cd", stop]]).test [120, 32, 99, 100] = true := by decide

/-! ## Texts without a match -/

/-- Every match contains a character outside the alphabet. -/
def leaves (alphabet : List (ℕ × ℕ)) : Regex → Bool
  | cls c => c.avoids alphabet
  | seq a b => leaves alphabet a || leaves alphabet b
  | alt a b => leaves alphabet a && leaves alphabet b
  | _ => false

theorem mem_starEnds {step : Pos → List Pos} (hstep : ∀ p, ∀ q ∈ step p, q.2 <:+ p.2) (n : ℕ) :
    ∀ p, ∀ q ∈ starEnds step n p, q.2 <:+ p.2 := by
  induction n with
  | zero =>
    intro p q hq
    obtain rfl := List.mem_singleton.1 hq
    exact List.suffix_rfl
  | succ n ih =>
    intro p q hq
    rcases List.mem_cons.1 hq with rfl | hq
    · exact List.suffix_rfl
    · obtain ⟨m, hm, hq⟩ := List.mem_flatMap.1 hq
      exact (ih m q hq).trans (hstep p m (List.mem_filter.1 hm).1)

/-- A match ends further on in the text. -/
theorem ends_suffix (r : Regex) : ∀ p, ∀ q ∈ r.ends p, q.2 <:+ p.2 := by
  induction r with
  | cls c =>
    rintro ⟨before, s⟩ q hq
    cases s with
    | nil => cases hq
    | cons x rest =>
      simp only [ends] at hq
      split at hq
      · rw [List.mem_singleton.1 hq]
        exact List.suffix_cons x rest
      · cases hq
  | eps =>
    intro p q hq
    obtain rfl := List.mem_singleton.1 hq
    exact List.suffix_rfl
  | seq a b iha ihb =>
    intro p q hq
    obtain ⟨m, hm, hq⟩ := List.mem_flatMap.1 hq
    exact (ihb m q hq).trans (iha p m hm)
  | alt a b iha ihb =>
    intro p q hq
    rcases List.mem_append.1 hq with hq | hq
    · exact iha p q hq
    · exact ihb p q hq
  | star a iha => exact fun p => mem_starEnds iha _ p
  | start | stop | boundary =>
    intro p q hq
    simp only [ends] at hq
    split at hq
    · obtain rfl := List.mem_singleton.1 hq
      exact List.suffix_rfl
    · cases hq

theorem ends_eq_nil {alphabet : List (ℕ × ℕ)} (r : Regex) (h : r.leaves alphabet = true) :
    ∀ p : Pos, CharClass.Over alphabet p.2 → r.ends p = [] := by
  induction r with
  | cls c =>
    rintro ⟨before, s⟩ hs
    cases s with
    | nil => rfl
    | cons x rest =>
      simp only [ends]
      rw [CharClass.has_eq_false h (hs x List.mem_cons_self)]
      rfl
  | seq a b iha ihb =>
    intro p hs
    rw [ends, List.flatMap_eq_nil_iff]
    rw [leaves, Bool.or_eq_true] at h
    rcases h with h | h
    · rw [iha h p hs]
      simp
    · -- the text after a match of the first part is over the alphabet too
      intro q hq
      exact ihb h q fun x hx => hs x ((ends_suffix a p q hq).subset hx)
  | alt a b iha ihb =>
    intro p hs
    rw [leaves, Bool.and_eq_true] at h
    rw [ends, iha h.1 p hs, ihb h.2 p hs]
    rfl
  | eps | star | start | stop | boundary => cases h

/-- **A text over the alphabet has no match.** -/
theorem search_eq_false {alphabet : List (ℕ × ℕ)} {r : Regex} (h : r.leaves alphabet = true) (s : List ℕ) :
    ∀ before, CharClass.Over alphabet s → r.search before s = false := by
  induction s with
  | nil =>
    intro before hs
    rw [search, ends_eq_nil r h _ hs]
    rfl
  | cons x rest ih =>
    intro before hs
    rw [search, ends_eq_nil r h _ hs, ih _ fun y hy => hs y (List.mem_cons_of_mem _ hy)]
    rfl

end Regex
