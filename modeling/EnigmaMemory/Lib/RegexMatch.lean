import EnigmaMemory.Lib.Regex
import Mathlib.Data.List.Forall2

/-!
# What matches of regular expressions look like

* `search_iff`: a search finds a match at some position of the text.
* `mem_ends_classes`: a sequence of character classes matches a stretch of the text, unit by unit.
* `test_word_iff`: so a search for a whole word finds it between word boundaries.
-/

namespace Regex

/-- The character before a position: the last one of what has been passed, or the one before that. -/
def before (b : Option ℕ) (passed : List ℕ) : Option ℕ := passed.getLast?.or b

@[simp] theorem before_nil (b : Option ℕ) : before b [] = b := rfl

@[simp] theorem before_cons (b : Option ℕ) (x : ℕ) (passed : List ℕ) : before b (x :: passed) = before (some x) passed := by
  unfold before
  rw [List.getLast?_cons]
  cases passed.getLast? <;> rfl

theorem before_none (passed : List ℕ) : before none passed = passed.getLast? := Option.or_none

theorem before_append (b : Option ℕ) (passed matched : List ℕ) : before (before b passed) matched = before b (passed ++ matched) := by
  unfold before
  rw [List.getLast?_append, Option.or_assoc]

example : search boundary none [] = false := by simp [search, ends, isWord]

theorem search_iff {r : Regex} (s : List ℕ) : ∀ b, r.search b s = true ↔
    ∃ passed rest, s = passed ++ rest ∧ r.ends (before b passed, rest) ≠ [] := by
  induction s with
  | nil =>
    intro b
    simp [search]
  | cons x s ih =>
    intro b
    rw [search, Bool.or_eq_true, ih, Bool.not_eq_true', List.isEmpty_eq_false_iff]
    constructor
    · rintro (h | ⟨passed, rest, rfl, h⟩)
      · exact ⟨[], x :: s, rfl, h⟩
      · exact ⟨x :: passed, rest, rfl, by rwa [before_cons]⟩
    · rintro ⟨passed, rest, hs, h⟩
      cases passed with
      | nil =>
        obtain rfl : x :: s = rest := hs
        exact .inl h
      | cons y passed =>
        obtain ⟨rfl, rfl⟩ := List.cons.inj hs
        exact .inr ⟨passed, rest, rfl, by rwa [before_cons] at h⟩

theorem mem_ends_cls {c : CharClass} {p q : Pos} : q ∈ (cls c).ends p ↔ ∃ x rest, p.2 = x :: rest ∧ c.has x = true ∧ q = (some x, rest) := by
  obtain ⟨b, s⟩ := p
  cases s with
  | nil => simp [ends]
  | cons x rest =>
    simp only [ends]
    split
    · rename_i h
      simp [h]
    · rename_i h
      simp [h]

theorem mem_ends_boundary {p q : Pos} : q ∈ boundary.ends p ↔ isWord p.1 ≠ isWord p.2.head? ∧ q = p := by
  simp only [ends]
  split
  · rename_i h
    simp [bne_iff_ne.1 h]
  · rename_i h
    simp at h
    simp [h]

theorem mem_ends_cat_nil {p q : Pos} : q ∈ (cat []).ends p ↔ q = p := List.mem_singleton

theorem mem_ends_cat_cons {r : Regex} {rs : List Regex} {p q : Pos} : q ∈ (cat (r :: rs)).ends p ↔ ∃ m ∈ r.ends p, q ∈ (cat rs).ends m := by
  cases rs with
  | nil => simp [cat, ends]
  | cons r' rs => exact List.mem_flatMap

/-- A sequence of classes matches a stretch of the text, unit by unit. -/
theorem mem_ends_classes (classes : List CharClass) : ∀ {p q : Pos}, q ∈ (cat (classes.map cls)).ends p ↔
    ∃ matched, List.Forall₂ (fun c x => CharClass.has c x = true) classes matched ∧ p.2 = matched ++ q.2 ∧ q.1 = before p.1 matched := by
  induction classes with
  | nil =>
    rintro ⟨b, s⟩ ⟨b', s'⟩
    simp only [List.map_nil, cat, ends, List.mem_singleton, Prod.mk.injEq, List.forall₂_nil_left_iff, exists_eq_left, List.nil_append,
      before_nil]
    exact ⟨fun h => ⟨h.2.symm, h.1⟩, fun h => ⟨h.2, h.1.symm⟩⟩
  | cons c classes ih =>
    rintro ⟨b, s⟩ ⟨b', s'⟩
    rw [List.map_cons, mem_ends_cat_cons]
    constructor
    · rintro ⟨m, hm, hq⟩
      obtain ⟨x, rest, hs, hx, rfl⟩ := mem_ends_cls.1 hm
      obtain rfl : s = x :: rest := hs
      obtain ⟨matched, hall, hrest, hbefore⟩ := ih.1 hq
      exact ⟨x :: matched, .cons hx hall, congrArg (x :: ·) hrest, hbefore.trans (before_cons b x matched).symm⟩
    · rintro ⟨matched, hall, hs, hb⟩
      cases hall with
      | @cons _ x _ matched hx hall =>
        refine ⟨(some x, matched ++ s'), mem_ends_cls.2 ⟨x, _, hs, hx, rfl⟩, ih.2 ⟨matched, hall, rfl, ?_⟩⟩
        rw [hb, before_cons]

/-- Something that the classes match stands between word boundaries. -/
def WordMatch (classes : List CharClass) (s : List ℕ) : Prop :=
  ∃ passed matched rest, s = passed ++ matched ++ rest ∧ List.Forall₂ (fun c x => CharClass.has c x = true) classes matched ∧
    isWord passed.getLast? ≠ isWord (matched ++ rest).head? ∧ isWord (passed ++ matched).getLast? ≠ isWord rest.head?

/-- **A search for a whole word.** -/
theorem test_word_iff (classes : List CharClass) (s : List ℕ) :
    (cat [boundary, cat (classes.map cls), boundary]).test s = true ↔ WordMatch classes s := by
  have hends : ∀ p q : Pos, q ∈ (cat [boundary, cat (classes.map cls), boundary]).ends p ↔ isWord p.1 ≠ isWord p.2.head? ∧
      q ∈ (cat (classes.map cls)).ends p ∧ isWord q.1 ≠ isWord q.2.head? := by
    intro p q
    simp only [mem_ends_cat_cons, mem_ends_cat_nil, mem_ends_boundary]
    constructor
    · rintro ⟨_, ⟨hfirst, rfl⟩, m, hm, _, ⟨hlast, rfl⟩, rfl⟩
      exact ⟨hfirst, hm, hlast⟩
    · rintro ⟨hfirst, hm, hlast⟩
      exact ⟨p, ⟨hfirst, rfl⟩, q, hm, q, ⟨hlast, rfl⟩, rfl⟩
  rw [test, search_iff]
  constructor
  · rintro ⟨passed, rest, rfl, hne⟩
    obtain ⟨q, hq⟩ := List.exists_mem_of_ne_nil _ hne
    obtain ⟨hfirst, hmatch, hlast⟩ := (hends _ _).1 hq
    obtain ⟨matched, hall, hrest, hbefore⟩ := (mem_ends_classes classes).1 hmatch
    obtain rfl : rest = matched ++ q.2 := hrest
    rw [before_none] at hfirst hbefore
    rw [hbefore, ← before_none passed, before_append, before_none] at hlast
    exact ⟨passed, matched, q.2, (List.append_assoc passed matched q.2).symm, hall, hfirst, hlast⟩
  · rintro ⟨passed, matched, rest, rfl, hall, hfirst, hlast⟩
    refine ⟨passed, matched ++ rest, List.append_assoc passed matched rest, ?_⟩
    refine List.ne_nil_of_mem ((hends _ (before none (passed ++ matched), rest)).2 ⟨?_, (mem_ends_classes classes).2 ?_, ?_⟩)
    · rwa [before_none]
    · exact ⟨matched, hall, rfl, (before_append none passed matched).symm⟩
    · rwa [before_none]

end Regex
