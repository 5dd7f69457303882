import Mathlib.Data.List.Sort

/-!
# Sorting and the order of what is sorted

A stable sort by a total preorder: elements that are ordered both ways stay in the order in which they were given, so the
sorted list depends on that order exactly when two different elements are ordered both ways.

* `filter_insertionSort`: the elements of a class of elements that are ordered both ways stay in their order.
* `sort_unordered_iff`: the sorted list is the same for every order of the given one exactly when no two different
  elements are ordered both ways.
-/

namespace StableSort

open List

variable {α β : Type*} (r : α → α → Prop) [DecidableRel r]

/-- Two orders of a list are sorted alike if elements that are ordered both ways are equal. -/
theorem insertionSort_eq_of_perm [Std.Total r] [IsTrans α r] {l m : List α} (hperm : l ~ m)
    (hanti : ∀ a ∈ l, ∀ b ∈ l, r a b → r b a → a = b) : l.insertionSort r = m.insertionSort r := by
  refine Perm.eq_of_pairwise ?_ (pairwise_insertionSort r l) (pairwise_insertionSort r m)
    (((perm_insertionSort r l).trans hperm).trans (perm_insertionSort r m).symm)
  intro a b ha hb
  exact hanti a ((mem_insertionSort r).1 ha) b (hperm.mem_iff.2 ((mem_insertionSort r).1 hb))

theorem filter_insertionSort (p : α → Bool) {l : List α} (h : ∀ a ∈ l, ∀ b ∈ l, p a = true → p b = true → r a b) :
    (l.insertionSort r).filter p = l.filter p := by
  have hsorted : (l.filter p).Pairwise r := by
    refine pairwise_of_forall_mem_list fun a ha b hb => ?_
    rw [mem_filter] at ha hb
    exact h a ha.1 b hb.1 ha.2 hb.2
  have hsub : l.filter p <+ (l.insertionSort r).filter p := by
    have := (sublist_insertionSort hsorted filter_sublist).filter p
    simpa only [filter_filter, Bool.and_self] using this
  exact (hsub.eq_of_length ((perm_insertionSort r l).symm.filter p).length_eq).symm

/-- **When sorting forgets the order.** -/
theorem sort_unordered_iff [Std.Total r] [IsTrans α r] (f : β → α) (l : List β) :
    (∀ m, m ~ l → (m.map f).insertionSort r = (l.map f).insertionSort r) ↔
      ∀ a ∈ l, ∀ b ∈ l, r (f a) (f b) → r (f b) (f a) → f a = f b := by
  constructor
  · intro h a ha b hb hab hba
    obtain ⟨before, after, hl⟩ := append_of_mem ha
    obtain ⟨before', after', hl'⟩ := append_of_mem hb
    have hfirst : ∀ c rest, (c :: rest) ~ l → r (f a) (f c) → r (f c) (f a) →
        ((l.map f).insertionSort r).filter (fun x => decide (r (f a) x ∧ r x (f a))) =
          f c :: (rest.map f).filter fun x => decide (r (f a) x ∧ r x (f a)) := by
      intro c rest hperm hac hca
      rw [← h _ hperm, filter_insertionSort, map_cons, filter_cons_of_pos]
      · exact decide_eq_true ⟨hac, hca⟩
      · intro x _ y _ hx hy
        exact trans_of r (of_decide_eq_true hx).2 (of_decide_eq_true hy).1
    have hone := hfirst a (before ++ after) (hl ▸ perm_middle.symm) (refl_of r _) (refl_of r _)
    have htwo := hfirst b (before' ++ after') (hl' ▸ perm_middle.symm) hab hba
    exact (cons.inj (hone.symm.trans htwo)).1
  · intro h m hperm
    refine insertionSort_eq_of_perm r (hperm.map f) fun x hx y hy => ?_
    obtain ⟨a, ha, rfl⟩ := mem_map.1 hx
    obtain ⟨b, hb, rfl⟩ := mem_map.1 hy
    exact h a (hperm.mem_iff.1 ha) b (hperm.mem_iff.1 hb)

end StableSort
