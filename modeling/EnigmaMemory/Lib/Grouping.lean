import Mathlib.Algebra.BigOperators.Group.List.Basic
import Mathlib.Algebra.BigOperators.Group.Multiset.Basic
import Mathlib.Data.List.Induction
import Mathlib.Data.List.Nodup
import Mathlib.Tactic.Common

/-!
# Grouping by a key

A loop that keeps a table with one value for each key: the first entry with a key opens its value, and every entry
with the key is added to it.

* `groups_eq`: the values of the table are those of the entries with the key, in the order of the first entries.
* `sum_groups`: sums over the groups add up to the sum over all entries.
* `perm_groups`: the groups hold the entries.
* `two_le_withKey_iff`: the group of an entry holds two when there is another entry with the key.
-/

namespace Grouping

variable {α κ ν M : Type*} [DecidableEq κ] (key : α → κ) (start : α → ν) (step : ν → α → ν)

/-- An entry is added to the table. -/
def enter : List (κ × ν) → α → List (κ × ν)
  | [], a => [(key a, step (start a) a)]
  | (k, v) :: rest, a => if k = key a then (k, step v a) :: rest else (k, v) :: enter rest a

def groups (xs : List α) : List (κ × ν) := xs.foldl (enter key start step) []

/-- The first entry with each key. -/
def firsts (xs : List α) : List α := xs.foldl (fun fs a => if key a ∈ fs.map key then fs else fs ++ [a]) []

/-- The entries with a key. -/
def withKey (xs : List α) (k : κ) : List α := xs.filter (key · = k)

theorem firsts_snoc (xs : List α) (a : α) :
    firsts key (xs ++ [a]) = if key a ∈ (firsts key xs).map key then firsts key xs else firsts key xs ++ [a] :=
  List.foldl_concat _ _ _ _

theorem withKey_snoc (xs : List α) (a : α) (k : κ) :
    withKey key (xs ++ [a]) k = withKey key xs k ++ if key a = k then [a] else [] := by
  rw [withKey, List.filter_append, List.filter_cons, List.filter_nil]
  simp only [withKey, decide_eq_true_eq]

/-- The first entries have all the keys. -/
theorem mem_keys_firsts (xs : List α) (k : κ) : k ∈ (firsts key xs).map key ↔ k ∈ xs.map key := by
  induction xs using List.reverseRecOn with
  | nil => rfl
  | append_singleton xs a ih =>
    rw [firsts_snoc, List.map_append, List.mem_append, ← ih, List.map_singleton, List.mem_singleton]
    split
    · rename_i ha
      exact ⟨Or.inl, fun h => h.elim id fun hk => hk ▸ ha⟩
    · rw [List.map_append, List.mem_append, List.map_singleton, List.mem_singleton]

/-- The first entries are entries. -/
theorem firsts_sublist (xs : List α) : (firsts key xs).Sublist xs := by
  induction xs using List.reverseRecOn with
  | nil => exact .slnil
  | append_singleton xs a ih =>
    rw [firsts_snoc]
    split
    · exact ih.trans (List.sublist_append_left xs [a])
    · exact ih.append_right [a]

/-- Entries with different keys are all first. -/
theorem firsts_of_nodup {xs : List α} : (xs.map key).Nodup → firsts key xs = xs := by
  induction xs using List.reverseRecOn with
  | nil => exact fun _ => rfl
  | append_singleton xs a ih =>
    intro h
    rw [List.map_append, List.map_singleton, List.nodup_append] at h
    rw [firsts_snoc, ih h.1, if_neg fun ha => h.2.2 _ ha _ (List.mem_singleton_self _) rfl]

/-- **There is one first entry for each key.** -/
theorem nodup_firsts (xs : List α) : ((firsts key xs).map key).Nodup := by
  induction xs using List.reverseRecOn with
  | nil => exact List.nodup_nil
  | append_singleton xs a ih =>
    rw [firsts_snoc]
    split
    · exact ih
    · rename_i ha
      rw [List.map_append, List.map_singleton]
      refine List.nodup_append.2 ⟨ih, List.nodup_singleton _, fun k hk k' hk' he => ha ?_⟩
      rw [← List.mem_singleton.1 hk', ← he]
      exact hk

/-- An entry is added to a table that has one value for each of some entries. -/
theorem enter_map (F : α → ν) (fs : List α) (hnodup : (fs.map key).Nodup) (a : α) :
    enter key start step (fs.map fun b => (key b, F b)) a =
      if key a ∈ fs.map key then fs.map fun b => (key b, if key b = key a then step (F b) a else F b)
      else (fs.map fun b => (key b, F b)) ++ [(key a, step (start a) a)] := by
  induction fs with
  | nil => rfl
  | cons b fs ih =>
    rw [List.map_cons, List.nodup_cons] at hnodup
    rw [List.map_cons, enter]
    by_cases hb : key b = key a
    · have hrest : ∀ c ∈ fs, key c ≠ key a := fun c hc he => hnodup.1 (hb ▸ he ▸ List.mem_map_of_mem hc)
      rw [if_pos hb, if_pos (by rw [List.map_cons, hb]; exact List.mem_cons_self), List.map_cons, if_pos hb]
      refine congrArg _ (List.map_congr_left fun c hc => ?_)
      rw [if_neg (hrest c hc)]
    · have hmem : key a ∈ (b :: fs).map key ↔ key a ∈ fs.map key := by
        rw [List.map_cons, List.mem_cons]
        exact or_iff_right (Ne.symm hb)
      rw [if_neg hb, ih hnodup.2]
      simp only [hmem]
      split
      · rw [List.map_cons, if_neg hb]
      · rfl

/-- **The table**: the value of a key is that of the entries with it, added to the one that its first entry opens. -/
theorem groups_eq (xs : List α) : groups key start step xs =
    (firsts key xs).map fun a => (key a, (withKey key xs (key a)).foldl step (start a)) := by
  induction xs using List.reverseRecOn with
  | nil => rfl
  | append_singleton xs a ih =>
    have hgroups : groups key start step (xs ++ [a]) = enter key start step (groups key start step xs) a :=
      List.foldl_concat _ _ _ _
    rw [hgroups, ih, enter_map key start step _ _ (nodup_firsts key xs) a, firsts_snoc]
    split
    · refine List.map_congr_left fun b _ => ?_
      rw [withKey_snoc]
      by_cases hb : key b = key a
      · rw [if_pos hb, if_pos hb.symm, List.foldl_concat]
      · rw [if_neg hb, if_neg (Ne.symm hb), List.append_nil]
    · rename_i hnew
      have hnone : withKey key xs (key a) = [] := by
        refine List.filter_eq_nil_iff.2 fun b hb he => hnew ((mem_keys_firsts key xs _).2 ?_)
        exact (of_decide_eq_true he) ▸ List.mem_map_of_mem hb
      rw [List.map_append, List.map_singleton, withKey_snoc, hnone, if_pos rfl]
      refine congrArg (· ++ _) (List.map_congr_left fun b hb => ?_)
      have hb' : key a ≠ key b := fun he => hnew (he ▸ List.mem_map_of_mem hb)
      rw [withKey_snoc, if_neg hb', List.append_nil]

/-- A value at one of some keys is their sum. -/
theorem sum_single [AddCommMonoid M] (m : M) {k : κ} : ∀ {ks : List κ}, ks.Nodup → k ∈ ks →
    (ks.map fun x => if x = k then m else 0).sum = m
  | [], _, h => absurd h List.not_mem_nil
  | x :: ks, hnodup, h => by
    rw [List.nodup_cons] at hnodup
    rw [List.map_cons, List.sum_cons]
    by_cases hx : x = k
    · have hrest : ∀ y ∈ ks.map fun x => if x = k then m else 0, y = 0 := by
        intro y hy
        obtain ⟨z, hz, rfl⟩ := List.mem_map.1 hy
        exact if_neg fun he : z = k => hnodup.1 (hx ▸ he ▸ hz)
      rw [if_pos hx, List.sum_eq_zero hrest, add_zero]
    · rw [if_neg hx, zero_add]
      exact sum_single m hnodup.2 ((List.mem_cons.1 h).resolve_left (Ne.symm hx))

/-- Sums over the entries with each of some keys, when these are all the keys. -/
theorem sum_withKey [AddCommMonoid M] (w : α → M) (ks : List κ) (hks : ks.Nodup) :
    ∀ xs : List α, (∀ a ∈ xs, key a ∈ ks) → (ks.map fun k => ((withKey key xs k).map w).sum).sum = (xs.map w).sum := by
  intro xs
  induction xs with
  | nil => simp [withKey]
  | cons a xs ih =>
    intro hall
    have hsplit : ∀ k, ((withKey key (a :: xs) k).map w).sum = (if k = key a then w a else 0) + ((withKey key xs k).map w).sum := by
      intro k
      rw [withKey, List.filter_cons]
      by_cases hk : k = key a
      · rw [if_pos (decide_eq_true hk.symm), if_pos hk, List.map_cons, List.sum_cons]
        rfl
      · rw [if_neg (by simpa using Ne.symm hk), if_neg hk, zero_add]
        rfl
    have hone : (ks.map fun k => if k = key a then w a else 0).sum = w a :=
      sum_single (w a) hks (hall a List.mem_cons_self)
    simp only [hsplit]
    rw [List.sum_map_add, hone, ih fun b hb => hall b (List.mem_cons_of_mem _ hb), List.map_cons, List.sum_cons]

/-- **Sums over the groups add up.** -/
theorem sum_groups [AddCommMonoid M] (w : α → M) (xs : List α) :
    ((firsts key xs).map fun a => ((withKey key xs (key a)).map w).sum).sum = (xs.map w).sum := by
  have hkeys := sum_withKey key w ((firsts key xs).map key) (nodup_firsts key xs) xs
    fun a ha => (mem_keys_firsts key xs _).2 (List.mem_map_of_mem ha)
  rwa [List.map_map] at hkeys

/-- **The groups hold the entries.** -/
theorem perm_groups (xs : List α) : ((firsts key xs).flatMap fun a => withKey key xs (key a)).Perm xs := by
  have hentries : ∀ ys : List α, (ys.map fun a => ({a} : Multiset α)).sum = ↑ys := by
    intro ys
    induction ys with
    | nil => rfl
    | cons y ys ih => rw [List.map_cons, List.sum_cons, ih, Multiset.singleton_add, Multiset.cons_coe]
  have hsum := sum_groups key (fun a => ({a} : Multiset α)) xs
  simp only [hentries] at hsum
  have hflat : ∀ ys : List α, ((ys.flatMap fun a => withKey key xs (key a) : List α) : Multiset α) =
      (ys.map fun a => ((withKey key xs (key a) : List α) : Multiset α)).sum := by
    intro ys
    induction ys with
    | nil => rfl
    | cons y ys ih => rw [List.flatMap_cons, ← Multiset.coe_add, ih, List.map_cons, List.sum_cons]
  exact Multiset.coe_eq_coe.1 ((hflat _).trans hsum)

/-- The entries of the groups of two or more are those whose key stands twice. -/
theorem perm_repeated (xs : List α) :
    (((firsts key xs).filter fun a => decide (2 ≤ (withKey key xs (key a)).length)).flatMap fun a => withKey key xs (key a)).Perm
      (xs.filter fun a => decide (2 ≤ (withKey key xs (key a)).length)) := by
  have hgroup : ∀ ys : List α, ((ys.filter fun a => decide (2 ≤ (withKey key xs (key a)).length)).flatMap fun a => withKey key xs (key a)) =
      (ys.flatMap fun a => withKey key xs (key a)).filter fun a => decide (2 ≤ (withKey key xs (key a)).length) := by
    intro ys
    induction ys with
    | nil => rfl
    | cons y ys ih =>
      rw [List.flatMap_cons, List.filter_append, ← ih]
      -- the entries of one group have one key
      have hkey : ∀ a ∈ withKey key xs (key y), key a = key y := fun a ha => of_decide_eq_true (List.mem_filter.1 ha).2
      by_cases hy : 2 ≤ (withKey key xs (key y)).length
      · have hall : ∀ a ∈ withKey key xs (key y), decide (2 ≤ (withKey key xs (key a)).length) = true := fun a ha => by
          rw [hkey a ha]
          exact decide_eq_true hy
        rw [List.filter_cons, if_pos (decide_eq_true hy), List.flatMap_cons, List.filter_eq_self.2 hall]
      · have hnone : ∀ a ∈ withKey key xs (key y), ¬ decide (2 ≤ (withKey key xs (key a)).length) = true := fun a ha => by
          rw [hkey a ha]
          simpa using hy
        rw [List.filter_cons, if_neg (by simpa using hy), List.filter_eq_nil_iff.2 hnone, List.nil_append]
  rw [hgroup]
  exact (perm_groups key xs).filter _

/-- **An entry is not alone in its group** when another one has its key. -/
theorem two_le_withKey_iff {xs : List α} {i : ℕ} {a : α} (h : xs[i]? = some a) :
    2 ≤ (withKey key xs (key a)).length ↔ ∃ j b, j ≠ i ∧ xs[j]? = some b ∧ key b = key a := by
  obtain ⟨hi, rfl⟩ := List.getElem?_eq_some_iff.1 h
  have hsplit : xs = xs.take i ++ xs[i] :: xs.drop (i + 1) := by rw [List.getElem_cons_drop, List.take_append_drop]
  have hlength : (withKey key xs (key xs[i])).length =
      (withKey key (xs.take i) (key xs[i])).length + 1 + (withKey key (xs.drop (i + 1)) (key xs[i])).length := by
    refine (congrArg (fun ys => (withKey key ys (key xs[i])).length) hsplit).trans ?_
    simp only [withKey]
    rw [List.filter_append, List.filter_cons, if_pos (decide_eq_true rfl), List.length_append, List.length_cons]
    omega
  have hpos : ∀ ys : List α, 0 < (withKey key ys (key xs[i])).length ↔ ∃ b ∈ ys, key b = key xs[i] := by
    intro ys
    rw [List.length_pos_iff_exists_mem]
    simp [withKey]
  rw [hlength]
  constructor
  · intro hmore
    rcases Nat.eq_zero_or_pos (withKey key (xs.take i) (key xs[i])).length with hzero | hbefore
    · obtain ⟨b, hb, hkey⟩ := (hpos (xs.drop (i + 1))).1 (by omega)
      obtain ⟨j, hj, rfl⟩ := List.mem_iff_getElem.1 hb
      rw [List.length_drop] at hj
      exact ⟨i + 1 + j, _, by omega, by rw [List.getElem_drop, List.getElem?_eq_getElem], hkey⟩
    · obtain ⟨b, hb, hkey⟩ := (hpos _).1 hbefore
      obtain ⟨j, hj, rfl⟩ := List.mem_iff_getElem.1 hb
      rw [List.length_take] at hj
      exact ⟨j, _, by omega, by rw [List.getElem_take, List.getElem?_eq_getElem], hkey⟩
  · rintro ⟨j, b, hne, hj, hkey⟩
    obtain ⟨hlt, rfl⟩ := List.getElem?_eq_some_iff.1 hj
    rcases Nat.lt_or_gt_of_ne hne with hbefore | hafter
    · have hmem : xs[j] ∈ xs.take i := List.mem_take_iff_getElem.2 ⟨j, by omega, rfl⟩
      have hone := (hpos _).2 ⟨_, hmem, hkey⟩
      omega
    · have hmem : xs[j] ∈ xs.drop (i + 1) := List.mem_drop_iff_getElem.2 ⟨j - (i + 1), by omega, by congr 1; omega⟩
      have hone := (hpos _).2 ⟨_, hmem, hkey⟩
      omega

end Grouping
