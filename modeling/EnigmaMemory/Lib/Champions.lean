import Mathlib.Data.List.Nodup
import Mathlib.Data.List.Perm.Basic
import Mathlib.Data.List.Sort
import Mathlib.Tactic.Common

/-!
# The best entry for each key

Entries come one by one; for each key the table keeps the first of the best entries so far.

* `mem_champions`: what is kept is best among the entries with its key.
* `perm_champions`: entries that come in another order give the same views of what is kept, if the best
  entries of each key look alike.
* `filter_champions`: what is kept among those that are kept anyway.
* `sorted_champions`: sorted, they are equal.
* `alike_of_perm`: if they do not, some order shows it.
-/

namespace Champions

variable {α β κ : Type*} [DecidableEq κ] (key : α → κ) (better : α → α → Bool)

/-- The table after an entry: it takes the place of the one with its key if it is better. -/
def enter : List α → α → List α
  | [], x => [x]
  | y :: rest, x => if key y = key x then (if better x y then x else y) :: rest else y :: enter rest x

def champions (xs : List α) : List α := xs.foldl (enter key better) []

/-- Being better is a strict order in which entries that are not better than each other are exchangeable. -/
structure Preference (better : α → α → Bool) : Prop where
  asymm : ∀ a b, better a b = true → better b a = false
  trans : ∀ a b c, better a b = false → better b c = false → better a c = false

/-- Being better by a rank. -/
theorem preference_of_rank {ρ : Type*} [LinearOrder ρ] (rank : α → ρ) (h : ∀ a b, better a b = true ↔ rank a < rank b) :
    Preference better := by
  have hfalse : ∀ a b, better a b = false ↔ rank b ≤ rank a := fun a b => by
    rw [← not_lt, ← h, Bool.not_eq_true]
  refine ⟨fun a b hab => (hfalse b a).2 ((h a b).1 hab).le, fun a b c hab hbc => ?_⟩
  exact (hfalse a c).2 (((hfalse b c).1 hbc).trans ((hfalse a b).1 hab))

/-- No entry with the same key is better. -/
def Best (xs : List α) (c : α) : Prop := ∀ d ∈ xs, key d = key c → better d c = false

variable {key better} (hp : Preference better)
include hp

theorem Preference.irrefl (a : α) : better a a = false := by
  by_contra h
  rw [Bool.not_eq_false] at h
  have h' := hp.asymm a a h
  rw [h] at h'
  cases h'

omit hp in
theorem keys_enter (table : List α) (x : α) : (enter key better table x).map key =
    if key x ∈ table.map key then table.map key else table.map key ++ [key x] := by
  induction table with
  | nil => rfl
  | cons y rest ih =>
    rw [enter]
    by_cases hkey : key y = key x
    · have hmem : key x ∈ key y :: rest.map key := by
        rw [hkey]
        exact List.mem_cons_self
      rw [if_pos hkey, List.map_cons, List.map_cons, if_pos hmem]
      split
      · rw [hkey]
      · rfl
    · rw [if_neg hkey, List.map_cons, List.map_cons, ih]
      by_cases hmem : key x ∈ rest.map key
      · rw [if_pos hmem, if_pos (List.mem_cons_of_mem _ hmem)]
      · rw [if_neg hmem, if_neg (fun h => (List.mem_cons.1 h).elim (fun he => hkey he.symm) hmem), List.cons_append]

/-- What a table has to do with the entries it has seen. -/
structure Holds (key : α → κ) (better : α → α → Bool) (xs table : List α) : Prop where
  nodup : (table.map key).Nodup
  mem : ∀ c ∈ table, c ∈ xs
  best : ∀ c ∈ table, Best key better xs c
  all : ∀ x ∈ xs, key x ∈ table.map key

omit hp in
theorem mem_enter {table : List α} {x c : α} (h : c ∈ enter key better table x) : c = x ∨ c ∈ table := by
  induction table with
  | nil => exact .inl (List.mem_singleton.1 h)
  | cons y rest ih =>
    rw [enter] at h
    split at h
    · rcases List.mem_cons.1 h with h | h
      · split at h
        · exact .inl h
        · exact .inr (h ▸ List.mem_cons_self)
      · exact .inr (List.mem_cons_of_mem _ h)
    · rcases List.mem_cons.1 h with h | h
      · exact .inr (h ▸ List.mem_cons_self)
      · exact (ih h).imp id (List.mem_cons_of_mem _)

/-- An entry of the table is not worse than the new one with its key, and the new one is kept only if it is better than the
one before. -/
theorem best_enter {table : List α} (hnodup : (table.map key).Nodup) {x c : α} (h : c ∈ enter key better table x) :
    (key x = key c → better x c = false) ∧ (c ∈ table ∨ (c = x ∧ ∀ d ∈ table, key d = key x → better x d = true)) := by
  induction table with
  | nil =>
    rw [List.mem_singleton.1 h]
    exact ⟨fun _ => hp.irrefl x, .inr ⟨rfl, fun d hd => absurd hd List.not_mem_nil⟩⟩
  | cons y rest ih =>
    rw [List.map_cons, List.nodup_cons] at hnodup
    rw [enter] at h
    split at h
    · rename_i hkey
      rcases List.mem_cons.1 h with h | h
      · split at h
        · rename_i hbetter
          rw [h]
          refine ⟨fun _ => hp.irrefl x, .inr ⟨rfl, fun d hd hdkey => ?_⟩⟩
          rcases List.mem_cons.1 hd with rfl | hd
          · exact hbetter
          · exact absurd (List.mem_map.2 ⟨d, hd, hdkey.trans hkey.symm⟩) hnodup.1
        · rename_i hbetter
          rw [h]
          exact ⟨fun _ => eq_false_of_ne_true hbetter, .inl List.mem_cons_self⟩
      · refine ⟨fun hc => ?_, .inl (List.mem_cons_of_mem _ h)⟩
        exact absurd (List.mem_map.2 ⟨c, h, (hkey.trans hc).symm⟩) hnodup.1
    · rename_i hkey
      rcases List.mem_cons.1 h with rfl | h
      · exact ⟨fun hc => absurd hc.symm hkey, .inl List.mem_cons_self⟩
      · obtain ⟨hbest, hmem | ⟨hcx, hbeats⟩⟩ := ih hnodup.2 h
        · exact ⟨hbest, .inl (List.mem_cons_of_mem _ hmem)⟩
        · refine ⟨hbest, .inr ⟨hcx, fun d hd hdkey => ?_⟩⟩
          rcases List.mem_cons.1 hd with rfl | hd
          · exact absurd hdkey hkey
          · exact hbeats d hd hdkey

theorem Holds.enter {xs table : List α} (h : Holds key better xs table) (x : α) :
    Holds key better (xs ++ [x]) (enter key better table x) := by
  constructor
  · rw [keys_enter]
    split
    · exact h.nodup
    · rename_i hmem
      exact List.nodup_append.2 ⟨h.nodup, List.nodup_singleton _, fun a ha b hb hab =>
        hmem (by rw [← List.mem_singleton.1 hb, ← hab]; exact ha)⟩
  · intro c hc
    rcases mem_enter hc with rfl | hc
    · exact List.mem_append_right _ (List.mem_singleton_self _)
    · exact List.mem_append_left _ (h.mem c hc)
  · intro c hc d hd hkey
    obtain ⟨hx, hold⟩ := best_enter hp h.nodup hc
    rcases List.mem_append.1 hd with hd | hd
    · rcases hold with hold | ⟨hcx, hbeats⟩
      · exact h.best c hold d hd hkey
      · -- the entry that had the key was best before, and the new one is better
        rw [hcx] at hkey ⊢
        obtain ⟨e, he, hekey⟩ := List.mem_map.1 (h.all d hd)
        have hbeaten := hp.asymm _ _ (hbeats e he (hekey.trans hkey))
        exact hp.trans d e x (h.best e he d hd hekey.symm) hbeaten
    · rw [List.mem_singleton.1 hd] at hkey ⊢
      exact hx hkey
  · intro d hd
    rw [keys_enter]
    rcases List.mem_append.1 hd with hd | hd
    · split
      · exact h.all d hd
      · exact List.mem_append_left _ (h.all d hd)
    · rw [List.mem_singleton.1 hd]
      split
      · assumption
      · exact List.mem_append_right _ (List.mem_singleton_self _)

theorem holds_foldl (ys : List α) : ∀ {xs table : List α}, Holds key better xs table →
    Holds key better (xs ++ ys) (ys.foldl (Champions.enter key better) table) := by
  induction ys with
  | nil =>
    intro xs table h
    rwa [List.append_nil]
  | cons y ys ih =>
    intro xs table h
    have hrest := ih (h.enter hp y)
    rwa [List.append_assoc, List.singleton_append] at hrest

/-- **What is kept**: one entry for each key, and a best one. -/
theorem holds_champions (xs : List α) : Holds key better xs (champions key better xs) := by
  have hempty : Holds key better ([] : List α) [] :=
    ⟨List.nodup_nil, fun c hc => absurd hc List.not_mem_nil, fun c hc => absurd hc List.not_mem_nil,
      fun x hx => absurd hx List.not_mem_nil⟩
  have h := holds_foldl hp xs hempty
  rwa [List.nil_append] at h

/-- Entries that are kept anyway are kept among themselves. -/
theorem filter_champions {xs : List α} (p : α → Bool) (h : ∀ x ∈ xs, p x = true → x ∈ champions key better xs) :
    (champions key better (xs.filter p)).Perm ((champions key better xs).filter p) := by
  have hall : Holds key better xs (champions key better xs) := holds_champions hp xs
  have hsome : Holds key better (xs.filter p) (champions key better (xs.filter p)) := holds_champions hp _
  have hkept : ∀ c ∈ champions key better (xs.filter p), c ∈ (champions key better xs).filter p := by
    intro c hc
    obtain ⟨hmem, hpc⟩ := List.mem_filter.1 (hsome.mem c hc)
    exact List.mem_filter.2 ⟨h c hmem hpc, hpc⟩
  refine (List.perm_ext_iff_of_nodup (List.Nodup.of_map key hsome.nodup)
    ((List.Nodup.of_map key hall.nodup).filter p)).2 fun c => ⟨hkept c, fun hc => ?_⟩
  obtain ⟨hc, hpc⟩ := List.mem_filter.1 hc
  obtain ⟨d, hd, hkey⟩ := List.mem_map.1 (hsome.all c (List.mem_filter.2 ⟨hall.mem c hc, hpc⟩))
  have hdc : d = c := List.inj_on_of_nodup_map hall.nodup (List.mem_filter.1 (hkept d hd)).1 hc hkey
  exact hdc ▸ hd

omit hp in
/-- A best entry that comes first is kept. -/
theorem first_champion {x : α} {xs : List α} (h : Best key better (x :: xs) x) : x ∈ champions key better (x :: xs) := by
  have hkeep : ∀ ys table : List α, x ∈ table → (table.map key).Nodup → (∀ y ∈ ys, key y = key x → better y x = false) →
      x ∈ ys.foldl (enter key better) table := by
    intro ys
    induction ys with
    | nil => exact fun table hx _ _ => hx
    | cons y ys ih =>
      intro table hx hnodup hbest
      obtain ⟨hy, hys⟩ := List.forall_mem_cons.1 hbest
      have hnodup' : ((enter key better table y).map key).Nodup := by
        rw [keys_enter]
        split
        · exact hnodup
        · rename_i hmem
          exact List.nodup_append.2 ⟨hnodup, List.nodup_singleton _, fun a ha b hb hab =>
            hmem (by rw [← List.mem_singleton.1 hb, ← hab]; exact ha)⟩
      refine ih _ ?_ hnodup' hys
      clear ih hnodup'
      induction table with
      | nil => cases hx
      | cons z rest ihz =>
        rw [enter]
        rcases List.mem_cons.1 hx with rfl | hx
        · by_cases hkey : key x = key y
          · rw [if_pos hkey, hy hkey.symm]
            exact List.mem_cons_self
          · rw [if_neg hkey]
            exact List.mem_cons_self
        · split
          · exact List.mem_cons_of_mem _ hx
          · exact List.mem_cons_of_mem _ (ihz hx (List.nodup_cons.1 hnodup).2)
  exact hkeep xs [x] (List.mem_singleton_self _) (List.nodup_singleton _) (List.forall_mem_cons.1 h).2

omit [DecidableEq κ] hp in
theorem Best.perm {xs ys : List α} (hperm : xs.Perm ys) {c : α} (h : Best key better xs c) : Best key better ys c :=
  fun d hd => h d (hperm.mem_iff.2 hd)

/-- The best entries of a key look alike. -/
def Alike (key : α → κ) (better : α → α → Bool) (view : α → β) (xs : List α) : Prop :=
  ∀ a ∈ xs, ∀ b ∈ xs, key a = key b → Best key better xs a → Best key better xs b → view a = view b

variable {view : α → β}

theorem mem_map_champions {xs : List α} (halike : Alike key better view xs) {v : β} :
    v ∈ (champions key better xs).map view ↔ ∃ c ∈ xs, Best key better xs c ∧ view c = v := by
  have hholds : Holds key better xs (champions key better xs) := holds_champions hp xs
  rw [List.mem_map]
  constructor
  · rintro ⟨c, hc, rfl⟩
    exact ⟨c, hholds.mem c hc, hholds.best c hc, rfl⟩
  · rintro ⟨c, hc, hbest, rfl⟩
    obtain ⟨d, hd, hkey⟩ := List.mem_map.1 (hholds.all c hc)
    exact ⟨d, hd, halike d (hholds.mem d hd) c hc hkey (hholds.best d hd) hbest⟩

/-- **Any order** gives the same views, if the best entries of each key look alike. -/
theorem perm_champions (viewKey : β → κ) (hview : ∀ a, viewKey (view a) = key a) {xs ys : List α} (hperm : xs.Perm ys)
    (halike : Alike key better view xs) :
    ((champions key better xs).map view).Perm ((champions key better ys).map view) := by
  have hnodup : ∀ zs : List α, ((champions key better zs).map view).Nodup := by
    intro zs
    refine List.Nodup.of_map viewKey ?_
    rw [List.map_map, show viewKey ∘ view = key from funext hview]
    exact (holds_champions hp zs).nodup
  have halike' : Alike key better view ys := fun a ha b hb hkey hbest hbest' =>
    halike a (hperm.mem_iff.2 ha) b (hperm.mem_iff.2 hb) hkey (hbest.perm hperm.symm) (hbest'.perm hperm.symm)
  refine (List.perm_ext_iff_of_nodup (hnodup xs) (hnodup ys)).2 fun v => ?_
  rw [mem_map_champions hp halike, mem_map_champions hp halike']
  constructor
  · rintro ⟨c, hc, hbest, rfl⟩
    exact ⟨c, hperm.mem_iff.1 hc, hbest.perm hperm, rfl⟩
  · rintro ⟨c, hc, hbest, rfl⟩
    exact ⟨c, hperm.mem_iff.2 hc, hbest.perm hperm.symm, rfl⟩

/-- **Any order** gives the same sorted views, if views that tie in the order come from one key. -/
theorem sorted_champions (viewKey : β → κ) (hview : ∀ a, viewKey (view a) = key a) {xs ys : List α} (hperm : xs.Perm ys)
    (halike : Alike key better view xs) (le : β → β → Prop) [DecidableRel le] [Std.Total le] [IsTrans β le]
    (htie : ∀ v w, le v w → le w v → viewKey v = viewKey w) :
    ((champions key better xs).map view).insertionSort le = ((champions key better ys).map view).insertionSort le := by
  have hviews := perm_champions hp viewKey hview hperm halike
  refine List.Perm.eq_of_pairwise ?_ (List.pairwise_insertionSort le _) (List.pairwise_insertionSort le _)
    (((List.perm_insertionSort le _).trans hviews).trans (List.perm_insertionSort le _).symm)
  intro v w hv hw hvw hwv
  rw [List.mem_insertionSort] at hv hw
  obtain ⟨c, hc, rfl⟩ := List.mem_map.1 hv
  obtain ⟨d, hd, rfl⟩ := List.mem_map.1 (hviews.mem_iff.2 hw)
  have hkey := htie _ _ hvw hwv
  rw [hview, hview] at hkey
  have hnodup : ((champions key better xs).map key).Nodup := (holds_champions hp xs).nodup
  rw [List.inj_on_of_nodup_map hnodup hc hd hkey]

/-- **Some order tells** best entries of one key apart that do not look alike. -/
theorem alike_of_perm (viewKey : β → κ) (hview : ∀ a, viewKey (view a) = key a) {xs : List α}
    (h : ∀ ys, xs.Perm ys → ((champions key better xs).map view).Perm ((champions key better ys).map view)) :
    Alike key better view xs := by
  classical
  have hkept : ∀ a ∈ xs, Best key better xs a → view a ∈ (champions key better xs).map view := by
    intro a ha hbest
    have hperm := List.perm_cons_erase ha
    refine (h _ hperm).mem_iff.2 (List.mem_map_of_mem ?_)
    exact first_champion (hbest.perm hperm)
  intro a ha b hb hkey hbest hbest'
  obtain ⟨c, hc, hca⟩ := List.mem_map.1 (hkept a ha hbest)
  obtain ⟨d, hd, hdb⟩ := List.mem_map.1 (hkept b hb hbest')
  have hcd : c = d := by
    have hnodup : ((champions key better xs).map key).Nodup := (holds_champions hp xs).nodup
    refine List.inj_on_of_nodup_map hnodup hc hd ?_
    rw [← hview c, ← hview d, hca, hdb, hview, hview, hkey]
  rw [← hca, ← hdb, hcd]

end Champions
