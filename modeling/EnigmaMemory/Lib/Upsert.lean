import Mathlib.Data.List.Nodup
import Mathlib.Tactic.Common

/-!
# Tables with a primary key

A row gives a value to every column. `upsert` inserts a row, or, when a row with its key is there,
gives that row the new values of some columns (`INSERT … ON CONFLICT … DO UPDATE`).

* `rowsWith_upsert`: there is one row with the key afterwards, and which one.
* `rowsWithout_upsert`: the other rows are as they were.
* `stores_upsert_iff`: when that row has all the values of the inserted one.
-/

namespace Upsert

variable {κ ν : Type*}

/-- Rows of which no two have the same key. -/
structure Table (key : κ) (ν : Type*) where
  rows : List (κ → ν)
  unique : (rows.map (· key)).Nodup

variable [DecidableEq ν] {key : κ}

/-- The rows with a key. -/
def rowsWith (t : Table key ν) (k : ν) : List (κ → ν) := t.rows.filter (· key = k)

/-- The rows with another key. -/
def rowsWithout (t : Table key ν) (k : ν) : List (κ → ν) := t.rows.filter (· key ≠ k)

theorem mem_rowsWith {t : Table key ν} {k : ν} {row : κ → ν} : row ∈ rowsWith t k ↔ row ∈ t.rows ∧ row key = k := by
  rw [rowsWith, List.mem_filter, decide_eq_true_eq]

/-- There is at most one row with a key. -/
theorem rowsWith_eq {t : Table key ν} {k : ν} {row : κ → ν} (h : row ∈ rowsWith t k) : rowsWith t k = [row] := by
  have hnodup : (rowsWith t k).Nodup := (List.Nodup.of_map _ t.unique).filter _
  refine List.perm_singleton.1 ((List.perm_ext_iff_of_nodup hnodup (List.nodup_singleton _)).2 fun other => ?_)
  rw [List.mem_singleton]
  refine ⟨fun hother => ?_, fun heq => heq ▸ h⟩
  rw [mem_rowsWith] at h hother
  exact List.inj_on_of_nodup_map t.unique hother.1 h.1 (hother.2.trans h.2.symm)

variable [DecidableEq κ]

/-- A row that takes some columns from another. -/
def merge (updates : List κ) (old new : κ → ν) : κ → ν := fun c => if c ∈ updates then new c else old c

/-- A row with the key of `new` takes some columns from it. -/
def update (key : κ) (updates : List κ) (new row : κ → ν) : κ → ν := if row key = new key then merge updates row new else row

theorem update_key (updates : List κ) (new row : κ → ν) : update key updates new row key = row key := by
  unfold update
  split
  · rename_i h
    rw [merge]
    split
    · exact h.symm
    · rfl
  · rfl

theorem keys_map_update (updates : List κ) (new : κ → ν) (l : List (κ → ν)) :
    (l.map (update key updates new)).map (· key) = l.map (· key) := by
  rw [List.map_map]
  exact List.map_congr_left fun row _ => update_key updates new row

/-- The rows after an upsert. -/
def upsertRows (key : κ) (updates : List κ) (new : κ → ν) (rows : List (κ → ν)) : List (κ → ν) :=
  if new key ∈ rows.map (· key) then rows.map (update key updates new) else rows ++ [new]

def upsert (t : Table key ν) (updates : List κ) (new : κ → ν) : Table key ν where
  rows := upsertRows key updates new t.rows
  unique := by
    unfold upsertRows
    split
    · rw [keys_map_update]
      exact t.unique
    · rename_i hnew
      rw [List.map_append, List.nodup_append]
      refine ⟨t.unique, List.nodup_singleton _, ?_⟩
      intro k hk k' hk' heq
      rw [heq, List.mem_singleton.1 hk'] at hk
      exact hnew hk

theorem upsert_rows (t : Table key ν) (updates : List κ) (new : κ → ν) :
    (upsert t updates new).rows = upsertRows key updates new t.rows := rfl

theorem filter_map_update (p : ν → Bool) (updates : List κ) (new : κ → ν) (l : List (κ → ν)) :
    (l.map (update key updates new)).filter (fun row => p (row key)) = (l.filter fun row => p (row key)).map (update key updates new) := by
  rw [List.filter_map]
  congr 1
  refine List.filter_congr fun row _ => ?_
  rw [Function.comp_apply, update_key]

/-- **There is one row with the key afterwards**: the new one, or the one that was there, with the new
values of some columns. -/
theorem rowsWith_upsert (t : Table key ν) (updates : List κ) (new : κ → ν) :
    rowsWith (upsert t updates new) (new key) =
      match rowsWith t (new key) with
      | [] => [new]
      | row :: _ => [merge updates row new] := by
  by_cases hnew : new key ∈ t.rows.map (· key)
  · obtain ⟨row, hrow, hkey⟩ := List.mem_map.1 hnew
    rw [rowsWith_eq (mem_rowsWith.2 ⟨hrow, hkey⟩), rowsWith, upsert_rows, upsertRows, if_pos hnew, filter_map_update (fun k => decide (k = new key)),
      ← rowsWith, rowsWith_eq (mem_rowsWith.2 ⟨hrow, hkey⟩), List.map_singleton, update, if_pos hkey]
  · have hnone : rowsWith t (new key) = [] := by
      rw [rowsWith, List.filter_eq_nil_iff]
      intro row hrow hkey
      exact hnew (List.mem_map.2 ⟨row, hrow, of_decide_eq_true hkey⟩)
    rw [hnone, rowsWith, upsert_rows, upsertRows, if_neg hnew, List.filter_append, ← rowsWith, hnone]
    simp

/-- **The other rows are as they were.** -/
theorem rowsWithout_upsert (t : Table key ν) (updates : List κ) (new : κ → ν) :
    rowsWithout (upsert t updates new) (new key) = rowsWithout t (new key) := by
  rw [rowsWithout, upsert_rows, upsertRows]
  split
  · rw [filter_map_update (fun k => decide (k ≠ new key)), List.map_congr_left (g := id), List.map_id, rowsWithout]
    intro row hrow
    rw [update, if_neg (of_decide_eq_true (List.mem_filter.1 hrow).2), id]
  · rw [List.filter_append, rowsWithout]
    simp

/-- There is one row with the key, it has the values of `new` in the given columns, and the other rows
are those of `t`. -/
structure Stores (t t' : Table key ν) (columns : List κ) (new : κ → ν) : Prop where
  stored : ∃ row, rowsWith t' (new key) = [row] ∧ ∀ c ∈ columns, row c = new c
  others : rowsWithout t' (new key) = rowsWithout t (new key)

/-- **When an upsert stores what it is given**: the row that was there agrees on the columns that are
not updated. -/
theorem stores_upsert_iff (t : Table key ν) (columns updates : List κ) (new : κ → ν) :
    Stores t (upsert t updates new) columns new ↔
      ∀ row ∈ t.rows, row key = new key → ∀ c ∈ columns, c ∉ updates → row c = new c := by
  have hstored : Stores t (upsert t updates new) columns new ↔
      ∃ row, rowsWith (upsert t updates new) (new key) = [row] ∧ ∀ c ∈ columns, row c = new c :=
    ⟨Stores.stored, fun h => ⟨h, rowsWithout_upsert t updates new⟩⟩
  rw [hstored, rowsWith_upsert]
  cases hrows : rowsWith t (new key) with
  | nil =>
    refine iff_of_true ⟨new, rfl, fun _ _ => rfl⟩ ?_
    intro row hrow hkey
    exact absurd (mem_rowsWith.2 ⟨hrow, hkey⟩) (by rw [hrows]; exact List.not_mem_nil)
  | cons old rest =>
    have hold : old ∈ t.rows ∧ old key = new key := mem_rowsWith.1 (hrows ▸ List.mem_cons_self)
    constructor
    · rintro ⟨_, ⟨⟩, hvalues⟩ row hrow hkey c hc hupdates
      obtain rfl : row = old := List.inj_on_of_nodup_map t.unique hrow hold.1 (hkey.trans hold.2.symm)
      have hvalue := hvalues c hc
      rwa [merge, if_neg hupdates] at hvalue
    · intro h
      refine ⟨_, rfl, fun c hc => ?_⟩
      rw [merge]
      split
      · rfl
      · rename_i hupdates
        exact h old hold.1 hold.2 c hc hupdates

end Upsert
