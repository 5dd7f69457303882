import Mathlib.Algebra.GroupWithZero.Nat
import Mathlib.Data.List.Nodup
import Mathlib.Data.List.Perm.Basic
import Mathlib.Data.List.Sort
import Mathlib.Tactic.Common

/-!
# Insertion-ordered sets and maps

The collections of a language whose sets and maps iterate in insertion order:
adding a present element changes nothing, setting a present key replaces its value
where it stands, and a new element or key goes last. Both carry the proof that
nothing is listed twice.

Results about them are stated through membership (`mem_add`, `mem_delete`) and
lookup (`get_set`, `get_delete`); `sort_congr` is the one place where the order is
forgotten: sets with the same elements sort to the same list.
-/

/-! ## Sets -/

structure OrdSet (α : Type*) where
  elems : List α
  nodup : elems.Nodup

namespace OrdSet

variable {α : Type*} [DecidableEq α]

instance : Membership α (OrdSet α) := ⟨fun s a => a ∈ s.elems⟩

omit [DecidableEq α] in
theorem mem_def {s : OrdSet α} {a : α} : a ∈ s ↔ a ∈ s.elems := Iff.rfl

instance (a : α) (s : OrdSet α) : Decidable (a ∈ s) := inferInstanceAs (Decidable (a ∈ s.elems))

def empty : OrdSet α := ⟨[], List.nodup_nil⟩

def has (s : OrdSet α) (a : α) : Bool := decide (a ∈ s)

def add (s : OrdSet α) (a : α) : OrdSet α :=
  if h : a ∈ s.elems then s
  else ⟨s.elems ++ [a], by
    rw [List.nodup_append]
    exact ⟨s.nodup, List.nodup_singleton a, by rintro x hx y hy rfl; simp at hy; exact h (hy ▸ hx)⟩⟩

def delete (s : OrdSet α) (a : α) : OrdSet α := ⟨s.elems.filter (· ≠ a), s.nodup.filter _⟩

def ofList (l : List α) : OrdSet α := l.foldl add empty

def size (s : OrdSet α) : ℕ := s.elems.length

omit [DecidableEq α] in
@[simp] theorem not_mem_empty (a : α) : a ∉ (empty : OrdSet α) := List.not_mem_nil

@[simp] theorem has_iff {s : OrdSet α} {a : α} : s.has a = true ↔ a ∈ s := by simp [has]

@[simp] theorem has_eq_false {s : OrdSet α} {a : α} : s.has a = false ↔ a ∉ s := by simp [has]

@[simp] theorem mem_add {s : OrdSet α} {a b : α} : b ∈ s.add a ↔ b = a ∨ b ∈ s := by
  unfold add
  split
  · constructor
    · exact Or.inr
    · rintro (rfl | h)
      · assumption
      · exact h
  · simp [mem_def, or_comm]

@[simp] theorem mem_delete {s : OrdSet α} {a b : α} : b ∈ s.delete a ↔ b ≠ a ∧ b ∈ s := by
  simp [delete, mem_def, and_comm]

theorem mem_foldl_add {l : List α} {b : α} : ∀ s : OrdSet α, b ∈ l.foldl add s ↔ b ∈ l ∨ b ∈ s := by
  induction l with
  | nil => intro s; simp
  | cons a l ih =>
    intro s
    rw [List.foldl_cons, ih, mem_add, List.mem_cons]
    tauto

@[simp] theorem mem_ofList {l : List α} {b : α} : b ∈ ofList l ↔ b ∈ l := by
  simp [ofList, mem_foldl_add]

omit [DecidableEq α] in
/-- **Sets with the same elements sort to the same list.** -/
theorem sort_congr [LinearOrder α] {s t : OrdSet α} (h : ∀ a, a ∈ s ↔ a ∈ t) :
    s.elems.insertionSort (· ≤ ·) = t.elems.insertionSort (· ≤ ·) := by
  have hp : s.elems.Perm t.elems := (List.perm_ext_iff_of_nodup s.nodup t.nodup).2 h
  have hp' := ((List.perm_insertionSort (· ≤ ·) s.elems).trans hp).trans
    (List.perm_insertionSort (· ≤ ·) t.elems).symm
  exact hp'.eq_of_pairwise' (List.pairwise_insertionSort _ _) (List.pairwise_insertionSort _ _)

omit [DecidableEq α] in
/-- The sorted elements are strictly increasing. -/
theorem sorted_lt [LinearOrder α] (s : OrdSet α) :
    (s.elems.insertionSort (· ≤ ·)).Pairwise (· < ·) := by
  have hn : (s.elems.insertionSort (· ≤ ·)).Nodup :=
    (List.perm_insertionSort (· ≤ ·) s.elems).nodup_iff.2 s.nodup
  exact ((List.pairwise_insertionSort (· ≤ ·) s.elems).and hn).imp fun ⟨h1, h2⟩ => lt_of_le_of_ne h1 h2

end OrdSet

/-! ## Maps -/

structure OrdMap (κ ν : Type*) where
  entries : List (κ × ν)
  nodup : (entries.map Prod.fst).Nodup

namespace OrdMap

variable {κ ν : Type*} [DecidableEq κ]

def empty : OrdMap κ ν := ⟨[], List.nodup_nil⟩

def get (m : OrdMap κ ν) (k : κ) : Option ν := m.entries.lookup k

def has (m : OrdMap κ ν) (k : κ) : Bool := (m.get k).isSome

def keys (m : OrdMap κ ν) : List κ := m.entries.map Prod.fst

def values (m : OrdMap κ ν) : List ν := m.entries.map Prod.snd

def size (m : OrdMap κ ν) : ℕ := m.entries.length

/-- Replace the value of a key where it stands, or append it. -/
def setEntries (k : κ) (v : ν) : List (κ × ν) → List (κ × ν)
  | [] => [(k, v)]
  | e :: rest => if e.1 = k then (k, v) :: rest else e :: setEntries k v rest

theorem mem_keys_setEntries {k x : κ} {v : ν} (l : List (κ × ν)) :
    x ∈ (setEntries k v l).map Prod.fst ↔ x = k ∨ x ∈ l.map Prod.fst := by
  induction l with
  | nil => simp [setEntries]
  | cons e rest ih =>
    rw [setEntries]
    split
    · rename_i he; simp [he]
    · simp only [List.map_cons, List.mem_cons, ih]; tauto

theorem nodup_setEntries {k : κ} {v : ν} {l : List (κ × ν)} (h : (l.map Prod.fst).Nodup) :
    ((setEntries k v l).map Prod.fst).Nodup := by
  induction l with
  | nil => simp [setEntries]
  | cons e rest ih =>
    rw [List.map_cons, List.nodup_cons] at h
    rw [setEntries]
    split
    · rename_i he; rw [List.map_cons, List.nodup_cons]; exact ⟨he ▸ h.1, h.2⟩
    · rename_i he
      rw [List.map_cons, List.nodup_cons, mem_keys_setEntries]
      exact ⟨by rintro (h1 | h1); exacts [he h1, h.1 h1], ih h.2⟩

def set (m : OrdMap κ ν) (k : κ) (v : ν) : OrdMap κ ν := ⟨setEntries k v m.entries, nodup_setEntries m.nodup⟩

def delete (m : OrdMap κ ν) (k : κ) : OrdMap κ ν :=
  ⟨m.entries.filter (·.1 ≠ k), (m.nodup.filter (· ≠ k)).sublist (by rw [List.filter_map]; exact List.Sublist.refl _)⟩

/-- Rewrite the value of every key. -/
def mapValues {ν' : Type*} (f : κ → ν → ν') (m : OrdMap κ ν) : OrdMap κ ν' :=
  ⟨m.entries.map fun e => (e.1, f e.1 e.2), by
    rw [List.map_map]; exact m.nodup⟩

@[simp] theorem get_empty (k : κ) : (empty : OrdMap κ ν).get k = none := rfl

theorem lookup_cons_eq (a x : κ) (b : ν) (l : List (κ × ν)) :
    ((a, b) :: l).lookup x = if x = a then some b else l.lookup x := by
  by_cases hx : x = a
  · subst hx; simp
  · rw [List.lookup_cons, beq_false_of_ne hx, if_neg hx]

theorem lookup_setEntries {k x : κ} {v : ν} (l : List (κ × ν)) :
    (setEntries k v l).lookup x = if x = k then some v else l.lookup x := by
  induction l with
  | nil => rw [setEntries, lookup_cons_eq]
  | cons e rest ih =>
    obtain ⟨a, b⟩ := e
    rw [setEntries]
    split
    · rename_i he
      simp only at he; subst he
      simp only [lookup_cons_eq]
      split <;> rfl
    · rename_i he
      simp only [lookup_cons_eq, ih]
      by_cases hx : x = a
      · subst hx; rw [if_pos rfl, if_pos rfl, if_neg he]
      · rw [if_neg hx, if_neg hx]

@[simp] theorem get_set {m : OrdMap κ ν} {k x : κ} {v : ν} :
    (m.set k v).get x = if x = k then some v else m.get x := lookup_setEntries m.entries

/-- Setting a key changes a map unless the key has that value. -/
theorem set_eq_self_iff {m : OrdMap κ ν} {k : κ} {v : ν} : m.set k v = m ↔ m.get k = some v := by
  constructor
  · intro h
    rw [← h, get_set, if_pos rfl]
  · intro h
    have key : ∀ l : List (κ × ν), l.lookup k = some v → setEntries k v l = l := by
      intro l
      induction l with
      | nil => intro h; cases h
      | cons e rest ih =>
        obtain ⟨k', v'⟩ := e
        intro h
        rw [lookup_cons_eq] at h
        rw [setEntries]
        by_cases hk : k = k'
        · rw [if_pos hk] at h
          rw [if_pos hk.symm, hk, ← Option.some.inj h]
        · rw [if_neg hk] at h
          rw [if_neg (Ne.symm hk), ih h]
    obtain ⟨entries, nodup⟩ := m
    simp only [set, mk.injEq]
    exact key entries h

theorem setEntries_setEntries {k : κ} {v w : ν} (l : List (κ × ν)) :
    setEntries k w (setEntries k v l) = setEntries k w l := by
  induction l with
  | nil => simp [setEntries]
  | cons e rest ih =>
    by_cases he : e.1 = k
    · simp [setEntries, he]
    · simp [setEntries, he, ih]

@[simp] theorem set_set {m : OrdMap κ ν} {k : κ} {v w : ν} : (m.set k v).set k w = m.set k w := by
  simp only [set, setEntries_setEntries]

theorem lookup_filter_ne {k x : κ} (l : List (κ × ν)) :
    (l.filter (·.1 ≠ k)).lookup x = if x = k then none else l.lookup x := by
  induction l with
  | nil => simp
  | cons e rest ih =>
    obtain ⟨a, b⟩ := e
    by_cases ha : a = k
    · rw [List.filter_cons_of_neg (by simpa using ha), ih, lookup_cons_eq, ha]
      split <;> rfl
    · rw [List.filter_cons_of_pos (by simpa using ha), lookup_cons_eq, lookup_cons_eq, ih]
      by_cases hx : x = a
      · rw [if_pos hx, if_neg (fun h => ha (hx.symm.trans h)), if_pos hx]
      · rw [if_neg hx, if_neg hx]

@[simp] theorem get_delete {m : OrdMap κ ν} {k x : κ} :
    (m.delete k).get x = if x = k then none else m.get x := lookup_filter_ne m.entries

theorem lookup_map {ν' : Type*} {k : κ} (f : κ → ν → ν') (l : List (κ × ν)) :
    (l.map fun e => (e.1, f e.1 e.2)).lookup k = (l.lookup k).map (f k) := by
  induction l with
  | nil => rfl
  | cons e rest ih =>
    obtain ⟨a, b⟩ := e
    rw [List.map_cons, lookup_cons_eq, lookup_cons_eq, ih]
    by_cases hk : k = a
    · subst hk; rw [if_pos rfl, if_pos rfl]; rfl
    · rw [if_neg hk, if_neg hk]

@[simp] theorem get_mapValues {ν' : Type*} {m : OrdMap κ ν} (f : κ → ν → ν') {k : κ} :
    (m.mapValues f).get k = (m.get k).map (f k) := lookup_map f m.entries

theorem has_eq_true {m : OrdMap κ ν} {k : κ} : m.has k = true ↔ ∃ v, m.get k = some v := by
  rw [has, Option.isSome_iff_exists]

theorem has_eq_false {m : OrdMap κ ν} {k : κ} : m.has k = false ↔ m.get k = none := by
  cases h : m.get k <;> simp [has, h]

@[simp] theorem has_set {m : OrdMap κ ν} {k x : κ} {v : ν} : (m.set k v).has x = (decide (x = k) || m.has x) := by
  by_cases hx : x = k <;> simp [has, hx]

theorem get_eq_some_iff {m : OrdMap κ ν} {k : κ} {v : ν} : m.get k = some v ↔ (k, v) ∈ m.entries := by
  obtain ⟨l, hl⟩ := m
  simp only [get]
  induction l with
  | nil => simp
  | cons e rest ih =>
    obtain ⟨a, b⟩ := e
    rw [List.map_cons, List.nodup_cons] at hl
    by_cases hk : k = a
    · subst hk
      have hnot : (k, v) ∉ rest := fun h => hl.1 (List.mem_map.2 ⟨(k, v), h, rfl⟩)
      simp [hnot, eq_comm]
    · simp [lookup_cons_eq, hk, ih hl.2]

omit [DecidableEq κ] in
theorem nodup_keys (m : OrdMap κ ν) : m.keys.Nodup := m.nodup

theorem mem_keys {m : OrdMap κ ν} {k : κ} : k ∈ m.keys ↔ m.has k = true := by
  rw [has_eq_true, keys, List.mem_map]
  constructor
  · rintro ⟨⟨a, v⟩, h, rfl⟩; exact ⟨v, get_eq_some_iff.2 h⟩
  · rintro ⟨v, h⟩; exact ⟨(k, v), get_eq_some_iff.1 h, rfl⟩

theorem get_foldl_set_of_notMem {α : Type*} {key : α → κ} {val : α → ν} {l : List α} {k : κ} (h : k ∉ l.map key) :
    ∀ m : OrdMap κ ν, (l.foldl (fun m x => m.set (key x) (val x)) m).get k = m.get k := by
  induction l with
  | nil => intro m; rfl
  | cons x l ih =>
    intro m
    rw [List.map_cons, List.mem_cons, not_or] at h
    rw [List.foldl_cons, ih h.2, get_set, if_neg h.1]

theorem get_foldl_set_of_mem {α : Type*} {key : α → κ} {val : α → ν} {l : List α} (hn : (l.map key).Nodup) {x : α}
    (hx : x ∈ l) : ∀ m : OrdMap κ ν, (l.foldl (fun m x => m.set (key x) (val x)) m).get (key x) = some (val x) := by
  induction l with
  | nil => cases hx
  | cons y l ih =>
    intro m
    rw [List.map_cons, List.nodup_cons] at hn
    rw [List.foldl_cons]
    rcases List.mem_cons.1 hx with rfl | hx
    · rw [get_foldl_set_of_notMem hn.1, get_set, if_pos rfl]
    · exact ih hn.2 hx _

theorem mem_values {m : OrdMap κ ν} {v : ν} : v ∈ m.values ↔ ∃ k, m.get k = some v := by
  rw [values, List.mem_map]
  constructor
  · rintro ⟨⟨k, v⟩, h, rfl⟩; exact ⟨k, get_eq_some_iff.2 h⟩
  · rintro ⟨k, h⟩; exact ⟨(k, v), get_eq_some_iff.1 h, rfl⟩

/-- **A map rebuilt from its values**, in any order, when each value tells its key. -/
theorem get_rebuild {ν' : Type*} {m : OrdMap κ ν} {l : List ν} (hl : l.Perm m.values) {key : ν → κ} {val : ν → ν'}
    (hkey : ∀ k x, m.get k = some x → key x = k) (k : κ) :
    (l.foldl (fun out x => out.set (key x) (val x)) empty).get k = (m.get k).map val := by
  have hkeys : (l.map key).Perm m.keys := by
    refine (hl.map key).trans (List.Perm.of_eq ?_)
    rw [values, keys, List.map_map]
    refine List.map_congr_left fun e he => hkey e.1 e.2 ?_
    exact get_eq_some_iff.2 he
  cases hget : m.get k with
  | none =>
    have hk : k ∉ l.map key := by
      intro hk
      obtain ⟨v, hv⟩ := has_eq_true.1 (mem_keys.1 (hkeys.mem_iff.1 hk))
      exact absurd (hget.symm.trans hv) (by simp)
    exact get_foldl_set_of_notMem hk _
  | some x =>
    have hx : x ∈ l := hl.mem_iff.2 (mem_values.2 ⟨k, hget⟩)
    rw [← hkey k x hget]
    exact get_foldl_set_of_mem (hkeys.nodup_iff.2 m.nodup) hx _

theorem setEntries_of_notMem {k : κ} {v : ν} {l : List (κ × ν)} (h : k ∉ l.map Prod.fst) :
    setEntries k v l = l ++ [(k, v)] := by
  induction l with
  | nil => rfl
  | cons e rest ih =>
    rw [List.map_cons, List.mem_cons, not_or] at h
    rw [setEntries, if_neg (fun he => h.1 he.symm), ih h.2, List.cons_append]

/-- New keys are appended in the order in which they come. -/
theorem entries_foldl_set {α : Type*} {key : α → κ} {val : α → ν} {l : List α} :
    ∀ m : OrdMap κ ν, (l.map key).Nodup → (∀ x ∈ l, key x ∉ m.keys) →
      (l.foldl (fun m x => m.set (key x) (val x)) m).entries = m.entries ++ l.map fun x => (key x, val x) := by
  induction l with
  | nil => intro m _ _; simp
  | cons x l ih =>
    intro m hn hm
    rw [List.map_cons, List.nodup_cons] at hn
    have hset : (m.set (key x) (val x)).entries = m.entries ++ [(key x, val x)] :=
      setEntries_of_notMem (hm x (by simp))
    rw [List.foldl_cons, ih _ hn.2, hset, List.append_assoc, List.map_cons]
    · rfl
    · intro y hy
      rw [keys, hset, List.map_append, List.mem_append, not_or]
      refine ⟨hm y (by simp [hy]), ?_⟩
      simp only [List.map_cons, List.map_nil, List.mem_singleton]
      exact fun he => hn.1 (he ▸ List.mem_map_of_mem hy)

/-- **A map rebuilt from its values in their order** has its entries. -/
theorem entries_rebuild {ν' : Type*} {m : OrdMap κ ν} {key : ν → κ} {val : ν → ν'}
    (hkey : ∀ k x, m.get k = some x → key x = k) :
    (m.values.foldl (fun out x => out.set (key x) (val x)) empty).entries = m.entries.map fun e => (e.1, val e.2) := by
  have hkeys : ∀ e ∈ m.entries, key e.2 = e.1 := fun e he => hkey e.1 e.2 (get_eq_some_iff.2 he)
  have hn : (m.values.map key).Nodup := by
    rw [values, List.map_map]
    have heq : m.entries.map (key ∘ Prod.snd) = m.entries.map Prod.fst := List.map_congr_left hkeys
    rw [heq]
    exact m.nodup
  rw [entries_foldl_set _ hn fun _ _ => List.not_mem_nil, empty, List.nil_append, values, List.map_map]
  exact List.map_congr_left fun e he => by simp [hkeys e he]

/-! ## Totals -/

/-- The sum of a quantity over all values. -/
def total (f : ν → ℕ) (m : OrdMap κ ν) : ℕ := (m.entries.map fun e => f e.2).sum

omit [DecidableEq κ] in
@[simp] theorem total_empty (f : ν → ℕ) : (empty : OrdMap κ ν).total f = 0 := rfl

theorem sum_setEntries {f : ν → ℕ} {k : κ} {v : ν} (l : List (κ × ν)) :
    ((setEntries k v l).map fun e => f e.2).sum + (l.lookup k).elim 0 f = (l.map fun e => f e.2).sum + f v := by
  induction l with
  | nil => simp [setEntries]
  | cons e rest ih =>
    obtain ⟨a, b⟩ := e
    rw [setEntries, lookup_cons_eq]
    by_cases ha : a = k
    · subst ha
      simp only [if_true, List.map_cons, List.sum_cons, Option.elim_some]
      omega
    · rw [if_neg ha, if_neg (Ne.symm ha)]
      simp only [List.map_cons, List.sum_cons]
      omega

/-- **A write adds the new value's share and takes away the old one's.** -/
theorem total_set {f : ν → ℕ} {m : OrdMap κ ν} {k : κ} {v : ν} :
    (m.set k v).total f + (m.get k).elim 0 f = m.total f + f v := sum_setEntries m.entries

omit [DecidableEq κ] in
theorem total_eq_filter {f : ν → ℕ} {m : OrdMap κ ν} :
    m.total f = ((m.entries.filter fun e => f e.2 ≠ 0).map fun e => f e.2).sum := by
  unfold total
  induction m.entries with
  | nil => rfl
  | cons e l ih =>
    by_cases he : f e.2 = 0
    · rw [List.filter_cons_of_neg (by simpa using he), List.map_cons, List.sum_cons, he, Nat.zero_add, ih]
    · rw [List.filter_cons_of_pos (by simpa using he), List.map_cons, List.map_cons, List.sum_cons, List.sum_cons, ih]

/-- Values without a share do not count. -/
theorem total_congr {f : ν → ℕ} {m m' : OrdMap κ ν} (h : ∀ k v, f v ≠ 0 → (m.get k = some v ↔ m'.get k = some v)) :
    m.total f = m'.total f := by
  have hperm : (m.entries.filter fun e => f e.2 ≠ 0).Perm (m'.entries.filter fun e => f e.2 ≠ 0) := by
    refine (List.perm_ext_iff_of_nodup (m.nodup.of_map.filter _) (m'.nodup.of_map.filter _)).2 ?_
    rintro ⟨k, v⟩
    simp only [List.mem_filter, decide_eq_true_eq, ← get_eq_some_iff]
    exact ⟨fun hv => ⟨(h k v hv.2).1 hv.1, hv.2⟩, fun hv => ⟨(h k v hv.2).2 hv.1, hv.2⟩⟩
  rw [total_eq_filter, total_eq_filter]
  exact (hperm.map _).sum_nat

end OrdMap
