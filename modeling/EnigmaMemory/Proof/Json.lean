import EnigmaMemory.Lib.Ordered
import EnigmaMemory.Proof.Canonical

/-!
# Fields of JSON objects

What a write to a field does to the keys of an object, and what two objects share that
are equal up to the order of their keys.
-/

namespace EnigmaMemory

namespace Json

/-! ## Writes -/

theorem setField_eq (key : JsString) (x : Json) (fs : List (JsString × Json)) :
    setField key x fs = OrdMap.setEntries key x fs := by
  induction fs with
  | nil => rfl
  | cons f fs ih => rw [setField, OrdMap.setEntries, ih]

/-- A write adds the new field and keeps others. -/
theorem mem_setField {key : JsString} {x : Json} {f : JsString × Json} (fs : List (JsString × Json))
    (h : f ∈ setField key x fs) : f = (key, x) ∨ f ∈ fs := by
  induction fs with
  | nil => exact Or.inl (List.mem_singleton.1 h)
  | cons g fs ih =>
    rw [setField] at h
    split at h
    · rcases List.mem_cons.1 h with rfl | h
      · exact Or.inl rfl
      · exact Or.inr (List.mem_cons_of_mem _ h)
    · rcases List.mem_cons.1 h with rfl | h
      · exact Or.inr List.mem_cons_self
      · exact (ih h).imp_right (List.mem_cons_of_mem _)

theorem keys_eq (j : Json) : j.keys = j.fields.map Prod.fst := by
  cases j <;> rfl

theorem mem_keys_iff {j : Json} {key : JsString} : key ∈ j.keys ↔ (j.get key).isSome = true := by
  cases j with
  | obj fs => simp [Json.keys, Json.get, List.lookup_isSome_iff]
  | _ => simp [Json.keys, Json.get]

theorem mem_keys_set {j : Json} {key k : JsString} {x : Json} : k ∈ (j.set key x).keys ↔ k = key ∨ k ∈ j.keys := by
  rw [keys_eq j, set, keys, setField_eq]
  exact OrdMap.mem_keys_setEntries _

theorem nodup_set {j : Json} {key : JsString} {x : Json} (h : j.keys.Nodup) : (j.set key x).keys.Nodup := by
  rw [set, keys, setField_eq]
  exact OrdMap.nodup_setEntries (keys_eq j ▸ h)

/-! ## Values that are equal up to key order -/

/-- Taking out a field that has just been added. -/
theorem without_set {j : Json} {key : JsString} (h : j.get key = none) (x : Json) : (j.set key x).without key = obj j.fields := by
  rw [without, set, fields]
  rw [← get_obj_fields] at h
  congr 1
  revert h
  induction j.fields with
  | nil => simp [setField]
  | cons f fs ih =>
    intro h
    obtain ⟨k, v⟩ := f
    rw [get_obj_cons] at h
    by_cases hk : key = k
    · rw [if_pos hk] at h
      cases h
    · rw [if_neg hk] at h
      rw [setField, if_neg (Ne.symm hk), List.filter_cons_of_pos (by simpa using Ne.symm hk), ih h]

theorem without_comm (j : Json) (a b : JsString) : (j.without a).without b = (j.without b).without a := by
  simp only [without, fields, List.filter_filter, Bool.and_comm]

theorem get_eq_none_iff {fs : List (JsString × Json)} {key : JsString} :
    (obj fs).get key = none ↔ key ∉ fs.map Prod.fst := by
  rw [get, List.lookup_eq_none_iff, List.mem_map]
  constructor
  · rintro h ⟨f, hf, rfl⟩
    simpa using h f hf
  · intro h f hf
    rw [bne_iff_ne]
    rintro rfl
    exact h ⟨f, hf, rfl⟩

theorem get_foldl_set (fs : List (JsString × Json)) (hfs : (fs.map Prod.fst).Nodup) (key : JsString) :
    ∀ j : Json, (fs.foldl (fun out f => out.set f.1 f.2) j).get key = ((obj fs).get key).or (j.get key) := by
  induction fs with
  | nil => exact fun j => rfl
  | cons f fs ih =>
    intro j
    obtain ⟨k, v⟩ := f
    rw [List.map_cons, List.nodup_cons] at hfs
    rw [List.foldl_cons, ih hfs.2, get_obj_cons, get_set]
    by_cases h : key = k
    · rw [if_pos h, if_pos h, h, get_eq_none_iff.2 hfs.1]
      rfl
    · rw [if_neg h, if_neg h]

/-- A spread reads the new fields first. -/
theorem get_spread {fs : List (JsString × Json)} (hfs : (fs.map Prod.fst).Nodup) (j : Json) (key : JsString) :
    (j.spread (obj fs)).get key = ((obj fs).get key).or (j.get key) := by
  rw [spread, fields, get_foldl_set fs hfs, get_obj_fields]

theorem lookup_orderedInsert {α : Type} (k key : JsString) (v : α) (fs : List (JsString × α)) :
    ((fs.orderedInsert (fun a b => a.1 ≤ b.1) (k, v)).lookup key) = if key = k then some v else fs.lookup key := by
  induction fs with
  | nil =>
    by_cases h : key = k
    · simp [h]
    · simp [h, List.lookup_cons, beq_false_of_ne h]
  | cons f fs ih =>
    obtain ⟨k', v'⟩ := f
    rw [List.orderedInsert]
    split
    · by_cases h : key = k
      · simp [h]
      · rw [List.lookup_cons, beq_false_of_ne h, if_neg h]
    · -- the new field goes behind a smaller key
      rename_i hle
      rw [List.lookup_cons, List.lookup_cons, ih]
      by_cases h' : key = k'
      · have hne : key ≠ k := fun h => hle (by rw [← h, ← h'])
        simp only [h', beq_self_eq_true, if_neg (h' ▸ hne)]
      · rw [beq_false_of_ne h']

theorem lookup_sortFields {α : Type} (key : JsString) (fs : List (JsString × α)) :
    (sortFields fs).lookup key = fs.lookup key := by
  unfold sortFields
  induction fs with
  | nil => rfl
  | cons f fs ih =>
    obtain ⟨k, v⟩ := f
    rw [List.insertionSort_cons, lookup_orderedInsert, ih, List.lookup_cons]
    by_cases h : key = k
    · rw [if_pos h, h, beq_self_eq_true]
    · rw [if_neg h, beq_false_of_ne h]

/-- Normalization acts on every field by itself. -/
theorem get_normalize (j : Json) (key : JsString) : j.normalize.get key = (j.get key).map Json.normalize := by
  cases j with
  | obj fs =>
    rw [Json.normalize, get, get, lookup_sortFields, normalizeFields_eq]
    induction fs with
    | nil => rfl
    | cons f fs ih =>
      obtain ⟨k, v⟩ := f
      rw [List.map_cons, List.lookup_cons, List.lookup_cons, ih]
      cases key == k <;> rfl
  | _ => rfl

theorem normalize_eq_str {j : Json} {s : JsString} : j.normalize = .str s ↔ j = .str s := by
  cases j <;> simp [Json.normalize]

theorem normalize_eq_num {j : Json} {q : ℚ} : j.normalize = .num q ↔ j = .num q := by
  cases j <;> simp [Json.normalize]

theorem Same.get_str {a b : Json} (h : Same a b) {key s : JsString} (ha : a.get key = some (.str s)) :
    b.get key = some (.str s) := by
  have hb := get_normalize b key
  rw [← h, get_normalize, ha] at hb
  obtain ⟨v, hv, hn⟩ := Option.map_eq_some_iff.1 hb.symm
  rw [hv, normalize_eq_str.1 hn]

theorem Same.get_num {a b : Json} (h : Same a b) {key : JsString} {q : ℚ} (ha : a.get key = some (.num q)) :
    b.get key = some (.num q) := by
  have hb := get_normalize b key
  rw [← h, get_normalize, ha] at hb
  obtain ⟨v, hv, hn⟩ := Option.map_eq_some_iff.1 hb.symm
  rw [hv, normalize_eq_num.1 hn]

theorem isNum_iff {j : Option Json} {q : ℚ} : isNum j q = true ↔ j = some (.num q) := by
  unfold isNum
  split
  · simp
  · rename_i h
    exact iff_of_false Bool.false_ne_true (fun he => h q he)

end Json

/-! ## Values that are the same -/

theorem sameValue_str {j : Json} {s : JsString} : sameValue j (.str s) = true ↔ j = .str s := by
  cases j <;> simp [sameValue]

theorem sameValue_bool {j : Json} {b : Bool} : sameValue j (.bool b) = true ↔ j = .bool b := by
  cases j <;> simp [sameValue]

/-- Values that are the same are equal. -/
theorem eq_of_sameValue {a b : Json} (h : sameValue a b = true) : a = b := by
  cases a <;> cases b <;> simp_all [sameValue]

theorem strictEq_str {a : Option Json} {s : JsString} : strictEq a (some (.str s)) = true ↔ a = some (.str s) := by
  cases a <;> simp [strictEq, sameValue_str]

theorem strictEq_bool {a : Option Json} {b : Bool} : strictEq a (some (.bool b)) = true ↔ a = some (.bool b) := by
  cases a <;> simp [strictEq, sameValue_bool]

theorem eq_of_strictEq {a b : Option Json} (h : strictEq a b = true) : a = b := by
  cases a <;> cases b <;> simp_all [strictEq]
  exact eq_of_sameValue h

/-! ## Sets of values -/

theorem hasValue_iff {set : List Json} {value : Json} :
    hasValue set value = true ↔ value ∈ set ∧ sameValue value value = true := by
  rw [hasValue, List.any_eq_true]
  constructor
  · rintro ⟨x, hx, hsame⟩
    obtain rfl := eq_of_sameValue hsame
    exact ⟨hx, hsame⟩
  · rintro ⟨hmem, hsame⟩
    exact ⟨value, hmem, hsame⟩

theorem hasValue_map_str {l : List JsString} {s : JsString} : hasValue (l.map .str) (.str s) = true ↔ s ∈ l := by
  rw [hasValue_iff]
  simp [sameValue]

theorem mem_foldl_distinct {a : Json} (l : List Json) : ∀ out : List Json,
    a ∈ l.foldl (fun out value => if hasValue out value then out else out ++ [value]) out ↔ a ∈ out ∨ a ∈ l := by
  induction l with
  | nil => simp
  | cons b l ih =>
    intro out
    rw [List.foldl_cons, ih, List.mem_cons]
    split
    · -- a value that is there already adds nothing
      rename_i hb
      have hmem := (hasValue_iff.1 hb).1
      constructor
      · rintro (h | h)
        · exact Or.inl h
        · exact Or.inr (Or.inr h)
      · rintro (h | rfl | h)
        · exact Or.inl h
        · exact Or.inl hmem
        · exact Or.inr h
    · simp only [List.mem_append, List.mem_singleton]
      tauto

theorem mem_distinctValues {a : Json} {l : List Json} : a ∈ distinctValues l ↔ a ∈ l := by
  rw [distinctValues, mem_foldl_distinct]
  simp

end EnigmaMemory
