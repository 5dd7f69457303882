import EnigmaMemory.Proof.Json
import EnigmaMemory.Spec.Connector

/-!
# Equality of values

`jsonEqual`, by which a plan decides whether it changes anything, holds of two values exactly
when they are equal up to the order of their keys (`jsonEqual_iff_same`), and what equal
objects have in common, field by field (`same_obj_iff`, `same_set_iff`).
-/

namespace EnigmaMemory

namespace Json

/-! ## Objects with no key twice -/

theorem uniqueKeys_obj_iff {fs : List (JsString × Json)} :
    (obj fs).UniqueKeys ↔ (fs.map Prod.fst).Nodup ∧ ∀ f ∈ fs, f.2.UniqueKeys :=
  ⟨fun h => by cases h with | obj hn hv => exact ⟨hn, hv⟩, fun h => .obj h.1 h.2⟩

theorem uniqueKeys_empty : (obj []).UniqueKeys := .obj List.nodup_nil (by simp)

theorem mem_of_get {fs : List (JsString × Json)} {key : JsString} {v : Json} (h : (obj fs).get key = some v) : (key, v) ∈ fs := by
  rw [get, List.lookup_eq_some_iff] at h
  obtain ⟨l₁, l₂, rfl, -⟩ := h
  simp

theorem get_of_mem {fs : List (JsString × Json)} (hn : (fs.map Prod.fst).Nodup) {f : JsString × Json} (h : f ∈ fs) :
    (obj fs).get f.1 = some f.2 := by
  induction fs with
  | nil => cases h
  | cons g fs ih =>
    obtain ⟨k, v⟩ := g
    rw [List.map_cons, List.nodup_cons] at hn
    rw [get_obj_cons]
    rcases List.mem_cons.1 h with rfl | hmem
    · rw [if_pos rfl]
    · rw [if_neg, ih hn.2 hmem]
      rintro rfl
      exact hn.1 (List.mem_map.2 ⟨f, hmem, rfl⟩)

theorem UniqueKeys.get {j v : Json} {key : JsString} (h : j.UniqueKeys) (hv : j.get key = some v) : v.UniqueKeys := by
  cases h with
  | obj hn hvals => exact hvals _ (mem_of_get hv)
  | _ => cases hv

theorem UniqueKeys.set {j x : Json} {key : JsString} (h : (Json.obj j.fields).UniqueKeys) (hx : x.UniqueKeys) :
    (j.set key x).UniqueKeys := by
  rw [uniqueKeys_obj_iff] at h
  refine .obj (nodup_set (keys_eq j ▸ h.1)) fun f hf => ?_
  rcases mem_setField _ hf with rfl | hf
  · exact hx
  · exact h.2 f hf

theorem UniqueKeys.fields {j : Json} (h : j.UniqueKeys) : (Json.obj j.fields).UniqueKeys := by
  cases j with
  | obj fs => exact h
  | _ => exact uniqueKeys_empty

/-! ## Values that are the same, field by field -/

theorem mem_keys_of_same {fs gs : List (JsString × Json)}
    (h : ∀ key, ((obj fs).get key).map Json.normalize = ((obj gs).get key).map Json.normalize) (key : JsString) :
    key ∈ fs.map Prod.fst ↔ key ∈ gs.map Prod.fst := by
  have hk := congrArg Option.isSome (h key)
  rw [Option.isSome_map, Option.isSome_map] at hk
  have hf : key ∈ (obj fs).keys ↔ _ := mem_keys_iff
  have hg : key ∈ (obj gs).keys ↔ _ := mem_keys_iff
  rw [keys_eq] at hf hg
  rw [fields] at hf hg
  rw [hf, hg, hk]

/-- Objects are the same when they read the same at every key. -/
theorem same_obj_iff {fs gs : List (JsString × Json)} (hf : (fs.map Prod.fst).Nodup) (hg : (gs.map Prod.fst).Nodup) :
    Same (obj fs) (obj gs) ↔ ∀ key, ((obj fs).get key).map Json.normalize = ((obj gs).get key).map Json.normalize := by
  constructor
  · intro h key
    rw [← get_normalize, ← get_normalize, h]
  · intro h
    unfold Same
    rw [Json.normalize, Json.normalize, normalizeFields_eq, normalizeFields_eq]
    congr 1
    refine sortFields_congr (by rw [List.map_map]; exact hf) (by rw [List.map_map]; exact hg) ?_
    have hsub : ∀ {fs gs : List (JsString × Json)}, (fs.map Prod.fst).Nodup →
        (∀ key, ((obj fs).get key).map Json.normalize = ((obj gs).get key).map Json.normalize) →
        ∀ p ∈ fs.map fun f => (f.1, Json.normalize f.2), p ∈ gs.map fun f => (f.1, Json.normalize f.2) := by
      intro fs gs hf h p hp
      obtain ⟨f, hmem, rfl⟩ := List.mem_map.1 hp
      have hget := h f.1
      rw [get_of_mem hf hmem, Option.map_some] at hget
      obtain ⟨v, hv, hn⟩ := Option.map_eq_some_iff.1 hget.symm
      exact List.mem_map.2 ⟨(f.1, v), mem_of_get hv, by rw [hn]⟩
    exact fun p => ⟨hsub hf h p, hsub hg (fun key => (h key).symm) p⟩

/-- Writing a field leaves an object the same exactly when it had the field. -/
theorem same_set_iff {fs : List (JsString × Json)} (hf : (fs.map Prod.fst).Nodup) (key : JsString) (x : Json) :
    Same (obj fs) ((obj fs).set key x) ↔ ∃ v, (obj fs).get key = some v ∧ Same v x := by
  rw [set, same_obj_iff hf (nodup_set (j := obj fs) hf)]
  constructor
  · intro h
    have hkey := h key
    rw [← set, get_set, if_pos rfl, Option.map_some] at hkey
    exact Option.map_eq_some_iff.1 hkey
  · rintro ⟨v, hv, hsame⟩ k
    rw [← set, get_set]
    split
    · rename_i hk
      rw [hk, hv, Option.map_some, Option.map_some, hsame]
    · rfl

end Json

namespace Connector

open Json

theorem jsonEqualItems_iff (xs ys : List Json) :
    jsonEqualItems xs ys = true ↔ List.Forall₂ (fun x y => jsonEqual x y = true) xs ys := by
  induction xs generalizing ys with
  | nil => cases ys <;> simp [jsonEqualItems]
  | cons x xs ih => cases ys <;> simp [jsonEqualItems, ih]

theorem jsonEqualFields_iff (fs gs : List (JsString × Json)) :
    jsonEqualFields fs gs = true ↔ ∀ f ∈ fs, ∃ y, (obj gs).get f.1 = some y ∧ jsonEqual f.2 y = true := by
  induction fs with
  | nil => simp [jsonEqualFields]
  | cons f fs ih =>
    rw [jsonEqualFields, Bool.and_eq_true, ih, List.forall_mem_cons, Json.get]
    refine and_congr_left fun _ => ?_
    cases gs.lookup f.1 <;> simp

/-- **The comparison of values is equality up to the order of keys.** -/
theorem jsonEqual_iff_same {a : Json} : ∀ {b : Json}, a.UniqueKeys → b.UniqueKeys → (jsonEqual a b = true ↔ Same a b) := by
  induction a using Json.ind with
  | hnull => intro b _ _; cases b <;> simp [jsonEqual, Same, Json.normalize]
  | hbool c => intro b _ _; cases b <;> simp [jsonEqual, Same, Json.normalize]
  | hnum q => intro b _ _; cases b <;> simp [jsonEqual, Same, Json.normalize]
  | hstr s => intro b _ _; cases b <;> simp [jsonEqual, Same, Json.normalize]
  | harr xs ih =>
    intro b ha hb
    cases b with
    | arr ys =>
      cases ha with
      | arr ha =>
      cases hb with
      | arr hb =>
      rw [jsonEqual, jsonEqualItems_iff, Same, Json.normalize, Json.normalize, normalizeItems_eq, normalizeItems_eq, arr.injEq,
        ← List.forall₂_eq_eq_eq, List.forall₂_map_left_iff, List.forall₂_map_right_iff, List.forall₂_iff_get,
        List.forall₂_iff_get]
      refine and_congr_right fun _ => forall_congr' fun i => forall_congr' fun hx => forall_congr' fun hy => ?_
      exact ih _ (List.get_mem xs _) (ha _ (List.get_mem xs _)) (hb _ (List.get_mem ys _))
    | _ => simp [jsonEqual, Same, Json.normalize]
  | hobj fs ih =>
    intro b ha hb
    cases b with
    | obj gs =>
      obtain ⟨hf, hfv⟩ := uniqueKeys_obj_iff.1 ha
      obtain ⟨hg, hgv⟩ := uniqueKeys_obj_iff.1 hb
      rw [jsonEqual, Bool.and_eq_true, beq_iff_eq, jsonEqualFields_iff, same_obj_iff hf hg]
      constructor
      · rintro ⟨hlen, hfields⟩ key
        -- as many keys, and those of the first are keys of the second
        have hsub : fs.map Prod.fst ⊆ gs.map Prod.fst := by
          intro k hk
          obtain ⟨f, hmem, rfl⟩ := List.mem_map.1 hk
          obtain ⟨y, hy, -⟩ := hfields f hmem
          exact List.mem_map.2 ⟨(f.1, y), mem_of_get hy, rfl⟩
        have hperm := (List.subperm_of_subset hf hsub).perm_of_length_le (by simp [hlen])
        cases hget : (obj fs).get key with
        | none =>
          rw [get_eq_none_iff, hperm.mem_iff, ← get_eq_none_iff] at hget
          rw [hget]
        | some x =>
          obtain ⟨y, hy, hxy⟩ := hfields _ (mem_of_get hget)
          rw [hy, Option.map_some, Option.map_some,
            ((ih _ (mem_of_get hget)) (hfv _ (mem_of_get hget)) (hgv _ (mem_of_get hy))).1 hxy]
      · intro h
        refine ⟨?_, fun f hmem => ?_⟩
        · have hperm := (List.perm_ext_iff_of_nodup hf hg).2 (mem_keys_of_same h)
          simpa using hperm.length_eq
        · have hget := h f.1
          rw [get_of_mem hf hmem, Option.map_some] at hget
          obtain ⟨y, hy, hn⟩ := Option.map_eq_some_iff.1 hget.symm
          exact ⟨y, hy, (ih f hmem (hfv f hmem) (hgv _ (mem_of_get hy))).2 hn.symm⟩
    | _ => simp [jsonEqual, Same, Json.normalize]

end Connector

end EnigmaMemory
