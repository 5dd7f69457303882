import EnigmaMemory.Proof.JsonEqual
import EnigmaMemory.Spec.Settlement

/-!
# Copies with sorted keys

`canonicalize(value)` of the settlement and the proof network rebuilds every object key by key,
before it is written as text. What a copy reads at a key (`get_canonicalize`), and when two
values have one copy: equal values do (`Same.canonicalize`), and two values with one copy are
equal exactly when their own fields named `__proto__` agree (`same_iff_protoAgree`), since the
copy leaves these out.
-/

namespace EnigmaMemory

/-! ## Fields -/

theorem lookup_insertionSort {α : Type} (r : JsString × α → JsString × α → Prop) [DecidableRel r]
    (hr : ∀ f g : JsString × α, f.1 = g.1 → r f g) (key : JsString) (fs : List (JsString × α)) :
    (fs.insertionSort r).lookup key = fs.lookup key := by
  have hinsert : ∀ (f : JsString × α) (gs : List (JsString × α)),
      (gs.orderedInsert r f).lookup key = (f :: gs).lookup key := by
    intro f gs
    induction gs with
    | nil => rfl
    | cons g gs ih =>
      rw [List.orderedInsert]
      split
      · rfl
      · -- the field that `f` goes behind has another key
        rename_i hgt
        have hne : f.1 ≠ g.1 := fun h => hgt (hr f g h)
        rw [List.lookup_cons, ih, List.lookup_cons, List.lookup_cons, List.lookup_cons]
        by_cases hf : key = f.1
        · rw [hf, beq_self_eq_true, beq_false_of_ne hne]
        · rw [beq_false_of_ne hf]
  induction fs with
  | nil => rfl
  | cons f fs ih => rw [List.insertionSort_cons, hinsert, List.lookup_cons, List.lookup_cons, ih]

theorem lookup_filter {α : Type} (p : JsString → Bool) (key : JsString) (fs : List (JsString × α)) :
    (fs.filter fun f => p f.1).lookup key = if p key then fs.lookup key else none := by
  induction fs with
  | nil => simp
  | cons f fs ih =>
    obtain ⟨k, v⟩ := f
    rw [List.filter_cons, List.lookup_cons]
    by_cases hk : key = k
    · subst hk
      by_cases hp : p key = true
      · rw [if_pos hp, List.lookup_cons, beq_self_eq_true, if_pos hp]
      · rw [if_neg hp, ih, if_neg hp, if_neg hp]
    · rw [beq_false_of_ne hk, ← ih]
      split
      · rw [List.lookup_cons, beq_false_of_ne hk]
      · rfl

namespace Settlement

open Json

theorem lookup_listedFields {α : Type} (key : JsString) (fs : List (JsString × α)) :
    (listedFields fs).lookup key = fs.lookup key := by
  have hr : ∀ f g : JsString × α, f.1 = g.1 → (arrayIndex f.1).getD 0 ≤ (arrayIndex g.1).getD 0 := fun f g h => by rw [h]
  rw [listedFields, List.lookup_append, lookup_insertionSort _ hr, lookup_filter fun k => (arrayIndex k).isSome,
    lookup_filter fun k => (arrayIndex k).isNone]
  cases arrayIndex key <;> simp

theorem perm_listedFields {α : Type} (fs : List (JsString × α)) : (listedFields fs).Perm fs := by
  have hnone : (fs.filter fun f => (arrayIndex f.1).isNone) = fs.filter fun f => !(arrayIndex f.1).isSome :=
    List.filter_congr fun f _ => by simp
  rw [listedFields, hnone]
  exact ((List.perm_insertionSort _ _).append_right _).trans (List.filter_append_perm _ fs)

theorem canonicalizeItems_eq (xs : List Json) : canonicalizeItems xs = xs.map canonicalize := by
  induction xs with
  | nil => rfl
  | cons x xs ih => rw [canonicalizeItems, ih, List.map_cons]

theorem canonicalizeFields_eq (fs : List (JsString × Json)) :
    canonicalizeFields fs = fs.map fun f => (f.1, canonicalize f.2) := by
  induction fs with
  | nil => rfl
  | cons f fs ih =>
    obtain ⟨k, v⟩ := f
    rw [canonicalizeFields, ih, List.map_cons]

/-- The key that an assignment does not add. -/
def protoKey : JsString := js "__proto__"

/-- The fields of the copy of an object. -/
def copyFields (fs : List (JsString × Json)) : List (JsString × Json) :=
  listedFields ((sortFields (fs.map fun f => (f.1, canonicalize f.2))).filter fun f => f.1 ≠ protoKey)

theorem canonicalize_obj (fs : List (JsString × Json)) : canonicalize (.obj fs) = .obj (copyFields fs) := by
  rw [canonicalize, canonicalizeFields_eq]
  rfl

theorem canonicalize_arr (xs : List Json) : canonicalize (.arr xs) = .arr (xs.map canonicalize) := by
  rw [canonicalize, canonicalizeItems_eq]

theorem lookup_map_canonicalize (key : JsString) (fs : List (JsString × Json)) :
    (fs.map fun f => (f.1, canonicalize f.2)).lookup key = (fs.lookup key).map canonicalize := by
  induction fs with
  | nil => rfl
  | cons f fs ih =>
    rw [List.map_cons, List.lookup_cons, List.lookup_cons, ih]
    cases key == f.1 <;> rfl

/-- A copy reads the copies of the fields. -/
theorem get_canonicalize (j : Json) (key : JsString) :
    (canonicalize j).get key = if key = protoKey then none else (j.get key).map canonicalize := by
  cases j with
  | obj fs =>
    have hfilter := lookup_filter (fun k => decide (k ≠ protoKey)) key (sortFields (fs.map fun f => (f.1, canonicalize f.2)))
    rw [canonicalize_obj, Json.get, copyFields, lookup_listedFields, hfilter, lookup_sortFields, lookup_map_canonicalize, Json.get]
    by_cases hkey : key = protoKey <;> simp [hkey]
  | _ => simp [canonicalize, Json.get]

theorem get_canonicalize_of_ne {key : JsString} (h : key ≠ protoKey) (j : Json) :
    (canonicalize j).get key = (j.get key).map canonicalize := by
  rw [get_canonicalize, if_neg h]

theorem nodup_map_canonicalize {fs : List (JsString × Json)} (h : (fs.map Prod.fst).Nodup) :
    ((fs.map fun f => (f.1, canonicalize f.2)).map Prod.fst).Nodup := by
  rw [List.map_map]
  exact h

/-- The fields of a copy before the array indices are brought to the front. -/
def sortedFields (fs : List (JsString × Json)) : List (JsString × Json) :=
  (sortFields (fs.map fun f => (f.1, canonicalize f.2))).filter fun f => f.1 ≠ protoKey

theorem nodup_sortedFields {fs : List (JsString × Json)} (h : (fs.map Prod.fst).Nodup) :
    ((sortedFields fs).map Prod.fst).Nodup :=
  (List.filter_sublist.map Prod.fst).nodup (nodup_sortFields (nodup_map_canonicalize h))

theorem mem_sortedFields {fs : List (JsString × Json)} {f : JsString × Json} :
    f ∈ sortedFields fs ↔ f.1 ≠ protoKey ∧ ∃ v, (f.1, v) ∈ fs ∧ canonicalize v = f.2 := by
  rw [sortedFields, List.mem_filter, mem_sortFields, List.mem_map, decide_eq_true_eq, and_comm]
  refine and_congr_right fun _ => ⟨?_, ?_⟩
  · rintro ⟨g, hg, rfl⟩
    exact ⟨g.2, hg, rfl⟩
  · rintro ⟨v, hv, hf⟩
    exact ⟨_, hv, Prod.ext rfl hf⟩

theorem uniqueKeys_canonicalize {j : Json} (h : j.UniqueKeys) : (canonicalize j).UniqueKeys := by
  induction h with
  | arr _ ih =>
    rw [canonicalize_arr]
    refine .arr fun x hx => ?_
    obtain ⟨y, hy, rfl⟩ := List.mem_map.1 hx
    exact ih y hy
  | @obj fs hn _ ih =>
    rw [canonicalize_obj]
    have hperm : (copyFields fs).Perm (sortedFields fs) := perm_listedFields _
    refine .obj ((hperm.map Prod.fst).nodup_iff.2 (nodup_sortedFields hn)) fun f hf => ?_
    obtain ⟨-, v, hv, hcopy⟩ := mem_sortedFields.1 (hperm.mem_iff.1 hf)
    rw [← hcopy]
    exact ih _ hv
  | null => exact .null
  | bool b => exact .bool b
  | num q => exact .num q
  | str s => exact .str s

/-- Objects have one copy when the copies of their fields are the same. -/
theorem canonicalize_ext {fs gs : List (JsString × Json)} (hf : (fs.map Prod.fst).Nodup) (hg : (gs.map Prod.fst).Nodup)
    (h : ∀ key, key ≠ protoKey → ((Json.obj fs).get key).map canonicalize = ((Json.obj gs).get key).map canonicalize) :
    canonicalize (.obj fs) = canonicalize (.obj gs) := by
  have hsub : ∀ {fs gs : List (JsString × Json)}, (fs.map Prod.fst).Nodup →
      (∀ key, key ≠ protoKey → ((Json.obj fs).get key).map canonicalize = ((Json.obj gs).get key).map canonicalize) →
      ∀ p ∈ sortedFields fs, p ∈ sortedFields gs := by
    intro fs gs hf h p hp
    obtain ⟨hkey, v, hv, hcopy⟩ := mem_sortedFields.1 hp
    have hget := h p.1 hkey
    rw [get_of_mem hf hv, Option.map_some, hcopy] at hget
    obtain ⟨w, hw, hcopy'⟩ := Option.map_eq_some_iff.1 hget.symm
    exact mem_sortedFields.2 ⟨hkey, w, mem_of_get hw, hcopy'⟩
  have hsorted : ∀ fs : List (JsString × Json), (sortedFields fs).Pairwise fun f g => f.1 ≤ g.1 := fun fs =>
    (pairwise_sortFields _).sublist List.filter_sublist
  have heq : sortedFields fs = sortedFields gs :=
    eq_of_sorted_fields (nodup_sortedFields hf) (nodup_sortedFields hg) (hsorted fs) (hsorted gs) fun p =>
      ⟨hsub hf h p, hsub hg (fun key hkey => (h key hkey).symm) p⟩
  rw [canonicalize_obj, canonicalize_obj]
  exact congrArg (fun l => Json.obj (listedFields l)) heq

theorem canonicalize_canonicalize {j : Json} (h : j.UniqueKeys) : canonicalize (canonicalize j) = canonicalize j := by
  induction h with
  | @arr xs _ ih =>
    rw [canonicalize_arr, canonicalize_arr, List.map_map]
    exact congrArg Json.arr (List.map_congr_left ih)
  | @obj fs hn hfs ih =>
    have hcopy := uniqueKeys_canonicalize (.obj hn hfs)
    rw [canonicalize_obj, uniqueKeys_obj_iff] at hcopy
    refine (congrArg canonicalize (canonicalize_obj fs)).trans (canonicalize_ext hcopy.1 hn fun key hkey => ?_)
    rw [← canonicalize_obj, get_canonicalize_of_ne hkey]
    cases hget : (Json.obj fs).get key with
    | none => rfl
    | some v => rw [Option.map_some, Option.map_some, ih _ (mem_of_get hget)]
  | _ => rfl

/-- Equal values have one copy. -/
theorem canonicalize_of_same {a b : Json} (h : Same a b) : canonicalize a = canonicalize b := by
  have hnormalize : ∀ j : Json, canonicalize j.normalize = canonicalize j := by
    intro j
    induction j using Json.ind with
    | harr xs ih =>
      rw [Json.normalize, normalizeItems_eq, canonicalize_arr, canonicalize_arr, List.map_map]
      exact congrArg Json.arr (List.map_congr_left ih)
    | hobj fs ih =>
      have hmap : (fs.map fun f => (f.1, canonicalize f.2.normalize)) = fs.map fun f => (f.1, canonicalize f.2) :=
        List.map_congr_left fun f hf => by rw [ih f hf]
      have hsort : sortFields (sortFields (fs.map fun f => (f.1, canonicalize f.2))) =
          sortFields (fs.map fun f => (f.1, canonicalize f.2)) := (pairwise_sortFields _).insertionSort_eq
      rw [Json.normalize, normalizeFields_eq, canonicalize_obj, canonicalize_obj, copyFields, copyFields, ← sortFields_map, List.map_map,
        Function.comp_def, hmap, hsort]
    | hnull => rfl
    | hbool b => rfl
    | hnum q => rfl
    | hstr s => rfl
  rw [← hnormalize a, h, hnormalize b]

/-! ## What a copy leaves out -/

/-- Wherever both values have an object, their own fields `__proto__` are both missing or equal. -/
inductive ProtoAgree : Json → Json → Prop
  | obj {fs gs : List (JsString × Json)} :
      ((Json.obj fs).get protoKey).map Json.normalize = ((Json.obj gs).get protoKey).map Json.normalize →
      (∀ (key : JsString) (x y : Json), key ≠ protoKey → (Json.obj fs).get key = some x → (Json.obj gs).get key = some y → ProtoAgree x y) →
      ProtoAgree (.obj fs) (.obj gs)
  | arr {xs ys : List Json} : (∀ (i : ℕ) (x y : Json), xs[i]? = some x → ys[i]? = some y → ProtoAgree x y) → ProtoAgree (.arr xs) (.arr ys)
  | apart {a b : Json} : (∀ fs gs, a = .obj fs → b ≠ .obj gs) → (∀ xs ys, a = .arr xs → b ≠ .arr ys) → ProtoAgree a b

theorem ProtoAgree.of_same {a : Json} : ∀ {b : Json}, Same a b → ProtoAgree a b := by
  induction a using Json.ind with
  | hobj fs ih =>
    intro b h
    cases b with
    | obj gs =>
      have hget : ∀ key, ((Json.obj fs).get key).map Json.normalize = ((Json.obj gs).get key).map Json.normalize := fun key => by
        rw [← get_normalize, ← get_normalize, h]
      refine .obj (hget protoKey) fun key x y _ hx hy => ih (key, x) (mem_of_get hx) ?_
      have hxy := hget key
      rw [hx, hy] at hxy
      exact Option.some.inj hxy
    | _ => exact .apart (by simp) (by simp)
  | harr xs ih =>
    intro b h
    cases b with
    | arr ys =>
      rw [Same, Json.normalize, Json.normalize, normalizeItems_eq, normalizeItems_eq, arr.injEq] at h
      refine .arr fun i x y hx hy => ih x (List.mem_of_getElem? hx) ?_
      have hi := congrArg (fun l => l[i]?) h
      have hxy : x.normalize = y.normalize := by simpa [hx, hy] using hi
      exact hxy
    | _ => exact .apart (by simp) (by simp)
  | hnull | hbool b | hnum q | hstr s => exact fun _ => .apart (by simp) (by simp)

/-- **Two values with one copy are equal exactly when their fields `__proto__` agree.** -/
theorem same_iff_protoAgree {a : Json} : ∀ {b : Json}, a.UniqueKeys → b.UniqueKeys → canonicalize a = canonicalize b →
    (Same a b ↔ ProtoAgree a b) := by
  refine fun {b} ha hb h => ⟨ProtoAgree.of_same, fun hagree => ?_⟩
  induction hagree with
  | @obj fs gs hproto _ ih =>
    obtain ⟨hf, hfv⟩ := uniqueKeys_obj_iff.1 ha
    obtain ⟨hg, hgv⟩ := uniqueKeys_obj_iff.1 hb
    refine (same_obj_iff hf hg).2 fun key => ?_
    by_cases hkey : key = protoKey
    · rw [hkey, hproto]
    · have hget := congrArg (fun j : Json => j.get key) h
      rw [get_canonicalize_of_ne hkey, get_canonicalize_of_ne hkey] at hget
      cases hx : (Json.obj fs).get key with
      | none =>
        rw [hx] at hget
        rw [Option.map_eq_none_iff.1 hget.symm]
      | some x =>
        rw [hx, Option.map_some] at hget
        obtain ⟨y, hy, hcopy⟩ := Option.map_eq_some_iff.1 hget.symm
        rw [hy, Option.map_some, Option.map_some]
        exact congrArg some (ih key x y hkey hx hy (hfv _ (mem_of_get hx)) (hgv _ (mem_of_get hy)) hcopy.symm)
  | @arr xs ys _ ih =>
    rw [canonicalize_arr, canonicalize_arr, arr.injEq] at h
    rw [Same, Json.normalize, Json.normalize, normalizeItems_eq, normalizeItems_eq]
    refine congrArg Json.arr (List.ext_getElem? fun i => ?_)
    have hi := congrArg (fun l => l[i]?) h
    rw [List.getElem?_map, List.getElem?_map] at hi ⊢
    cases ha with
    | arr ha =>
    cases hb with
    | arr hb =>
    cases hx : xs[i]? with
    | none =>
      rw [hx] at hi
      rw [Option.map_eq_none_iff.1 hi.symm]
    | some x =>
      rw [hx, Option.map_some] at hi
      obtain ⟨y, hy, hcopy⟩ := Option.map_eq_some_iff.1 hi.symm
      rw [hy, Option.map_some, Option.map_some]
      exact congrArg some (ih i x y hx hy (ha _ (List.mem_of_getElem? hx)) (hb _ (List.mem_of_getElem? hy)) hcopy.symm)
  | @apart a b hobj harr =>
    -- a value that is neither an object nor a list is its own copy
    cases a with
    | obj fs => cases b with
      | obj gs => exact absurd rfl (hobj fs gs rfl)
      | _ => simp [canonicalize] at h
    | arr xs => cases b with
      | arr ys => exact absurd rfl (harr xs ys rfl)
      | _ => simp [canonicalize] at h
    | _ => cases b <;> simp_all [canonicalize, Same]

end Settlement

end EnigmaMemory
