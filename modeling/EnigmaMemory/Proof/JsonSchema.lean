import Mathlib.Data.List.Forall2
import EnigmaMemory.Proof.Json
import EnigmaMemory.Spec.JsonSchema

/-!
# What schemas accept

One statement for each shape of schema. An object that lists its fields as the schema lists its
properties is checked field by field (`accepts_literal`); for any other object
`accepts_closedObject` goes through what it reads.
-/

namespace EnigmaMemory

/-! ## Equality of values -/

namespace Json

theorem identicalItems_iff (xs : List Json) (h : ∀ x ∈ xs, ∀ y, identical x y = true ↔ x = y) :
    ∀ ys, identicalItems xs ys = true ↔ xs = ys := by
  induction xs with
  | nil =>
    intro ys
    cases ys <;> simp [identicalItems]
  | cons x xs ih =>
    intro ys
    cases ys with
    | nil => simp [identicalItems]
    | cons y ys =>
      rw [identicalItems, Bool.and_eq_true, h x List.mem_cons_self, ih fun z hz => h z (List.mem_cons_of_mem _ hz),
        List.cons_eq_cons]

theorem identicalFields_iff (fs : List (JsString × Json)) (h : ∀ f ∈ fs, ∀ y, identical f.2 y = true ↔ f.2 = y) :
    ∀ gs, identicalFields fs gs = true ↔ fs = gs := by
  induction fs with
  | nil =>
    intro gs
    cases gs <;> simp [identicalFields]
  | cons f fs ih =>
    intro gs
    obtain ⟨k, x⟩ := f
    cases gs with
    | nil => simp [identicalFields]
    | cons g gs =>
      obtain ⟨l, y⟩ := g
      rw [identicalFields, Bool.and_eq_true, Bool.and_eq_true, beq_iff_eq, h (k, x) List.mem_cons_self,
        ih fun z hz => h z (List.mem_cons_of_mem _ hz), List.cons_eq_cons, Prod.mk.injEq]

theorem identical_iff (a : Json) : ∀ b, identical a b = true ↔ a = b := by
  induction a using Json.ind with
  | hnull | hbool | hnum | hstr =>
    intro b
    cases b <;> simp [identical]
  | harr xs ih =>
    intro b
    cases b with
    | arr ys => rw [identical, identicalItems_iff xs ih, arr.injEq]
    | _ => simp [identical]
  | hobj fs ih =>
    intro b
    cases b with
    | obj gs => rw [identical, identicalFields_iff fs ih, obj.injEq]
    | _ => simp [identical]

theorem equalJson_iff {a b : Json} : equalJson a b = true ↔ Same a b := identical_iff _ _

theorem equalJson_str {j : Json} {s : JsString} : equalJson j (.str s) = true ↔ j = .str s :=
  equalJson_iff.trans normalize_eq_str

theorem equalJson_bool {j : Json} {b : Bool} : equalJson j (.bool b) = true ↔ j = .bool b := by
  rw [equalJson_iff, Same]
  cases j <;> simp [Json.normalize]

theorem equalJson_self (j : Json) : equalJson j j = true := equalJson_iff.2 rfl

theorem distinctItems_iff {xs : List Json} : distinctItems xs = true ↔ xs.Pairwise fun a b => ¬ Same a b := by
  induction xs with
  | nil => simp [distinctItems]
  | cons x xs ih =>
    rw [distinctItems, Bool.and_eq_true, ih, List.pairwise_cons]
    simp [equalJson_iff]

theorem distinctItems_strings {xs : List JsString} : distinctItems (xs.map .str) = true ↔ xs.Nodup := by
  rw [distinctItems_iff, List.pairwise_map, List.Nodup]
  simp [Same, Json.normalize]

end Json

/-! ## Keywords -/

namespace Schema

open Json

theorem acceptsAll_iff {ss : List Schema} {j : Json} : acceptsAll ss j = true ↔ ∀ s ∈ ss, accepts s j = true := by
  induction ss with
  | nil => simp [acceptsAll]
  | cons s ss ih => rw [acceptsAll, Bool.and_eq_true, ih, List.forall_mem_cons]

theorem acceptsFields_iff {ps : List (JsString × Schema)} {j : Json} :
    acceptsFields ps j = true ↔ ∀ p ∈ ps, ∀ v, j.get p.1 = some v → accepts p.2 v = true := by
  induction ps with
  | nil => simp [acceptsFields]
  | cons p ps ih =>
    rw [acceptsFields, Bool.and_eq_true, ih, List.forall_mem_cons]
    cases j.get p.1 <;> simp

theorem accepts_allOf {ss : List Schema} {j : Json} :
    accepts (allOf ss) j = true ↔ ∀ s ∈ ss, accepts s j = true := by rw [accepts, acceptsAll_iff]

@[simp] theorem accepts_const_str {j : Json} {s : JsString} : accepts (const (.str s)) j = true ↔ j = .str s := by
  rw [accepts, equalJson_str]

@[simp] theorem accepts_const_bool {j : Json} {b : Bool} : accepts (const (.bool b)) j = true ↔ j = .bool b := by
  rw [accepts, equalJson_bool]

theorem accepts_enum {values : List JsString} {j : Json} :
    accepts (enum (values.map .str)) j = true ↔ ∃ s ∈ values, j = .str s := by
  simp [accepts, equalJson_str]

@[simp] theorem accepts_strings {values : List JsString} {j : Json} :
    accepts (strings values) j = true ↔ ∃ s ∈ values, j = .str s := by
  rw [strings, accepts_allOf, List.forall_mem_cons, List.forall_mem_singleton, accepts_enum]
  refine and_iff_right_of_imp ?_
  rintro ⟨s, -, rfl⟩
  rfl

/-- A string with a pattern. -/
theorem accepts_pattern {test : JsString → Bool} {j : Json} :
    accepts (allOf [type [.string], pattern test]) j = true ↔ ∃ s, j = .str s ∧ test s = true := by
  rw [accepts_allOf, List.forall_mem_cons, List.forall_mem_singleton]
  cases j <;> simp [accepts, JsonType.has]

@[simp] theorem accepts_count {j : Json} : accepts count j = true ↔ ∃ n : ℕ, j = .num n := by
  rw [count, accepts_allOf, List.forall_mem_cons, List.forall_mem_singleton]
  cases j with
  | num q =>
    simp only [accepts, JsonType.has, List.any_cons, List.any_nil, Bool.or_false, beq_iff_eq, decide_eq_true_eq, num.injEq]
    constructor
    · rintro ⟨hden, hpos⟩
      have hnum : 0 ≤ q.num := Rat.num_nonneg.2 hpos
      refine ⟨q.num.toNat, ?_⟩
      conv_lhs => rw [← Rat.coe_int_num_of_den_eq_one hden]
      rw [← Int.cast_natCast, Int.toNat_of_nonneg hnum]
    · rintro ⟨n, rfl⟩
      exact ⟨Rat.den_natCast n, Nat.cast_nonneg n⟩
  | _ => simp [accepts, JsonType.has]

@[simp] theorem accepts_setOf {least : ℕ} {s : Schema} {j : Json} :
    accepts (setOf least s) j = true ↔
      ∃ xs, j = .arr xs ∧ least ≤ xs.length ∧ (∀ x ∈ xs, accepts s x = true) ∧ distinctItems xs = true := by
  rw [setOf, accepts_allOf]
  cases j <;> simp [accepts, JsonType.has]

/-- An array of different strings. -/
theorem accepts_setOf_strings {least : ℕ} {s : Schema} {xs : List JsString} :
    accepts (setOf least s) (.arr (xs.map .str)) = true ↔
      least ≤ xs.length ∧ (∀ x ∈ xs, accepts s (.str x) = true) ∧ xs.Nodup := by
  rw [accepts_setOf]
  simp [distinctItems_strings]

theorem accepts_ifThen {c t : Schema} {j : Json} :
    accepts (ifThen c t) j = true ↔ (accepts c j = true → accepts t j = true) := by
  rw [accepts]
  cases accepts c j <;> simp

theorem accepts_property {key : JsString} {s : Schema} {j v : Json} (h : j.get key = some v) :
    accepts (properties [(key, s)]) j = true ↔ accepts s v = true := by
  rw [accepts, acceptsFields_iff]
  simp [h]

theorem accepts_properties_two {key key' : JsString} {s s' : Schema} {j v v' : Json} (h : j.get key = some v)
    (h' : j.get key' = some v') :
    accepts (properties [(key, s), (key', s')]) j = true ↔ accepts s v = true ∧ accepts s' v' = true := by
  rw [accepts, acceptsFields_iff]
  simp [h, h']

/-- The condition of a rule on a required property. -/
theorem accepts_when {key : JsString} {s : Schema} {j v : Json} (h : j.get key = some v) :
    accepts (allOf [properties [(key, s)], .required [key]]) j = true ↔ accepts s v = true := by
  rw [accepts_allOf, List.forall_mem_cons, List.forall_mem_singleton, accepts_property h]
  refine and_iff_left ?_
  cases j <;> simp [accepts, h]

/-! ## Objects -/

theorem accepts_closedObject {keys : List JsString} {ps : List (JsString × Schema)} {rest : List Schema} {j : Json} :
    accepts (closedObject keys ps rest) j = true ↔
      j.isPlainRecord = true ∧ (∀ k ∈ keys, k ∈ j.keys) ∧ (∀ s ∈ rest, accepts s j = true) ∧
        (∀ k ∈ j.keys, k ∈ ps.map Prod.fst) ∧ ∀ p ∈ ps, ∀ v, j.get p.1 = some v → accepts p.2 v = true := by
  have hfields : accepts (properties ps) j = true ↔ ∀ p ∈ ps, ∀ v, j.get p.1 = some v → accepts p.2 v = true := by
    rw [accepts, acceptsFields_iff]
  rw [closedObject, accepts_allOf]
  simp only [List.forall_mem_append, List.forall_mem_cons, List.not_mem_nil, false_imp_iff, implies_true, and_true, hfields,
    and_assoc, mem_keys_iff]
  cases j <;> simp [accepts, JsonType.has, Json.isPlainRecord, Json.keys, Json.get, List.lookup_isSome_iff]

/-- Fields that stand in the order of the properties are checked one by one. -/
theorem forall_properties_iff {ps : List (JsString × Schema)} (hnodup : (ps.map Prod.fst).Nodup) :
    ∀ {fs : List (JsString × Json)}, fs.map Prod.fst = ps.map Prod.fst →
      ((∀ p ∈ ps, ∀ v, (Json.obj fs).get p.1 = some v → accepts p.2 v = true) ↔
        List.Forall₂ (fun p f => accepts p.2 f.2 = true) ps fs) := by
  induction ps with
  | nil =>
    intro fs hkeys
    rw [List.map_nil, List.map_eq_nil_iff] at hkeys
    simp [hkeys]
  | cons p ps ih =>
    intro fs hkeys
    cases fs with
    | nil => cases hkeys
    | cons f fs =>
      obtain ⟨k, v⟩ := f
      rw [List.map_cons, List.map_cons, List.cons.injEq] at hkeys
      obtain ⟨rfl, hkeys⟩ := hkeys
      rw [List.map_cons, List.nodup_cons] at hnodup
      -- the first field is not read again
      have hskip : ∀ q ∈ ps, (Json.obj ((p.1, v) :: fs)).get q.1 = (Json.obj fs).get q.1 := by
        intro q hq
        have hne : q.1 ≠ p.1 := fun he => hnodup.1 (he ▸ List.mem_map_of_mem hq)
        rw [get_obj_cons, if_neg hne]
      rw [List.forall_mem_cons, List.forall₂_cons, ← ih hnodup.2 hkeys, get_obj_cons, if_pos rfl]
      simp only [Option.some.injEq, forall_eq']
      refine and_congr_right fun _ => forall₂_congr fun q hq => ?_
      rw [hskip q hq]

/-- **An object that lists its fields as the schema does.** -/
theorem accepts_literal {keys : List JsString} {ps : List (JsString × Schema)} {rest : List Schema}
    {fs : List (JsString × Json)} (hrequired : keys = ps.map Prod.fst) (hkeys : fs.map Prod.fst = ps.map Prod.fst)
    (hnodup : (ps.map Prod.fst).Nodup) :
    accepts (closedObject keys ps rest) (.obj fs) = true ↔
      (∀ s ∈ rest, accepts s (.obj fs) = true) ∧ List.Forall₂ (fun p f => accepts p.2 f.2 = true) ps fs := by
  have hlisted : (Json.obj fs).keys = ps.map Prod.fst := hkeys
  rw [accepts_closedObject, forall_properties_iff hnodup hkeys, hlisted, hrequired]
  simp [Json.isPlainRecord]

end Schema

end EnigmaMemory
