import EnigmaMemory.Proof.Json
import EnigmaMemory.Spec.Controller

/-!
# Artifacts that pass the scan

The scans collect findings with their paths; whether they find anything does not depend on the
path. `Clean` says what they look for, and `scan_ok_iff` that an artifact passes exactly when it
is clean.
-/

namespace EnigmaMemory

namespace Controller

open Json

variable {P : Platform}

/-- A field name that both scans let pass. -/
def cleanKey (key : JsString) : Bool :=
  !isForbiddenPublicKey key && !regexTest (endingRe extraForbiddenEndings) (snakeKey key)

/-- A string that the scan lets pass. -/
def cleanString (s : JsString) : Bool :=
  !regexTest secretValueRe s && !regexTest localPathRe s && !regexTest forbiddenPublicClaimRe s

/-- A value in which the scans find nothing. -/
inductive Clean : Json → Prop
  | null : Clean .null
  | bool (b : Bool) : Clean (.bool b)
  | num (q : ℚ) : Clean (.num q)
  | str {s : JsString} : cleanString s = true → Clean (.str s)
  | arr {xs : List Json} : looksLikeEmbeddingVector xs = false → (∀ x ∈ xs, Clean x) → Clean (.arr xs)
  | obj {fs : List (JsString × Json)} : (∀ f ∈ fs, cleanKey f.1 = true) → (∀ f ∈ fs, Clean f.2) → Clean (.obj fs)

theorem findingIf_eq_nil {c : Bool} {path : JsString} {m : String} : findingIf c path m = [] ↔ c = false := by
  cases c <;> simp [findingIf]

theorem scanPublicSafeString_nil {s path : JsString} : scanPublicSafeString s path = [] ↔ cleanString s = true := by
  rw [scanPublicSafeString, List.append_eq_nil_iff, List.append_eq_nil_iff, findingIf_eq_nil, findingIf_eq_nil,
    findingIf_eq_nil, cleanString]
  simp [and_assoc]

/-- Both scans find nothing in a value, wherever it stands. -/
def Passes (P : Platform) (value : Json) (path path' : JsString) : Prop :=
  scanPublicSafeValue P.toNumberFormat value path = [] ∧ scanExtraForbiddenKeys P value path' = []

theorem items_pass {Q : Json → Prop} (xs : List Json) (h : ∀ x ∈ xs, ∀ p p', Passes P x p p' ↔ Q x) :
    ∀ p p' i i', (scanPublicSafeItems P.toNumberFormat xs p i = [] ∧ scanExtraItems P xs p' i' = []) ↔ ∀ x ∈ xs, Q x := by
  induction xs with
  | nil => simp [scanPublicSafeItems, scanExtraItems]
  | cons x xs ih =>
    intro p p' i i'
    have hx := h x List.mem_cons_self (indexPath P.toNumberFormat p i) (indexPath P.toNumberFormat p' i')
    have hxs := ih (fun y hy => h y (List.mem_cons_of_mem _ hy)) p p' (i + 1) (i' + 1)
    rw [scanPublicSafeItems, scanExtraItems, List.append_eq_nil_iff, List.append_eq_nil_iff, List.forall_mem_cons, ← hx,
      ← hxs, Passes]
    tauto

theorem fields_pass {Q : Json → Prop} (fs : List (JsString × Json)) (h : ∀ f ∈ fs, ∀ p p', Passes P f.2 p p' ↔ Q f.2) :
    ∀ p p', (scanPublicSafeFields P.toNumberFormat fs p = [] ∧ scanExtraFields P fs p' = []) ↔
      ∀ f ∈ fs, cleanKey f.1 = true ∧ Q f.2 := by
  induction fs with
  | nil => simp [scanPublicSafeFields, scanExtraFields]
  | cons f fs ih =>
    intro p p'
    obtain ⟨key, value⟩ := f
    have hx := h (key, value) List.mem_cons_self (keyPath p key) (keyPath p' key)
    have hxs := ih (fun y hy => h y (List.mem_cons_of_mem _ hy)) p p'
    have hextra : (if regexTest (endingRe extraForbiddenEndings) (snakeKey key) then [keyPath p' key] else []) = [] ↔
        regexTest (endingRe extraForbiddenEndings) (snakeKey key) = false := by
      split <;> simp_all
    rw [scanPublicSafeFields, scanExtraFields, List.forall_mem_cons, ← hx, ← hxs, Passes]
    simp only [List.append_eq_nil_iff, findingIf_eq_nil, hextra, cleanKey, Bool.and_eq_true, Bool.not_eq_true']
    tauto

/-- **The scans find nothing exactly in a clean value.** -/
theorem passes_iff (value : Json) : ∀ p p', Passes P value p p' ↔ Clean value := by
  induction value using Json.ind with
  | hnull => exact fun p p' => iff_of_true ⟨rfl, rfl⟩ .null
  | hbool b => exact fun p p' => iff_of_true ⟨rfl, rfl⟩ (.bool b)
  | hnum q => exact fun p p' => iff_of_true ⟨rfl, rfl⟩ (.num q)
  | hstr s =>
    intro p p'
    rw [Passes, scanPublicSafeValue, scanPublicSafeString_nil]
    constructor
    · exact fun h => .str h.1
    · intro h
      cases h with
      | str h => exact ⟨h, rfl⟩
  | harr xs ih =>
    intro p p'
    have hitems := items_pass xs ih p p' 0 0
    rw [Passes, scanPublicSafeValue, scanExtraForbiddenKeys, List.append_eq_nil_iff, findingIf_eq_nil, and_assoc, hitems]
    constructor
    · exact fun h => .arr h.1 h.2
    · intro h
      cases h with
      | arr hvector hxs => exact ⟨hvector, hxs⟩
  | hobj fs ih =>
    intro p p'
    rw [Passes, scanPublicSafeValue, scanExtraForbiddenKeys, fields_pass fs ih]
    constructor
    · exact fun h => .obj (fun f hf => (h f hf).1) fun f hf => (h f hf).2
    · intro h
      cases h with
      | obj hkeys hfs => exact fun f hf => ⟨hkeys f hf, hfs f hf⟩

theorem scan_ok_iff (value : Json) : (scanMemoryControllerPublicSafe P value).ok = true ↔ Clean value := by
  rw [← passes_iff (P := P) value (js "$") (js "$"), PublicSafeResult.ok, List.isEmpty_iff,
    scanMemoryControllerPublicSafe, List.append_eq_nil_iff, List.map_eq_nil_iff, verifyPublicSafeArtifact,
    List.map_eq_nil_iff]
  rfl

/-- An artifact is returned as it is, if it is clean. -/
theorem assertPublicSafe_ok {value r : Json} : assertMemoryControllerPublicSafe P value = .ok r ↔ Clean value ∧ value = r := by
  unfold assertMemoryControllerPublicSafe
  by_cases h : Clean value
  · simp [(scan_ok_iff value).2 h, h]
  · simp [mt (scan_ok_iff (P := P) value).1 h, h]

/-! ## Clean objects -/

theorem Clean.field {fs : List (JsString × Json)} (h : Clean (.obj fs)) {f : JsString × Json} (hf : f ∈ fs) :
    cleanKey f.1 = true ∧ Clean f.2 := by
  cases h with
  | obj hkeys hfs => exact ⟨hkeys f hf, hfs f hf⟩

theorem Clean.get {j x : Json} (h : Clean j) {key : JsString} (hx : j.get key = some x) : Clean x := by
  cases j with
  | obj fs =>
    obtain ⟨l₁, l₂, heq, -⟩ := List.lookup_eq_some_iff.1 hx
    exact (h.field (f := (key, x)) (by rw [heq]; simp)).2
  | _ => cases hx

theorem Clean.item {xs : List Json} (h : Clean (.arr xs)) {x : Json} (hx : x ∈ xs) : Clean x := by
  cases h with
  | arr _ hxs => exact hxs x hx

/-- A clean value under a clean name keeps an object clean. -/
theorem Clean.set {j x : Json} {key : JsString} (h : Clean j) (hkey : cleanKey key = true) (hx : Clean x) :
    Clean (j.set key x) := by
  have hfields : ∀ f ∈ j.fields, cleanKey f.1 = true ∧ Clean f.2 := by
    cases j with
    | obj fs => exact fun f hf => h.field hf
    | _ => simp [Json.fields]
  have hset : ∀ f ∈ setField key x j.fields, cleanKey f.1 = true ∧ Clean f.2 := by
    intro f hf
    rcases mem_setField j.fields hf with rfl | hf
    · exact ⟨hkey, hx⟩
    · exact hfields f hf
  exact .obj (fun f hf => (hset f hf).1) fun f hf => (hset f hf).2

end Controller

end EnigmaMemory
