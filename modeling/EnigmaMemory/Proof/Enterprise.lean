import Mathlib.Data.List.Dedup
import EnigmaMemory.Lib.Result
import EnigmaMemory.Proof.Json
import EnigmaMemory.Proof.JsString
import EnigmaMemory.Proof.Reference
import EnigmaMemory.Spec.Enterprise

/-!
# Policies

The checks of a policy read its lists as sets of texts, and its legal holds one by one.

* `allowed_iff`: what a policy allows (`Permits`).
* `Stricter.permits`: a stricter policy allows no more.
* `policy_evaluation`: both, for the evaluation.
-/

namespace EnigmaMemory.Enterprise

open Json Mesh

variable {P : Platform} {policy policy' request : Json}

/-! ## Lists -/

/-- The text is that of an item of the list, and is not empty. -/
def Lists (P : Platform) (value : Option Json) (text : JsString) : Prop :=
  text ≠ [] ∧ ∃ item ∈ itemsOf value, item.toText P.toNumberFormat = text

theorem mem_uniqueStrings {value : Option Json} {text : JsString} : text ∈ uniqueStrings P value ↔ Lists P value text := by
  rw [uniqueStrings, sortStrings, List.mem_insertionSort, List.mem_dedup, List.mem_filter, List.mem_map, Lists, decide_eq_true_eq]
  exact and_comm

theorem Lists.mono {value value' : Option Json} (h : ∀ item ∈ itemsOf value, item ∈ itemsOf value') {text : JsString}
    (hlists : Lists P value text) : Lists P value' text := by
  obtain ⟨hne, item, hitem, htext⟩ := hlists
  exact ⟨hne, item, h item hitem, htext⟩

/-! ## Legal holds -/

/-- A hold covers what the request names: its memory by address or identifier, or its subject. -/
def Covers (hold request : Json) : Prop :=
  match hold with
  | .str s => bothAre (some (.str s)) (requestMemoryAddr request) = true
  | .obj fs =>
    let status := orElse ((Json.obj fs).get (js "status")) (some (holdActivity (.obj fs)))
    (truthy status = true → status = some (.str (js "active"))) ∧
      (bothAre (orElse ((Json.obj fs).get (js "memory_addr")) ((Json.obj fs).get (js "memoryAddr"))) (requestMemoryAddr request) = true ∨
        bothAre (orElse ((Json.obj fs).get (js "memory_id")) ((Json.obj fs).get (js "memoryId"))) (requestMemoryId request) = true ∨
        bothAre (orElse ((Json.obj fs).get (js "subject_id")) ((Json.obj fs).get (js "subjectId"))) (requestSubjectId request) = true)
  | _ => False

theorem bothAre_none {b : Option Json} : bothAre none b = false := rfl

/-- A hold matches by what it covers, whatever it is called and wherever it stands. -/
theorem matches_iff {hold : Json} {index : ℕ} :
    (∃ normalized, normalizeLegalHold P hold index = some normalized ∧ activeLegalHoldMatches normalized request = true) ↔
      Covers hold request := by
  cases hold with
  | str s =>
    simp [normalizeLegalHold, activeLegalHoldMatches, Covers, bothAre_none]
  | obj fs =>
    simp only [normalizeLegalHold, Option.some.injEq, exists_eq_left', Covers, activeLegalHoldMatches, get_obj_append, get_obj_cons,
      get_field, js_inj, String.reduceEq, if_false, if_true, get_obj_nil, Option.none_or, Option.or_none]
    generalize orElse ((Json.obj fs).get (js "status")) _ = status
    rw [← isStr_iff]
    cases truthy status <;> cases isStr status (js "active") <;> simp [or_assoc]
  | _ => simp [normalizeLegalHold, Covers]

theorem any_matches_iff {value : Option Json} : (normalizeLegalHolds P value).any (activeLegalHoldMatches · request) = true ↔
    ∃ hold ∈ itemsOf value, Covers hold request := by
  simp only [List.any_eq_true, normalizeLegalHolds, List.mem_insertionSort, List.mem_filterMap]
  constructor
  · rintro ⟨normalized, ⟨⟨hold, index⟩, hmem, hnormalized⟩, hmatches⟩
    exact ⟨hold, (List.mem_zipIdx' hmem).2 ▸ List.getElem_mem _, matches_iff.1 ⟨normalized, hnormalized, hmatches⟩⟩
  · rintro ⟨hold, hmem, hcovers⟩
    obtain ⟨index, hindex, rfl⟩ := List.getElem_of_mem hmem
    obtain ⟨normalized, hnormalized, hmatches⟩ : ∃ normalized, normalizeLegalHold P (itemsOf value)[index] index = some normalized ∧
        activeLegalHoldMatches normalized request = true := matches_iff.2 hcovers
    refine ⟨normalized, ⟨((itemsOf value)[index], index), ?_, hnormalized⟩, hmatches⟩
    exact List.mk_mem_zipIdx_iff_getElem?.2 (List.getElem?_eq_getElem hindex)

/-! ## What a policy allows -/

/-- The value is there, and its text is on the list. -/
def Listed (P : Platform) (value allowed : Option Json) : Prop :=
  ∃ v, value = some v ∧ truthy (some v) = true ∧ Lists P allowed (v.toText P.toNumberFormat)

/-- **What a policy allows.** -/
structure Permits (P : Platform) (policy request : Json) : Prop where
  operation : ∃ operation, operationOf P request = some operation ∧ Lists P (allowedOperations policy) operation
  provider : Listed P (request.get (js "provider")) (allowedProviders policy)
  model : Listed P (request.get (js "model")) (allowedModels policy)
  region : Listed P (request.get (js "region")) (allowedRegions policy)
  purpose : Listed P (request.get (js "purpose")) (allowedPurposes policy)
  sensitivity : ∃ v, request.get (js "sensitivity") = some v ∧ truthy (some v) = true ∧
    ¬ Lists P (deniedSensitivities policy) (v.toText P.toNumberFormat)
  unasked : asksLegalHoldDelete request = false
  unheld : operationOf P request = some (js "delete") → ∀ hold ∈ itemsOf (legalHolds policy), ¬ Covers hold request

theorem checkListed_eq_nil {dimension : Dimension} {isPresent : Bool} {value : JsString} {allowed : Option Json} :
    checkListed dimension isPresent value (uniqueStrings P allowed) = [] ↔ isPresent = true ∧ Lists P allowed value := by
  rw [checkListed, ← mem_uniqueStrings]
  cases isPresent with
  | false => simp
  | true =>
    by_cases hmem : value ∈ uniqueStrings P allowed
    · have hlength : (uniqueStrings P allowed).length ≠ 0 := (List.length_pos_of_mem hmem).ne'
      simp [hmem, hlength]
    · simp [hmem]

theorem textOrEmpty_some {v : Json} (h : truthy (some v) = true) : textOrEmpty P (some v) = v.toText P.toNumberFormat := by
  cases v with
  | null => cases h
  | _ => rfl

theorem checkField_eq_nil {dimension : Dimension} {value allowed : Option Json} :
    checkField P dimension value allowed = [] ↔ Listed P value allowed := by
  rw [checkField, checkListed_eq_nil, Listed]
  cases value with
  | none => exact iff_of_false (fun h => nomatch h.1) (fun ⟨_, h, _⟩ => nomatch h)
  | some v =>
    constructor
    · rintro ⟨htruthy, hlists⟩
      rw [textOrEmpty_some htruthy] at hlists
      exact ⟨v, rfl, htruthy, hlists⟩
    · rintro ⟨_, ⟨⟩, htruthy, hlists⟩
      exact ⟨htruthy, textOrEmpty_some htruthy ▸ hlists⟩

theorem checkSensitivity_eq_nil {value denied : Option Json} : checkSensitivity P value denied = [] ↔
    ∃ v, value = some v ∧ truthy (some v) = true ∧ ¬ Lists P denied (v.toText P.toNumberFormat) := by
  rw [checkSensitivity]
  cases value with
  | none => exact iff_of_false (fun h => nomatch h) (fun ⟨_, h, _⟩ => nomatch h)
  | some v =>
    by_cases htruthy : truthy (some v) = true
    · rw [htruthy, textOrEmpty_some htruthy]
      by_cases hdenied : Lists P denied (v.toText P.toNumberFormat)
      · simp [mem_uniqueStrings, hdenied]
      · simp [mem_uniqueStrings, hdenied, htruthy]
    · simp [htruthy]

theorem checkLegalHold_eq_nil {operation : Option JsString} {holds : Option Json} :
    checkLegalHold request operation (normalizeLegalHolds P holds) = [] ↔ asksLegalHoldDelete request = false ∧
      (operation = some (js "delete") → ∀ hold ∈ itemsOf holds, ¬ Covers hold request) := by
  have hany : (normalizeLegalHolds P holds).any (activeLegalHoldMatches · request) = true ↔
      ∃ hold ∈ itemsOf holds, Covers hold request := any_matches_iff
  rw [checkLegalHold]
  cases asksLegalHoldDelete request with
  | true =>
    refine iff_of_false ?_ (fun h => nomatch h.1)
    split <;> simp
  | false =>
    by_cases hdelete : operation = some (js "delete")
    · by_cases hheld : ∃ hold ∈ itemsOf holds, Covers hold request
      · simp only [hdelete, hany.2 hheld]
        simpa using hheld
      · have hnone := Bool.eq_false_iff.2 fun h => hheld (hany.1 h)
        simp only [hdelete, hnone]
        simpa using hheld
    · simp [hdelete]

/-- **The checks of a policy.** -/
theorem reasonCodes_eq_nil : reasonCodes P policy request = [] ↔ Permits P policy request := by
  have hoperation : (checkListed .operation ((operationOf P request).getD [] != []) ((operationOf P request).getD [])
      (uniqueStrings P (allowedOperations policy)) = []) ↔
        ∃ operation, operationOf P request = some operation ∧ Lists P (allowedOperations policy) operation := by
    rw [checkListed_eq_nil]
    cases operationOf P request with
    | none => simp
    | some operation =>
      constructor
      · exact fun h => ⟨operation, rfl, h.2⟩
      · rintro ⟨_, ⟨⟩, hlists⟩
        exact ⟨by simpa using hlists.1, hlists⟩
  simp only [reasonCodes, List.append_eq_nil_iff, hoperation, checkField_eq_nil, checkSensitivity_eq_nil, checkLegalHold_eq_nil]
  constructor
  · rintro ⟨⟨⟨⟨⟨⟨ho, hp⟩, hm⟩, hr⟩, hu⟩, hs⟩, ha, hh⟩
    exact ⟨ho, hp, hm, hr, hu, hs, ha, hh⟩
  · intro h
    exact ⟨⟨⟨⟨⟨⟨h.operation, h.provider⟩, h.model⟩, h.region⟩, h.purpose⟩, h.sensitivity⟩, h.unasked, h.unheld⟩

/-! ## Stricter policies -/

/-- Some entries of the allow lists are gone; there may be more denied sensitivities and more legal holds. -/
structure Stricter (policy policy' : Json) : Prop where
  isPolicy : isPolicy policy' = isPolicy policy
  operations : ∀ item ∈ itemsOf (allowedOperations policy'), item ∈ itemsOf (allowedOperations policy)
  providers : ∀ item ∈ itemsOf (allowedProviders policy'), item ∈ itemsOf (allowedProviders policy)
  models : ∀ item ∈ itemsOf (allowedModels policy'), item ∈ itemsOf (allowedModels policy)
  regions : ∀ item ∈ itemsOf (allowedRegions policy'), item ∈ itemsOf (allowedRegions policy)
  purposes : ∀ item ∈ itemsOf (allowedPurposes policy'), item ∈ itemsOf (allowedPurposes policy)
  sensitivities : ∀ item ∈ itemsOf (deniedSensitivities policy), item ∈ itemsOf (deniedSensitivities policy')
  holds : ∀ item ∈ itemsOf (legalHolds policy), item ∈ itemsOf (legalHolds policy')

theorem Listed.mono {value allowed allowed' : Option Json} (h : ∀ item ∈ itemsOf allowed, item ∈ itemsOf allowed')
    (hlisted : Listed P value allowed) : Listed P value allowed' := by
  obtain ⟨v, hv, htruthy, hlists⟩ := hlisted
  exact ⟨v, hv, htruthy, hlists.mono h⟩

/-- **A stricter policy allows no more.** -/
theorem Stricter.permits (h : Stricter policy policy') (hpermits : Permits P policy' request) : Permits P policy request where
  operation := by
    obtain ⟨operation, hoperation, hlists⟩ := hpermits.operation
    exact ⟨operation, hoperation, hlists.mono h.operations⟩
  provider := hpermits.provider.mono h.providers
  model := hpermits.model.mono h.models
  region := hpermits.region.mono h.regions
  purpose := hpermits.purpose.mono h.purposes
  sensitivity := by
    obtain ⟨v, hv, htruthy, hdenied⟩ := hpermits.sensitivity
    exact ⟨v, hv, htruthy, fun hlists => hdenied (hlists.mono h.sensitivities)⟩
  unasked := hpermits.unasked
  unheld hdelete hold hmem := hpermits.unheld hdelete hold (h.holds hold hmem)

/-! ## Evaluation -/

variable {time time' : ℤ} {r : EnterpriseEvaluation}

/-- An evaluation allows what the policy permits. -/
theorem allowed_iff (h : evaluateEnterprisePolicy P time policy request = .ok r) :
    r.allowed = true ↔ isPolicy policy = true ∧ Permits P policy request := by
  obtain ⟨evaluated_at, -, h⟩ := Except.bind_eq_ok.1 h
  by_cases hpolicy : isPolicy policy = true
  · rw [if_pos hpolicy] at h
    cases h
    simp [hpolicy, ← reasonCodes_eq_nil]
  · rw [if_neg hpolicy] at h
    cases h
    simp [hpolicy]

theorem evaluationTime_again {evaluated_at : JsString} (h : evaluationTime P time request = .ok evaluated_at) (time' : ℤ) :
    ∃ evaluated_at', evaluationTime P time' request = .ok evaluated_at' := by
  unfold evaluationTime at h ⊢
  split at h
  · cases h
  · split at h
    · exact ⟨evaluated_at, h⟩
    · exact ⟨P.isoText time', rfl⟩

/-- Whether a request can be evaluated is up to the request. -/
theorem evaluate_again (h : evaluateEnterprisePolicy P time policy request = .ok r) (time' : ℤ) (policy' : Json) :
    ∃ r', evaluateEnterprisePolicy P time' policy' request = .ok r' := by
  obtain ⟨evaluated_at, htime, -⟩ := Except.bind_eq_ok.1 h
  obtain ⟨evaluated_at', htime'⟩ := evaluationTime_again htime time'
  by_cases hpolicy : isPolicy policy' = true
  · exact ⟨_, Except.bind_eq_ok.2 ⟨evaluated_at', htime', if_pos hpolicy⟩⟩
  · exact ⟨_, Except.bind_eq_ok.2 ⟨evaluated_at', htime', if_neg hpolicy⟩⟩

/-- **Policies are monotone, and allow what they permit.** What a policy denies is denied by every stricter
one, at any time. A policy allows a request when the operation, the provider, the model, the region
and the purpose are listed, the sensitivity is given and not denied, the request does not ask for the
deletion of something held, and no legal hold covers what an operation `delete` is about. -/
theorem policy_evaluation (P : Platform) (time : ℤ) (policy request : Json) (r : EnterpriseEvaluation)
    (h : evaluateEnterprisePolicy P time policy request = .ok r) :
    (∀ policy' time', Stricter policy policy' → r.allowed = false →
      ∃ r', evaluateEnterprisePolicy P time' policy' request = .ok r' ∧ r'.allowed = false) ∧
    (isPolicy policy = true → (r.allowed = true ↔ Permits P policy request)) := by
  constructor
  · intro policy' time' hstricter hdenied
    obtain ⟨r', hr'⟩ := evaluate_again h time' policy'
    refine ⟨r', hr', ?_⟩
    by_contra hallowed
    obtain ⟨hpolicy, hpermits⟩ := (allowed_iff hr').1 (Bool.not_eq_false _ ▸ hallowed)
    have hallows := (allowed_iff h).2 ⟨hstricter.isPolicy ▸ hpolicy, hstricter.permits hpermits⟩
    rw [hdenied] at hallows
    cases hallows
  · intro hpolicy
    rw [allowed_iff h]
    exact and_iff_right hpolicy

/-! ## A policy and two requests -/

/-- A policy that allows `read` of everything called `a`. -/
def samplePolicy : Json :=
  .obj [(js "schema", .str POLICY_SCHEMA), (js "allowed_operations", .str (js "read")), (js "allowed_providers", .str (js "a")),
    (js "allowed_models", .str (js "a")), (js "allowed_regions", .str (js "a")), (js "allowed_purposes", .str (js "a"))]

def sampleRequest (asks : Bool) : Json :=
  .obj [(js "operation", .str (js "read")), (js "provider", .str (js "a")), (js "model", .str (js "a")), (js "region", .str (js "a")),
    (js "purpose", .str (js "a")), (js "sensitivity", .str (js "low")), (js "legal_hold_delete", .bool asks)]

theorem isPolicy_sample : isPolicy samplePolicy = true := by simp [isPolicy, samplePolicy, isPlainRecord]

theorem lists_single {s : JsString} (h : s ≠ []) : Lists P (some (.str s)) s := ⟨h, .str s, List.mem_singleton.2 rfl, rfl⟩

theorem listed_single {s : JsString} (h : s ≠ []) : Listed P (some (.str s)) (some (.str s)) :=
  ⟨.str s, rfl, by simpa [truthy] using h, lists_single h⟩

/-- The request meets every condition of the policy that reads its fields. -/
theorem sample_permits (asks : Bool) : (∃ operation, operationOf P (sampleRequest asks) = some operation ∧
      Lists P (allowedOperations samplePolicy) operation) ∧
    Listed P ((sampleRequest asks).get (js "provider")) (allowedProviders samplePolicy) ∧
    Listed P ((sampleRequest asks).get (js "model")) (allowedModels samplePolicy) ∧
    Listed P ((sampleRequest asks).get (js "region")) (allowedRegions samplePolicy) ∧
    Listed P ((sampleRequest asks).get (js "purpose")) (allowedPurposes samplePolicy) ∧
    (∃ v, (sampleRequest asks).get (js "sensitivity") = some v ∧ truthy (some v) = true ∧
      ¬ Lists P (deniedSensitivities samplePolicy) (v.toText P.toNumberFormat)) ∧
    itemsOf (legalHolds samplePolicy) = [] := by
  have ha : js "a" ≠ [] := by simp [js, utf16]
  refine ⟨⟨js "read", ?_, ?_⟩, ?_, ?_, ?_, ?_, ⟨.str (js "low"), ?_, ?_, ?_⟩, ?_⟩
  · simp [operationOf, sampleRequest, js, utf16, toText]
  · exact lists_single (by simp [js, utf16])
  · simpa [sampleRequest, samplePolicy, allowedProviders, orElse] using listed_single ha
  · simpa [sampleRequest, samplePolicy, allowedModels, orElse] using listed_single ha
  · simpa [sampleRequest, samplePolicy, allowedRegions, orElse] using listed_single ha
  · simpa [sampleRequest, samplePolicy, allowedPurposes, orElse] using listed_single ha
  · simp [sampleRequest]
  · simp [truthy, js, utf16]
  · simp [Lists, deniedSensitivities, samplePolicy, firstOf, orElse, itemsOf]
  · simp [legalHolds, samplePolicy, orElse, itemsOf]

theorem exists_sample (asks : Bool) : ∃ r, evaluateEnterprisePolicy P 0 samplePolicy (sampleRequest asks) = .ok r := by
  have htime : evaluationTime P 0 (sampleRequest asks) = .ok (P.isoText 0) := by simp [evaluationTime, sampleRequest, nowIso]
  exact ⟨_, Except.bind_eq_ok.2 ⟨_, htime, if_pos isPolicy_sample⟩⟩

/-- **A request that asks for the deletion of something held is denied** though there is no legal hold. -/
theorem unheld_deletion_denied : isPolicy samplePolicy = true ∧
    ((∃ operation, operationOf reference (sampleRequest true) = some operation ∧
        Lists reference (allowedOperations samplePolicy) operation) ∧
      Listed reference ((sampleRequest true).get (js "provider")) (allowedProviders samplePolicy) ∧
      Listed reference ((sampleRequest true).get (js "model")) (allowedModels samplePolicy) ∧
      Listed reference ((sampleRequest true).get (js "region")) (allowedRegions samplePolicy) ∧
      Listed reference ((sampleRequest true).get (js "purpose")) (allowedPurposes samplePolicy) ∧
      (∃ v, (sampleRequest true).get (js "sensitivity") = some v ∧ truthy (some v) = true ∧
        ¬ Lists reference (deniedSensitivities samplePolicy) (v.toText reference.toNumberFormat)) ∧
      itemsOf (legalHolds samplePolicy) = []) ∧
    ∃ r, evaluateEnterprisePolicy reference 0 samplePolicy (sampleRequest true) = .ok r ∧ r.allowed = false := by
  obtain ⟨r, hr⟩ := exists_sample (P := reference) true
  refine ⟨isPolicy_sample, sample_permits true, r, hr, ?_⟩
  by_contra hallowed
  have hunasked := ((allowed_iff hr).1 (Bool.not_eq_false _ ▸ hallowed)).2.unasked
  simp [asksLegalHoldDelete, sampleRequest, strictEq, sameValue] at hunasked

/-- The other request is allowed. -/
theorem policy_evaluation_sample : ∃ r, evaluateEnterprisePolicy reference 0 samplePolicy (sampleRequest false) = .ok r ∧
    (∀ policy' time', Stricter samplePolicy policy' → r.allowed = false →
      ∃ r', evaluateEnterprisePolicy reference time' policy' (sampleRequest false) = .ok r' ∧ r'.allowed = false) ∧
    r.allowed = true := by
  obtain ⟨r, hr⟩ := exists_sample (P := reference) false
  obtain ⟨hmonotone, hallowed⟩ := policy_evaluation reference 0 samplePolicy (sampleRequest false) r hr
  obtain ⟨ho, hp, hm, hg, hu, hs, hnone⟩ := sample_permits (P := reference) false
  refine ⟨r, hr, hmonotone, (hallowed isPolicy_sample).2 ⟨ho, hp, hm, hg, hu, hs, ?_, ?_⟩⟩
  · simp [asksLegalHoldDelete, sampleRequest, strictEq, sameValue]
  · rw [hnone]
    intro _ _ h
    cases h

end EnigmaMemory.Enterprise
