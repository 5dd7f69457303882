import EnigmaMemory.Lib.Result
import EnigmaMemory.Proof.PackVerdict
import EnigmaMemory.Proof.PublicSafe
import EnigmaMemory.Proof.Reference

/-!
# Decisions on recall requests

A request names its operations and its memory zones one by one and in lists; the decision
collapses each scope to one value before it looks for a grant.

* `allow_covered_iff`: an allowed request is covered by a live grant whatever grants are
  supplied, exactly when its lists name nothing beyond the collapsed values.
-/

namespace EnigmaMemory

namespace Controller

open Json

variable {P : Platform} {options grant r : Json} {s : Scope}

/-! ## Checks -/

theorem normalizeRequiredString_ok {value : Option Json} {field t : JsString}
    (h : normalizeRequiredString value field = .ok t) : value = some (.str t) ∧ t ≠ [] := by
  unfold normalizeRequiredString at h
  split at h
  · split at h
    · cases h
    · rename_i hne
      cases h
      exact ⟨rfl, hne⟩
  · cases h

theorem normalizePublicRef_ok {value : Option Json} {field t : JsString} (h : normalizePublicRef value field = .ok t) :
    value = some (.str t) ∧ publicRefTest t = true := by
  obtain ⟨u, hu, h⟩ := Except.bind_eq_ok.1 h
  split at h
  · rename_i htest
    cases h
    exact ⟨(normalizeRequiredString_ok hu).1, htest⟩
  · cases h

theorem normalizeMember_ok {accepted : List JsString} {value : Option Json} {field message t : JsString}
    (h : normalizeMember accepted value field message = .ok t) : value = some (.str t) ∧ t ∈ accepted := by
  obtain ⟨u, hu, h⟩ := Except.bind_eq_ok.1 h
  split at h
  · rename_i hmem
    cases h
    exact ⟨(normalizeRequiredString_ok hu).1, hmem⟩
  · cases h

theorem assertPlainRecord_ok {value : Json} {name : JsString} {u : Unit} :
    assertPlainRecord value name = .ok u ↔ value.isPlainRecord = true := by
  cases h : value.isPlainRecord <;> simp [assertPlainRecord, h]

theorem mem_uniqueSorted {xs : List JsString} {a : JsString} : a ∈ uniqueSorted xs ↔ a ∈ xs := by
  rw [uniqueSorted, sortStrings, List.mem_insertionSort, ← OrdSet.mem_def, OrdSet.mem_ofList]

theorem uniqueSorted_eq_nil {xs : List JsString} : uniqueSorted xs = [] ↔ xs = [] := by
  simp only [List.eq_nil_iff_forall_not_mem, mem_uniqueSorted]

theorem faultIf_eq_nil {c : Bool} {code : JsString} : faultIf c code = [] ↔ c = false := by
  cases c <;> simp [faultIf]

/-! ## Verified grants -/

/-- The checks on the form of a grant. -/
structure WellShaped (P : Platform) (grant : Json) : Prop where
  keys : ∀ key ∈ grant.keys, key ∈ consentGrantFields
  schema : grant.get (js "schema") = some (.str grantSchema)
  app_ref : isPublicRef (grant.get (js "app_ref")) = true
  purpose_ref : isPublicRef (grant.get (js "purpose_ref")) = true
  operations : isOperationArray (grant.get (js "operations")) = true
  memory_zone_refs : isPublicRefArray (grant.get (js "memory_zone_refs")) = true
  issued_at : isDateTime P (grant.get (js "issued_at")) = true
  expires_at : isDateTime P (grant.get (js "expires_at")) = true
  status : isMember grantStatuses (grant.get (js "status")) = true
  grant_ref : isPublicRef (grant.get (js "grant_ref")) = true
  policy_ref : isPublicRef (grant.get (js "policy_ref")) = true
  proof_refs : isPublicRefArray (grant.get (js "proof_refs")) = true
  receipt_refs : isPublicRefArray (grant.get (js "receipt_refs")) = true
  boundary : ∀ f ∈ boundaryFields, strictEq (grant.get f.1) (some f.2) = true

theorem shapeFaults_nil : shapeFaults P grant = [] ↔ WellShaped P grant := by
  have hkeys : (grant.keys.flatMap fun key => if key ∈ consentGrantFields then []
      else [(js "UNKNOWN_FIELD:" ++ key, js "BAD_SHAPE")]) = [] ↔ ∀ key ∈ grant.keys, key ∈ consentGrantFields := by
    rw [List.flatMap_eq_nil_iff]
    refine forall₂_congr fun key _ => ?_
    split <;> simp_all
  have hboundary : (boundaryFields.flatMap fun f => faultIf (!strictEq (grant.get f.1) (some f.2)) (js "BAD_" ++ upperCase f.1)) = [] ↔
      ∀ f ∈ boundaryFields, strictEq (grant.get f.1) (some f.2) = true := by
    rw [List.flatMap_eq_nil_iff]
    refine forall₂_congr fun f _ => ?_
    rw [faultIf_eq_nil, Bool.not_eq_false']
  unfold shapeFaults
  simp only [List.append_eq_nil_iff, faultIf_eq_nil, Bool.not_eq_false', hkeys, hboundary, isStr_iff]
  constructor
  · rintro ⟨⟨⟨⟨⟨⟨⟨⟨⟨⟨⟨⟨⟨h1, h2⟩, h3⟩, h4⟩, h5⟩, h6⟩, h7⟩, h8⟩, h9⟩, h10⟩, h11⟩, h12⟩, h13⟩, h14⟩
    exact ⟨h1, h2, h3, h4, h5, h6, h7, h8, h9, h10, h11, h12, h13, h14⟩
  · rintro ⟨h1, h2, h3, h4, h5, h6, h7, h8, h9, h10, h11, h12, h13, h14⟩
    exact ⟨⟨⟨⟨⟨⟨⟨⟨⟨⟨⟨⟨⟨h1, h2⟩, h3⟩, h4⟩, h5⟩, h6⟩, h7⟩, h8⟩, h9⟩, h10⟩, h11⟩, h12⟩, h13⟩, h14⟩

theorem verification_ok {faults : List Fault} {hash : Option JsString} :
    (verification faults hash).ok = true ↔ faults = [] := by
  rw [Verification.ok, List.isEmpty_iff, verification, uniqueSorted_eq_nil, List.map_eq_nil_iff]

/-- **What a verified grant has passed.** -/
theorem verifyConsentGrant_ok {v : Verification} (h : verifyConsentGrant P grant options = .ok v) (hok : v.ok = true) :
    ∃ now, nowOption P options = .ok now ∧ grant.isPlainRecord = true ∧ Clean grant ∧ WellShaped P grant ∧
      validityFaults P grant options now = [] ∧ compareScope grant options = [] := by
  unfold verifyConsentGrant at h
  split at h
  · cases h
    rw [verification_ok] at hok
    cases hok
  · rename_i hrecord
    obtain ⟨now, hnow, h⟩ := Except.bind_eq_ok.1 h
    cases Except.pure_eq_ok.1 h
    rw [verification_ok] at hok
    simp only [List.append_eq_nil_iff, faultIf_eq_nil, Bool.not_eq_false', scan_ok_iff, shapeFaults_nil] at hok
    obtain ⟨⟨⟨hclean, hshape⟩, hvalid⟩, hscope⟩ := hok
    exact ⟨now, hnow, by simpa using hrecord, hclean, hshape, hvalid, hscope⟩

theorem verifyConsentGrant_of {now : ℤ} (hnow : nowOption P options = .ok now) (hrecord : grant.isPlainRecord = true)
    (hclean : Clean grant) (hshape : WellShaped P grant) (hvalid : validityFaults P grant options now = [])
    (hscope : compareScope grant options = []) : ∃ v, verifyConsentGrant P grant options = .ok v ∧ v.ok = true := by
  refine ⟨verification [] (scanMemoryControllerPublicSafe P grant).public_hash, ?_, verification_ok.2 rfl⟩
  have hscan := (scan_ok_iff (P := P) grant).2 hclean
  simp only [verifyConsentGrant, hrecord, hnow, hscan, shapeFaults_nil.2 hshape, hvalid, hscope, bind, Except.bind, pure,
    Except.pure]
  rfl

/-- The grant that is selected, if it is verified, is one of the candidates. -/
theorem selectLoop_ok {scope g : Json} {v : Verification} (hok : v.ok = true) (candidates : List Json) :
    ∀ first, (∀ h u, first = some (h, u) → u.ok = false) → selectLoop P scope first candidates = .ok (some (g, v)) →
      g ∈ candidates ∧ verifyConsentGrant P g scope = .ok v := by
  induction candidates with
  | nil =>
    intro first hfirst h
    rw [selectLoop] at h
    rw [hfirst g v (Except.ok.inj h)] at hok
    cases hok
  | cons c rest ih =>
    intro first hfirst h
    rw [selectLoop] at h
    obtain ⟨u, hu, h⟩ := Except.bind_eq_ok.1 h
    split at h
    · cases h
      exact ⟨List.mem_cons_self, hu⟩
    · -- a grant that fails may only become the first one
      rename_i hno
      obtain ⟨hmem, hv⟩ := ih (first.or (some (c, u))) (by
        intro h' u' heq
        cases first with
        | none =>
          cases heq
          exact eq_false_of_ne_true hno
        | some p => exact hfirst h' u' heq) h
      exact ⟨List.mem_cons_of_mem _ hmem, hv⟩

/-! ## Decisions -/

theorem createRecallVetoDecision_ok : createRecallVetoDecision P options = .ok r ↔
    ∃ s policyRef c selected, options.isPlainRecord = true ∧ recallScope options = .ok s ∧
      refOption options "policy_ref" "policyRef" "ref:policy:default" = .ok policyRef ∧
      normalizeRecallCounts options = .ok c ∧ selectGrant P options s = .ok selected ∧
      vetoArtifact P options s policyRef c (recallVerdict c selected) = .ok r := by
  unfold createRecallVetoDecision
  simp only [Except.bind_eq_ok, assertPlainRecord_ok]
  constructor
  · rintro ⟨-, hrecord, s, hs, policyRef, hpolicy, c, hc, selected, hselected, h⟩
    exact ⟨s, policyRef, c, selected, hrecord, hs, hpolicy, hc, hselected, h⟩
  · rintro ⟨s, policyRef, c, selected, hrecord, hs, hpolicy, hc, hselected, h⟩
    exact ⟨(), hrecord, s, hs, policyRef, hpolicy, c, hc, selected, hselected, h⟩

/-- An artifact is made of checked references and codes, and is clean. -/
theorem vetoArtifact_ok {policyRef : JsString} {c : RecallCounts} {verdict : Verdict}
    (h : vetoArtifact P options s policyRef c verdict = .ok r) :
    ∃ requestRef reasonCodes grantRefs proofRefs receiptRefs, publicRefTest requestRef = true ∧
      normalizeReasonCodes P (orElse (option options "reason_codes" "reasonCodes") (some (strings verdict.reason_codes)))
        = .ok reasonCodes ∧
      (∃ value, normalizePublicRefArray P value (js "grant_refs") = .ok grantRefs) ∧
      (∃ value, normalizeNonEmptyPublicRefArray P value (js "proof_refs") = .ok proofRefs) ∧
      (∃ value, normalizeNonEmptyPublicRefArray P value (js "receipt_refs") = .ok receiptRefs) ∧ Clean r ∧
      r = vetoJson requestRef s.app_ref policyRef verdict.decision (uniqueSorted reasonCodes) c grantRefs proofRefs receiptRefs := by
  obtain ⟨requestRef, hrequest, h⟩ := Except.bind_eq_ok.1 h
  obtain ⟨reasonCodes, hreasons, h⟩ := Except.bind_eq_ok.1 h
  obtain ⟨grantRefs, hgrants, h⟩ := Except.bind_eq_ok.1 h
  obtain ⟨proofRefs, hproofs, h⟩ := Except.bind_eq_ok.1 h
  obtain ⟨receiptRefs, hreceipts, h⟩ := Except.bind_eq_ok.1 h
  obtain ⟨hclean, rfl⟩ := assertPublicSafe_ok.1 h
  exact ⟨requestRef, reasonCodes, grantRefs, proofRefs, receiptRefs, (normalizePublicRef_ok hrequest).2, hreasons,
    ⟨_, hgrants⟩, ⟨_, hproofs⟩, ⟨_, hreceipts⟩, hclean, rfl⟩

theorem countReasons_nil {c : RecallCounts} (h : countReasons c = []) : c.tombstone_count = 0 ∧ c.sensitive_count = 0 := by
  unfold countReasons at h
  simp only [List.append_eq_nil_iff] at h
  obtain ⟨⟨htombstones, hsensitive⟩, -⟩ := h
  constructor
  · by_contra hne
    rw [if_pos (Nat.pos_of_ne_zero hne)] at htombstones
    cases htombstones
  · by_contra hne
    rw [if_pos (Nat.pos_of_ne_zero hne)] at hsensitive
    cases hsensitive

/-- A request is allowed only on counts that say nothing against it and a verified grant. -/
theorem recallVerdict_allow {c : RecallCounts} {selected : Option (Json × Verification)} :
    (recallVerdict c selected).decision = .allow ↔
      countReasons c = [] ∧ ∃ g v, selected = some (g, v) ∧ v.ok = true := by
  unfold recallVerdict
  by_cases hreasons : countReasons c = []
  · rw [hreasons]
    rcases selected with _ | ⟨g, v⟩
    · simp
    · by_cases hok : v.ok = true
      · simp [hok]
      · by_cases hrevoked : js "REVOKED" ∈ v.reason_codes
        · simp [hok, hrevoked]
        · by_cases hexpired : js "EXPIRED" ∈ v.reason_codes <;> simp [hok, hrevoked, hexpired]
  · simp [hreasons]

theorem recallVerdict_of_ok {c : RecallCounts} {g : Json} {v : Verification} (hc : countReasons c = []) (hok : v.ok = true) :
    recallVerdict c (some (g, v)) = ⟨.allow, [], (g.get (js "grant_ref")).toList⟩ := by
  simp [recallVerdict, hc, hok]

/-! ## The scope a grant is checked against -/

theorem recallScope_ok (h : recallScope options = .ok s) :
    requestedOperation options = some (.str s.operation) ∧ s.operation ∈ grantOperations ∧
      requestedZone options = some (.str s.memory_zone_ref) ∧ publicRefTest s.memory_zone_ref = true := by
  obtain ⟨appRef, happ, h⟩ := Except.bind_eq_ok.1 h
  obtain ⟨operation, hoperation, h⟩ := Except.bind_eq_ok.1 h
  obtain ⟨zone, hzone, h⟩ := Except.bind_eq_ok.1 h
  obtain ⟨purposeRef, hpurpose, h⟩ := Except.bind_eq_ok.1 h
  cases Except.pure_eq_ok.1 h
  have ho := normalizeMember_ok hoperation
  have hz := normalizePublicRef_ok hzone
  exact ⟨ho.1, ho.2, hz.1, hz.2⟩

theorem get_scopeJson (key : JsString) : (scopeJson options s).get key =
    if key = js "app_ref" then some (.str s.app_ref) else if key = js "operation" then some (.str s.operation)
    else if key = js "memory_zone_ref" then some (.str s.memory_zone_ref)
    else if key = js "purpose_ref" then some (.str s.purpose_ref)
    else ((if key = js "now" then orElse (options.get (js "now")) (some defaultNow) else none).or
      (if key = js "revoked_grant_refs" then option options "revoked_grant_refs" "revokedGrantRefs" else none)) := by
  rw [scopeJson, List.cons_append, List.cons_append, List.cons_append, List.cons_append]
  simp only [List.cons_append, List.nil_append, get_obj_cons, get_obj_append, get_field]

theorem expectedOperations_scope : expectedOperations (scopeJson options s) = [some (.str s.operation)] := by
  have h : (scopeJson options s).get (js "operations") = none := by
    rw [get_scopeJson]
    rfl
  rw [expectedOperations, h]
  rfl

theorem expectedZones_scope : expectedMemoryZoneRefs (scopeJson options s) = [some (.str s.memory_zone_ref)] := by
  have h : (scopeJson options s).get (js "memory_zone_refs") = none := by
    rw [get_scopeJson]
    rfl
  have h' : (scopeJson options s).get (js "memoryZoneRefs") = none := by
    rw [get_scopeJson]
    rfl
  rw [expectedMemoryZoneRefs, h, h']
  rfl

theorem includesValue_orElse (a x : Option Json) : includesValue (orElse a none) x = includesValue a x := by
  rcases a with _ | (_ | _ | _ | _ | _ | _) <;> rfl

theorem includesValue_str {value : Option Json} {t : JsString} :
    includesValue value (some (.str t)) = true ↔ ∃ xs, value = some (.arr xs) ∧ Json.str t ∈ xs := by
  unfold includesValue
  split
  · rename_i xs v heq
    cases heq
    simp [hasValue, sameValue_str]
  · rename_i hno
    refine iff_of_false Bool.false_ne_true ?_
    rintro ⟨xs, rfl, -⟩
    exact hno xs _ rfl rfl

/-- The scope of a request fits a grant. -/
theorem compareScope_nil : compareScope grant (scopeJson options s) = [] ↔
    grant.get (js "app_ref") = some (.str s.app_ref) ∧ grant.get (js "purpose_ref") = some (.str s.purpose_ref) ∧
      includesValue (grant.get (js "operations")) (some (.str s.operation)) = true ∧
      includesValue (grant.get (js "memory_zone_refs")) (some (.str s.memory_zone_ref)) = true := by
  have happ : option (scopeJson options s) "app_ref" "appRef" = some (.str s.app_ref) := rfl
  have hpurpose : option (scopeJson options s) "purpose_ref" "purposeRef" = some (.str s.purpose_ref) := rfl
  unfold compareScope
  simp only [happ, hpurpose, expectedOperations_scope, expectedZones_scope, List.append_eq_nil_iff, faultIf_eq_nil,
    Option.isSome_some, Bool.true_and, Bool.not_eq_false', List.any_cons, List.any_nil, Bool.or_false, strictEq_str, and_assoc]

/-- A grant that is no longer good at a time: over, revoked, or listed as revoked. -/
def Lapsed (P : Platform) (options grant : Json) (now : ℤ) : Prop :=
  (grant.get (js "status") = some (.str (js "expired")) ∨
    ∃ t, dateTime P (grant.get (js "expires_at")) = some t ∧ t ≤ now) ∨
  grant.get (js "status") = some (.str (js "revoked")) ∨
  containsRef (option options "revoked_grant_refs" "revokedGrantRefs") (grant.get (js "grant_ref")) = true

theorem validityFaults_eq_nil {now : ℤ} : validityFaults P grant options now = [] ↔
    ¬ Lapsed P options grant now ∧ options.get (js "revoked") ≠ some (.bool true) := by
  unfold validityFaults Lapsed
  rw [List.append_eq_nil_iff, List.append_eq_nil_iff, faultIf_eq_nil, faultIf_eq_nil, faultIf_eq_nil, ← Bool.not_eq_true,
    ← Bool.not_eq_true, ← Bool.not_eq_true, Bool.or_eq_true, Bool.or_eq_true, isStr_iff, isStr_iff, strictEq_bool]
  simp only [not_or]
  cases dateTime P (grant.get (js "expires_at")) with
  | none =>
    simp only [Bool.false_eq_true, reduceCtorEq, false_and, exists_false, not_false_eq_true, and_true]
    constructor
    · rintro ⟨⟨hexpired, hrevoked, hoption⟩, hlisted⟩
      exact ⟨⟨hexpired, hrevoked, hlisted⟩, hoption⟩
    · rintro ⟨⟨hexpired, hrevoked, hlisted⟩, hoption⟩
      exact ⟨⟨hexpired, hrevoked, hoption⟩, hlisted⟩
  | some t =>
    simp only [decide_eq_true_eq, Option.some.injEq, exists_eq_left']
    constructor
    · rintro ⟨⟨hexpired, hrevoked, hoption⟩, hlisted⟩
      exact ⟨⟨hexpired, hrevoked, hlisted⟩, hoption⟩
    · rintro ⟨⟨hexpired, hrevoked, hlisted⟩, hoption⟩
      exact ⟨⟨hexpired, hrevoked, hoption⟩, hlisted⟩

/-- Of the three statuses of a grant one is neither over nor revoked. -/
theorem status_active (hstatus : isMember grantStatuses (grant.get (js "status")) = true)
    (hexpired : grant.get (js "status") ≠ some (.str (js "expired")))
    (hrevoked : grant.get (js "status") ≠ some (.str (js "revoked"))) :
    grant.get (js "status") = some (.str (js "active")) := by
  unfold isMember at hstatus
  split at hstatus
  · rename_i t heq
    rw [heq] at hexpired hrevoked
    have hmem : t ∈ grantStatuses := of_decide_eq_true hstatus
    simp only [grantStatuses, List.mem_cons, List.not_mem_nil, or_false] at hmem
    rcases hmem with rfl | rfl | rfl
    · exact heq
    · exact absurd rfl hexpired
    · exact absurd rfl hrevoked
  · cases hstatus

theorem active_of_not_lapsed {now : ℤ} (hshape : WellShaped P grant) (h : ¬ Lapsed P options grant now) :
    grant.get (js "status") = some (.str (js "active")) :=
  status_active hshape.status (fun hexpired => h (.inl (.inl hexpired))) fun hrevoked => h (.inr (.inl hrevoked))

/-- The scope of a request carries its time and its revoked grants. -/
theorem lapsed_scope {now : ℤ} : Lapsed P (scopeJson options s) grant now ↔ Lapsed P options grant now := by
  have hoption : option (scopeJson options s) "revoked_grant_refs" "revokedGrantRefs" =
      orElse (option options "revoked_grant_refs" "revokedGrantRefs") none := by
    rw [option, get_scopeJson, get_scopeJson]
    rfl
  have hlisted : containsRef (option (scopeJson options s) "revoked_grant_refs" "revokedGrantRefs") (grant.get (js "grant_ref")) =
      containsRef (option options "revoked_grant_refs" "revokedGrantRefs") (grant.get (js "grant_ref")) := by
    rw [hoption]
    exact includesValue_orElse _ _
  unfold Lapsed
  rw [hlisted]

/-! ## Coverage -/

/-- The items of a list of the request. -/
def listed (options : Json) (key : String) : List Json := (arrayItems (options.get (js key))).getD []

/-- A grant names a value in one of its lists. -/
def Names (grant : Json) (key : String) (x : Json) : Prop := ∃ xs, grant.get (js key) = some (.arr xs) ∧ x ∈ xs

/-- **A live grant that covers a request**: one of the supplied grants, active and not revoked, for the application and
the purpose of the request, that names every requested operation and every requested zone. -/
structure CoveredBy (options : Json) (s : Scope) (g : Json) : Prop where
  supplied : g ∈ suppliedGrants options
  not_revoked : containsRef (option options "revoked_grant_refs" "revokedGrantRefs") (g.get (js "grant_ref")) = false
  active : g.get (js "status") = some (.str (js "active"))
  app_ref : g.get (js "app_ref") = some (.str s.app_ref)
  purpose_ref : g.get (js "purpose_ref") = some (.str s.purpose_ref)
  operations : ∀ x ∈ Json.str s.operation :: listed options "operations", Names g "operations" x
  memory_zone_refs : ∀ z ∈ Json.str s.memory_zone_ref :: listed options "memory_zone_refs", Names g "memory_zone_refs" z

/-- An allowed request is covered, and there is nothing deleted or sensitive among the candidates. -/
def AllowCovered (P : Platform) (options : Json) : Prop :=
  ∀ r, createRecallVetoDecision P options = .ok r → r.get (js "decision") = some (.str (js "allow")) →
    (∃ s, recallScope options = .ok s ∧ ∃ g, CoveredBy options s g) ∧
      r.get (js "tombstone_count") = some (.num 0) ∧ r.get (js "sensitive_count") = some (.num 0)

/-- The lists of a request name nothing beyond the operation and the zone it is decided for. -/
def OneScope (options : Json) : Prop :=
  (∀ x ∈ listed options "operations", requestedOperation options = some x) ∧
    ∀ z ∈ listed options "memory_zone_refs", requestedZone options = some z

/-- The request with other grants. -/
def supply (options : Json) (grants : List Json) : Json := (options.set (js "grant") .null).set (js "grants") (.arr grants)

/-- What a request has been allowed on. -/
theorem allow_inv (h : createRecallVetoDecision P options = .ok r) (hallow : r.get (js "decision") = some (.str (js "allow"))) :
    ∃ s policyRef c g v, recallScope options = .ok s ∧
      refOption options "policy_ref" "policyRef" "ref:policy:default" = .ok policyRef ∧
      normalizeRecallCounts options = .ok c ∧ countReasons c = [] ∧ g ∈ suppliedGrants options ∧
      verifyConsentGrant P g (scopeJson options s) = .ok v ∧ v.ok = true ∧
      vetoArtifact P options s policyRef c ⟨.allow, [], (g.get (js "grant_ref")).toList⟩ = .ok r := by
  obtain ⟨s, policyRef, c, selected, -, hs, hpolicy, hc, hselected, hr⟩ := createRecallVetoDecision_ok.1 h
  have hdecision : (recallVerdict c selected).decision = .allow := by
    obtain ⟨_, _, _, _, _, -, -, -, -, -, -, rfl⟩ := vetoArtifact_ok hr
    have htext : (recallVerdict c selected).decision.text = js "allow" := Json.str.inj (Option.some.inj hallow)
    revert htext
    cases (recallVerdict c selected).decision
    · exact fun _ => rfl
    · exact fun htext => absurd htext (by decide)
    · exact fun htext => absurd htext (by decide)
  obtain ⟨hreasons, g, v, rfl, hok⟩ := recallVerdict_allow.1 hdecision
  obtain ⟨hmem, hv⟩ := selectLoop_ok hok _ none (fun _ _ hnone => nomatch hnone) hselected
  rw [recallVerdict_of_ok hreasons hok] at hr
  exact ⟨s, policyRef, c, g, v, hs, hpolicy, hc, hreasons, hmem, hv, hok, hr⟩

/-- A request whose lists add nothing is covered by the grant it was allowed on. -/
theorem allowCovered_of_oneScope (hone : OneScope options) : AllowCovered P options := by
  intro r h hallow
  obtain ⟨s, policyRef, c, g, v, hs, -, -, hreasons, hmem, hv, hok, hr⟩ := allow_inv h hallow
  obtain ⟨now, -, -, -, hshape, hvalid, hscope⟩ := verifyConsentGrant_ok hv hok
  have hlive : ¬ Lapsed P options g now := fun h => (validityFaults_eq_nil.1 hvalid).1 (lapsed_scope.2 h)
  have hlisted : containsRef (option options "revoked_grant_refs" "revokedGrantRefs") (g.get (js "grant_ref")) = false :=
    eq_false_of_ne_true fun h => hlive (.inr (.inr h))
  obtain ⟨happ, hpurpose, hoperation, hzone⟩ := compareScope_nil.1 hscope
  obtain ⟨hoperation', -, hzone', -⟩ := recallScope_ok hs
  have hoperations : ∀ x ∈ Json.str s.operation :: listed options "operations", x = .str s.operation := by
    refine List.forall_mem_cons.2 ⟨rfl, fun x hx => ?_⟩
    exact Option.some.inj ((hone.1 x hx).symm.trans hoperation')
  have hzones : ∀ z ∈ Json.str s.memory_zone_ref :: listed options "memory_zone_refs", z = .str s.memory_zone_ref := by
    refine List.forall_mem_cons.2 ⟨rfl, fun z hz => ?_⟩
    exact Option.some.inj ((hone.2 z hz).symm.trans hzone')
  obtain ⟨_, _, _, _, _, -, -, -, -, -, -, rfl⟩ := vetoArtifact_ok hr
  obtain ⟨htombstones, hsensitive⟩ := countReasons_nil hreasons
  refine ⟨⟨s, hs, g, hmem, hlisted, active_of_not_lapsed hshape hlive, happ, hpurpose, ?_, ?_⟩, ?_, ?_⟩
  · intro x hx
    rw [hoperations x hx]
    exact includesValue_str.1 hoperation
  · intro z hz
    rw [hzones z hz]
    exact includesValue_str.1 hzone
  · change some (Json.num c.tombstone_count) = _
    rw [htombstones]
    rfl
  · change some (Json.num c.sensitive_count) = _
    rw [hsensitive]
    rfl

/-! ## A request that names more -/

/-- Two requests that differ at most in the grants they supply. -/
def SameRequest (o o' : Json) : Prop := ∀ key, key ≠ js "grant" → key ≠ js "grants" → o.get key = o'.get key

theorem sameRequest_supply (grants : List Json) : SameRequest (supply options grants) options := by
  intro key h h'
  rw [supply, get_set, get_set, if_neg h', if_neg h]

theorem suppliedGrants_supply (grants : List Json) : suppliedGrants (supply options grants) = grants := by
  have hgrant : (supply options grants).get (js "grant") = some .null := by
    rw [supply, get_set, get_set]
    rfl
  have hgrants : (supply options grants).get (js "grants") = some (.arr grants) := by
    rw [supply, get_set]
    rfl
  rw [suppliedGrants, hgrant, hgrants]
  rfl

/-- The grant, cut down to one operation and one zone. -/
def narrowed (g : Json) (s : Scope) : Json :=
  (g.set (js "operations") (strings [s.operation])).set (js "memory_zone_refs") (strings [s.memory_zone_ref])

theorem get_narrowed {g : Json} {key : JsString} (h : key ≠ js "operations") (h' : key ≠ js "memory_zone_refs") :
    (narrowed g s).get key = g.get key := by
  rw [narrowed, get_set, get_set, if_neg h', if_neg h]

theorem narrowed_operations (g : Json) : (narrowed g s).get (js "operations") = some (strings [s.operation]) := by
  rw [narrowed, get_set, get_set]
  rfl

theorem narrowed_zones (g : Json) : (narrowed g s).get (js "memory_zone_refs") = some (strings [s.memory_zone_ref]) := by
  rw [narrowed, get_set]
  rfl

theorem clean_singleton {value : Option Json} {t : JsString} (hclean : ∀ x, value = some x → Clean x)
    (h : includesValue value (some (.str t)) = true) : Clean (strings [t]) := by
  obtain ⟨xs, rfl, hmem⟩ := includesValue_str.1 h
  refine .arr rfl fun x hx => ?_
  rw [List.mem_singleton.1 hx]
  exact (hclean _ rfl).item hmem

theorem wellShaped_narrowed {g : Json} (h : WellShaped P g) (hs : recallScope options = .ok s) :
    WellShaped P (narrowed g s) := by
  obtain ⟨-, hoperation, -, hzone⟩ := recallScope_ok hs
  have hget : ∀ key, key ≠ js "operations" → key ≠ js "memory_zone_refs" → (narrowed g s).get key = g.get key :=
    fun key h h' => get_narrowed h h'
  constructor
  · intro key hkey
    rcases mem_keys_set.1 hkey with rfl | hkey
    · decide
    · rcases mem_keys_set.1 hkey with rfl | hkey
      · decide
      · exact h.keys key hkey
  · exact (hget _ (by decide) (by decide)).trans h.schema
  · exact (hget (js "app_ref") (by decide) (by decide)) ▸ h.app_ref
  · exact (hget (js "purpose_ref") (by decide) (by decide)) ▸ h.purpose_ref
  · rw [narrowed_operations]
    simp [isOperationArray, strings, distinctValues, hasValue, isMember, hoperation]
  · rw [narrowed_zones]
    simp [isPublicRefArray, strings, distinctValues, hasValue, isPublicRef, hzone]
  · exact (hget (js "issued_at") (by decide) (by decide)) ▸ h.issued_at
  · exact (hget (js "expires_at") (by decide) (by decide)) ▸ h.expires_at
  · exact (hget (js "status") (by decide) (by decide)) ▸ h.status
  · exact (hget (js "grant_ref") (by decide) (by decide)) ▸ h.grant_ref
  · exact (hget (js "policy_ref") (by decide) (by decide)) ▸ h.policy_ref
  · exact (hget (js "proof_refs") (by decide) (by decide)) ▸ h.proof_refs
  · exact (hget (js "receipt_refs") (by decide) (by decide)) ▸ h.receipt_refs
  · intro f hf
    have hne : ∀ f ∈ boundaryFields, f.1 ≠ js "operations" ∧ f.1 ≠ js "memory_zone_refs" := by decide
    rw [hget f.1 (hne f hf).1 (hne f hf).2]
    exact h.boundary f hf

/-- A grant that is verified for a scope is still verified when it names nothing else. -/
theorem verified_narrowed {g : Json} {v : Verification} (hs : recallScope options = .ok s)
    (h : verifyConsentGrant P g (scopeJson options s) = .ok v) (hok : v.ok = true) :
    ∃ v', verifyConsentGrant P (narrowed g s) (scopeJson options s) = .ok v' ∧ v'.ok = true := by
  obtain ⟨now, hnow, -, hclean, hshape, hvalid, hscope⟩ := verifyConsentGrant_ok h hok
  obtain ⟨happ, hpurpose, hoperation, hzone⟩ := compareScope_nil.1 hscope
  have hkeys : cleanKey (js "operations") = true ∧ cleanKey (js "memory_zone_refs") = true := by decide
  refine verifyConsentGrant_of hnow rfl ?_ (wellShaped_narrowed hshape hs) ?_ ?_
  · refine (hclean.set hkeys.1 ?_).set hkeys.2 ?_
    · exact clean_singleton (fun _ hx => hclean.get hx) hoperation
    · exact clean_singleton (fun _ hx => hclean.get hx) hzone
  · have hkeep : ∀ key, key ≠ js "operations" → key ≠ js "memory_zone_refs" → (narrowed g s).get key = g.get key :=
      fun key h h' => get_narrowed h h'
    rw [← hvalid]
    unfold validityFaults
    rw [hkeep (js "status") (by decide) (by decide), hkeep (js "expires_at") (by decide) (by decide),
      hkeep (js "grant_ref") (by decide) (by decide)]
  · rw [compareScope_nil, get_narrowed (by decide) (by decide), get_narrowed (by decide) (by decide), narrowed_operations,
      narrowed_zones]
    exact ⟨happ, hpurpose, includesValue_str.2 ⟨_, rfl, by simp⟩, includesValue_str.2 ⟨_, rfl, by simp⟩⟩

/-! Apart from the grants themselves, a decision does not depend on which grants are supplied. -/

section SameRequest

variable {o o' : Json} (hsame : SameRequest o o')
include hsame

theorem option_congr {snake camel : String} (h : ∀ key ∈ [js snake, js camel], key ≠ js "grant" ∧ key ≠ js "grants") :
    option o snake camel = option o' snake camel := by
  have h1 := h _ List.mem_cons_self
  have h2 := h (js camel) (by simp)
  rw [option, option, hsame _ h1.1 h1.2, hsame _ h2.1 h2.2]

theorem listed_congr {key : String} (h : js key ≠ js "grant") (h' : js key ≠ js "grants") : listed o key = listed o' key := by
  rw [listed, listed, hsame _ h h']

theorem refOption_congr {snake camel default : String}
    (h : ∀ key ∈ [js snake, js camel], key ≠ js "grant" ∧ key ≠ js "grants") :
    refOption o snake camel default = refOption o' snake camel default := by
  rw [refOption, refOption, option_congr hsame h]

theorem requestedOperation_congr : requestedOperation o = requestedOperation o' := by
  rw [requestedOperation, requestedOperation, hsame _ (by decide) (by decide), hsame _ (by decide) (by decide)]

theorem requestedZone_congr : requestedZone o = requestedZone o' := by
  rw [requestedZone, requestedZone, hsame _ (by decide) (by decide), hsame _ (by decide) (by decide),
    hsame _ (by decide) (by decide)]

theorem recallScope_congr : recallScope o = recallScope o' := by
  rw [recallScope, recallScope, refOption_congr hsame (by decide), refOption_congr hsame (by decide),
    requestedOperation_congr hsame, requestedZone_congr hsame]

theorem normalizeRecallCounts_congr : normalizeRecallCounts o = normalizeRecallCounts o' := by
  simp only [normalizeRecallCounts, countOption]
  rw [option_congr hsame (by decide), option_congr hsame (by decide), option_congr hsame (by decide)]

theorem scopeJson_congr : scopeJson o s = scopeJson o' s := by
  rw [scopeJson, scopeJson, hsame _ (by decide) (by decide), option_congr hsame (by decide)]

theorem vetoArtifact_congr {policyRef : JsString} {c : RecallCounts} {verdict : Verdict} :
    vetoArtifact P o s policyRef c verdict = vetoArtifact P o' s policyRef c verdict := by
  simp only [vetoArtifact, refsOption]
  rw [option_congr hsame (by decide), option_congr hsame (by decide), option_congr hsame (by decide),
    option_congr hsame (by decide), option_congr hsame (by decide)]

end SameRequest

/-- **Covered exactly when the request names one scope.** A request whose lists add nothing to the operation and the zone
it is decided for is never allowed without a live grant that covers it. A request whose lists name more, and that some
grants get allowed, is allowed on a grant that does not cover it. -/
theorem allow_covered_iff (P : Platform) (options : Json) : (OneScope options → AllowCovered P options) ∧
    ((∃ grants r, createRecallVetoDecision P (supply options grants) = .ok r ∧
        r.get (js "decision") = some (.str (js "allow"))) →
      ((∀ grants, AllowCovered P (supply options grants)) ↔ OneScope options)) := by
  refine ⟨allowCovered_of_oneScope, ?_⟩
  rintro ⟨grants, r, h, hallow⟩
  constructor
  · intro hcovered
    obtain ⟨s, policyRef, c, g, v, hs, hpolicy, hc, hreasons, -, hv, hok, hr⟩ := allow_inv h hallow
    rw [recallScope_congr (sameRequest_supply _)] at hs
    rw [refOption_congr (sameRequest_supply _) (by decide)] at hpolicy
    rw [normalizeRecallCounts_congr (sameRequest_supply _)] at hc
    rw [scopeJson_congr (sameRequest_supply _)] at hv
    rw [vetoArtifact_congr (sameRequest_supply _)] at hr
    -- the same request is allowed on a grant that names the collapsed scope only
    obtain ⟨v', hv', hok'⟩ := verified_narrowed hs hv hok
    have hnarrow : SameRequest (supply options [narrowed g s]) options := sameRequest_supply _
    have hselected : selectGrant P (supply options [narrowed g s]) s = .ok (some (narrowed g s, v')) := by
      rw [selectGrant, suppliedGrants_supply, scopeJson_congr (sameRequest_supply _), selectLoop, hv']
      simp [bind, Except.bind, hok']
    have hallowed : createRecallVetoDecision P (supply options [narrowed g s]) = .ok r := by
      refine createRecallVetoDecision_ok.2 ⟨s, policyRef, c, some (narrowed g s, v'), rfl, (recallScope_congr hnarrow).trans hs,
        (refOption_congr hnarrow (by decide)).trans hpolicy, (normalizeRecallCounts_congr hnarrow).trans hc, hselected, ?_⟩
      rw [recallVerdict_of_ok hreasons hok', vetoArtifact_congr (sameRequest_supply _), get_narrowed (by decide) (by decide)]
      exact hr
    obtain ⟨⟨s', hs', g', hg'⟩, -⟩ := hcovered [narrowed g s] r hallowed hallow
    rw [recallScope_congr (sameRequest_supply _), hs] at hs'
    cases hs'
    have hmem := hg'.supplied
    rw [suppliedGrants_supply, List.mem_singleton] at hmem
    cases hmem
    obtain ⟨hoperation, -, hzone, -⟩ := recallScope_ok hs
    constructor
    · intro x hx
      obtain ⟨xs, hxs, hmem⟩ := hg'.operations x
        (List.mem_cons_of_mem _ (by rwa [listed_congr (sameRequest_supply _) (by decide) (by decide)]))
      rw [narrowed_operations] at hxs
      cases hxs
      rw [hoperation, List.mem_singleton.1 hmem]
    · intro z hz
      obtain ⟨zs, hzs, hmem⟩ := hg'.memory_zone_refs z
        (List.mem_cons_of_mem _ (by rwa [listed_congr (sameRequest_supply _) (by decide) (by decide)]))
      rw [narrowed_zones] at hzs
      cases hzs
      rw [hzone, List.mem_singleton.1 hmem]
  · intro hone grants'
    refine allowCovered_of_oneScope ?_
    rw [OneScope, listed_congr (sameRequest_supply _) (by decide) (by decide), listed_congr (sameRequest_supply _) (by decide) (by decide), requestedOperation_congr (sameRequest_supply _),
      requestedZone_congr (sameRequest_supply _)]
    exact hone

/-! ## A reading application -/

/-- A grant to recall context. -/
def readerGrant : Json :=
  grantJson (js "ref:app:reader") (js "ref:purpose:notes") [js "recall_context"] [js "ref:zone:default"] Reference.epochText
    Reference.newYearText (js "active") (js "ref:grant:1") (js "ref:policy:default") [js "ref:proof:1"] [js "ref:receipt:1"]

def readerRequest (operations : List JsString) : Json :=
  .obj [(js "app_ref", .str (js "ref:app:reader")), (js "purpose_ref", .str (js "ref:purpose:notes")),
    (js "operations", strings operations), (js "request_ref", .str (js "ref:request:1")),
    (js "proof_refs", strings [js "ref:proof:2"]), (js "receipt_refs", strings [js "ref:receipt:2"])]

def isAllowed (result : Except JsError Json) : Bool :=
  match result with
  | .ok r => Json.isStr (r.get (js "decision")) (js "allow")
  | .error _ => false

theorem isAllowed_iff {result : Except JsError Json} : isAllowed result = true ↔
    ∃ r, result = .ok r ∧ r.get (js "decision") = some (.str (js "allow")) := by
  cases result <;> simp [isAllowed]

/-- Both requests of the reader are allowed: to recall, and to recall and to delete. -/
theorem reader_allowed : isAllowed (createRecallVetoDecision reference (supply (readerRequest [js "recall_context"]) [readerGrant])) = true ∧
    isAllowed (createRecallVetoDecision reference
      (supply (readerRequest [js "recall_context", js "delete_local"]) [readerGrant])) = true := by decide +kernel

theorem allow_covered_reader : OneScope (readerRequest [js "recall_context"]) ∧
    AllowCovered reference (supply (readerRequest [js "recall_context"]) [readerGrant]) := by
  have hone : OneScope (readerRequest [js "recall_context"]) := by
    constructor
    · intro x hx
      rw [List.mem_singleton.1 hx]
      rfl
    · exact fun z hz => nomatch hz
  obtain ⟨r, hr⟩ := isAllowed_iff.1 reader_allowed.1
  exact ⟨hone, ((allow_covered_iff reference (readerRequest [js "recall_context"])).2 ⟨[readerGrant], r, hr⟩).2 hone _⟩

/-- The grant lets the application recall, the request asks to recall and to delete, and it is allowed. -/
theorem uncovered_deletion_allowed :
    ¬ AllowCovered reference (supply (readerRequest [js "recall_context", js "delete_local"]) [readerGrant]) := by
  intro hcovered
  obtain ⟨r, hr, hallow⟩ := isAllowed_iff.1 reader_allowed.2
  obtain ⟨⟨s, -, g, hg⟩, -⟩ := hcovered r hr hallow
  have hsupplied := hg.supplied
  rw [suppliedGrants_supply, List.mem_singleton] at hsupplied
  obtain ⟨xs, hxs, hmem⟩ := hg.operations (.str (js "delete_local")) (by
    rw [listed_congr (sameRequest_supply _) (by decide) (by decide)]
    exact List.mem_cons_of_mem _ (List.mem_cons_of_mem _ List.mem_cons_self))
  rw [hsupplied] at hxs
  cases hxs
  have heq := Json.str.inj (List.mem_singleton.1 hmem)
  exact absurd heq (by decide)

end Controller

end EnigmaMemory
