import EnigmaMemory.Proof.Append
import EnigmaMemory.Proof.JsonSchema
import EnigmaMemory.Proof.RecallVeto
import EnigmaMemory.Spec.ControllerSchemas

/-!
# Constructors and their schemas

Which artifacts of the memory controller the published schemas accept. Most values are checked
or derived by the constructors; what a caller can still get wrong is named by a condition on the
arguments.

* `constructors_schema_iff`: each constructor stays inside its schema exactly under its condition.
-/

namespace EnigmaMemory

namespace Controller

open Json Schema

variable {P : Platform} {options r : Json}

/-! ## Checked values -/

/-- Different public references. -/
structure RefSet (refs : List JsString) : Prop where
  nodup : refs.Nodup
  accepted : ∀ t ∈ refs, publicRefTest t = true

/-- Different strings from a list. -/
structure CodeSet (accepted codes : List JsString) : Prop where
  nodup : codes.Nodup
  mem : ∀ t ∈ codes, t ∈ accepted

theorem nodup_uniqueSorted (xs : List JsString) : (uniqueSorted xs).Nodup :=
  (List.perm_insertionSort _ _).nodup_iff.2 (OrdSet.ofList xs).nodup

theorem refOption_ok {snake camel default : String} {t : JsString} (h : refOption options snake camel default = .ok t) :
    publicRefTest t = true := (normalizePublicRef_ok h).2

/-- References are checked one by one, and none is lost. -/
theorem normalizePublicRefArray_ok {value : Option Json} {field : JsString} {refs : List JsString}
    (h : normalizePublicRefArray P value field = .ok refs) : RefSet refs ∧ (refs = [] ↔ value = some (.arr [])) := by
  unfold normalizePublicRefArray at h
  split at h
  · rename_i xs
    obtain ⟨ts, hts, h⟩ := Except.bind_eq_ok.1 h
    cases Except.pure_eq_ok.1 h
    refine ⟨⟨nodup_uniqueSorted ts, fun t ht => ?_⟩, ?_⟩
    · obtain ⟨x, -, hx⟩ := Except.exists_of_mem_mapM hts (mem_uniqueSorted.1 ht)
      exact (normalizePublicRef_ok hx).2
    · have hlength := Except.length_of_mapM hts
      rw [List.length_zipIdx] at hlength
      rw [uniqueSorted_eq_nil, ← List.length_eq_zero_iff, hlength, List.length_eq_zero_iff]
      simp
  · cases h

theorem normalizeNonEmptyPublicRefArray_ok {value : Option Json} {field : JsString} {refs : List JsString}
    (h : normalizeNonEmptyPublicRefArray P value field = .ok refs) : RefSet refs ∧ refs ≠ [] := by
  obtain ⟨ts, hts, h⟩ := Except.bind_eq_ok.1 h
  split at h
  · cases h
  · rename_i hne
    cases h
    exact ⟨(normalizePublicRefArray_ok hts).1, by simpa using hne⟩

theorem normalizeOperations_ok {value : Option Json} {operations : List JsString}
    (h : normalizeOperations value = .ok operations) : CodeSet grantOperations operations ∧ operations ≠ [] := by
  unfold normalizeOperations at h
  split at h
  · obtain ⟨ts, hts, h⟩ := Except.bind_eq_ok.1 h
    split at h
    · cases h
    · rename_i hne
      cases h
      refine ⟨⟨nodup_uniqueSorted ts, fun t ht => ?_⟩, fun hnil => hne ?_⟩
      · obtain ⟨x, -, hx⟩ := Except.exists_of_mem_mapM hts (mem_uniqueSorted.1 ht)
        exact (normalizeMember_ok hx).2
      · rw [uniqueSorted_eq_nil] at hnil
        rw [hnil]
        rfl
  · cases h

/-- Codes that are given stay, and no others are added. -/
theorem normalizeReasonCodes_ok {value : Option Json} {codes : List JsString} (h : normalizeReasonCodes P value = .ok codes) :
    CodeSet recallReasonCodes (uniqueSorted codes) ∧ (uniqueSorted codes = [] ↔ value = some (.arr [])) := by
  unfold normalizeReasonCodes at h
  split at h
  · refine ⟨⟨nodup_uniqueSorted codes, fun t ht => ?_⟩, ?_⟩
    · obtain ⟨x, -, hx⟩ := Except.exists_of_mem_mapM h (mem_uniqueSorted.1 ht)
      exact (normalizeMember_ok hx).2
    · have hlength := Except.length_of_mapM h
      rw [List.length_zipIdx] at hlength
      rw [uniqueSorted_eq_nil, ← List.length_eq_zero_iff, hlength, List.length_eq_zero_iff]
      simp
  · cases h

theorem normalizeIssueCodes_ok {value : Option Json} {codes : List JsString} (h : normalizeIssueCodes P value = .ok codes) :
    CodeSet weatherIssueCodes codes := by
  unfold normalizeIssueCodes at h
  split at h
  · obtain ⟨ts, hts, h⟩ := Except.bind_eq_ok.1 h
    cases Except.pure_eq_ok.1 h
    refine ⟨nodup_uniqueSorted ts, fun t ht => ?_⟩
    obtain ⟨x, -, hx⟩ := Except.exists_of_mem_mapM hts (mem_uniqueSorted.1 ht)
    exact (normalizeMember_ok hx).2
  · cases h

/-! ## Accepted values -/

@[simp] theorem accepts_publicRef {t : JsString} : accepts publicRefSchema (.str t) = true ↔ publicRefTest t = true := by
  rw [publicRefSchema, accepts_pattern]
  simp

theorem accepts_refs {refs : List JsString} (h : RefSet refs) (least : ℕ) :
    accepts (setOf least publicRefSchema) (Controller.strings refs) = true ↔ least ≤ refs.length := by
  rw [Controller.strings, accepts_setOf_strings]
  have hpublic : ∀ t ∈ refs, accepts publicRefSchema (.str t) = true := fun t ht => accepts_publicRef.2 (h.accepted t ht)
  exact ⟨fun hall => hall.1, fun hlength => ⟨hlength, hpublic, h.nodup⟩⟩

theorem accepts_codes {accepted codes : List JsString} (h : CodeSet accepted codes) (least : ℕ) :
    accepts (setOf least (Schema.strings accepted)) (Controller.strings codes) = true ↔ least ≤ codes.length := by
  rw [Controller.strings, accepts_setOf_strings]
  have hmem : ∀ t ∈ codes, accepts (Schema.strings accepted) (.str t) = true :=
    fun t ht => accepts_strings.2 ⟨t, h.mem t ht, rfl⟩
  exact ⟨fun hall => hall.1, fun hlength => ⟨hlength, hmem, h.nodup⟩⟩

theorem accepts_refs_one {refs : List JsString} (h : RefSet refs) :
    accepts (setOf 1 publicRefSchema) (Controller.strings refs) = true ↔ refs ≠ [] := by
  rw [accepts_refs h, Nat.succ_le_iff, List.length_pos_iff]

theorem accepts_nonempty_refs {refs : List JsString} (h : RefSet refs ∧ refs ≠ []) :
    accepts (setOf 1 publicRefSchema) (Controller.strings refs) = true := (accepts_refs_one h.1).2 h.2

theorem accepts_boundary : List.Forall₂ (fun p f => accepts p.2 f.2 = true) boundaryProperties boundaryFields := by
  rw [boundaryProperties, List.forall₂_map_left_iff, List.forall₂_same]
  intro f _
  rw [accepts]
  exact equalJson_self f.2

/-! ## Consent grants -/

/-- A default with an item keeps apart what is given empty. -/
theorem orElse_eq_nil {a : Option Json} {b : Json} (hb : b ≠ .arr []) :
    orElse a (some b) = some (.arr []) ↔ a = some (.arr []) := by
  unfold orElse
  split <;> simp_all

theorem grant_accepted_iff (h : createConsentGrant P options = .ok r) :
    accepts consentGrantJsonSchema r = true ↔ option options "memory_zone_refs" "memoryZoneRefs" ≠ some (.arr []) := by
  obtain ⟨-, -, h⟩ := Except.bind_eq_ok.1 h
  obtain ⟨issuedAt, -, h⟩ := Except.bind_eq_ok.1 h
  obtain ⟨expiresAt, -, h⟩ := Except.bind_eq_ok.1 h
  obtain ⟨appRef, happ, h⟩ := Except.bind_eq_ok.1 h
  obtain ⟨purposeRef, hpurpose, h⟩ := Except.bind_eq_ok.1 h
  obtain ⟨operations, hoperations, h⟩ := Except.bind_eq_ok.1 h
  obtain ⟨zoneRefs, hzones, h⟩ := Except.bind_eq_ok.1 h
  obtain ⟨status, hstatus, h⟩ := Except.bind_eq_ok.1 h
  obtain ⟨policyRef, hpolicy, h⟩ := Except.bind_eq_ok.1 h
  obtain ⟨grantRef, hgrant, h⟩ := Except.bind_eq_ok.1 h
  obtain ⟨proofRefs, hproofs, h⟩ := Except.bind_eq_ok.1 h
  obtain ⟨receiptRefs, hreceipts, h⟩ := Except.bind_eq_ok.1 h
  obtain ⟨-, rfl⟩ := assertPublicSafe_ok.1 h
  have hz := normalizePublicRefArray_ok hzones
  have ho := normalizeOperations_ok hoperations
  have hempty : accepts (setOf 1 publicRefSchema) (Controller.strings zoneRefs) = true ↔
      option options "memory_zone_refs" "memoryZoneRefs" ≠ some (.arr []) := by
    rw [accepts_refs_one hz.1, ne_eq, hz.2, orElse_eq_nil (by simp)]
  have hrequired : consentGrantFields = grantProperties.map Prod.fst := rfl
  have hnodup : (grantProperties.map Prod.fst).Nodup := by decide +kernel
  rw [consentGrantJsonSchema, grantJson, accepts_literal hrequired rfl hnodup, ← hempty]
  constructor
  · rintro ⟨-, hfields⟩
    simp only [grantProperties, List.cons_append, List.forall₂_cons] at hfields
    exact hfields.2.2.2.2.1
  · intro hzoneRefs
    refine ⟨by simp, ?_⟩
    simp only [grantProperties, List.cons_append, List.forall₂_cons]
    exact ⟨accepts_const_str.2 rfl, accepts_publicRef.2 (refOption_ok happ), accepts_publicRef.2 (refOption_ok hpurpose),
      (accepts_codes ho.1 1).2 (List.length_pos_iff.2 ho.2), hzoneRefs, rfl, rfl,
      accepts_strings.2 ⟨status, (normalizeMember_ok hstatus).2, rfl⟩, accepts_publicRef.2 (normalizePublicRef_ok hgrant).2,
      accepts_publicRef.2 (refOption_ok hpolicy), accepts_nonempty_refs (normalizeNonEmptyPublicRefArray_ok hproofs),
      accepts_nonempty_refs (normalizeNonEmptyPublicRefArray_ok hreceipts), accepts_boundary⟩

/-! ## Recall decisions -/

/-- A request that no count speaks against and that one of its grants covers. -/
def Allowed (P : Platform) (options : Json) : Prop :=
  ∃ s c g v, recallScope options = .ok s ∧ normalizeRecallCounts options = .ok c ∧ countReasons c = [] ∧
    selectGrant P options s = .ok (some (g, v)) ∧ v.ok = true

theorem allowed_iff {s : Scope} {c : RecallCounts} {selected : Option (Json × Verification)}
    (hs : recallScope options = .ok s) (hc : normalizeRecallCounts options = .ok c)
    (hselected : selectGrant P options s = .ok selected) :
    Allowed P options ↔ (recallVerdict c selected).decision = .allow := by
  rw [recallVerdict_allow]
  constructor
  · rintro ⟨s', c', g, v, hs', hc', hreasons, hg, hok⟩
    cases Except.ok.inj (hs.symm.trans hs')
    cases Except.ok.inj (hc.symm.trans hc')
    exact ⟨hreasons, g, v, Except.ok.inj (hselected.symm.trans hg), hok⟩
  · rintro ⟨hreasons, g, v, rfl, hok⟩
    exact ⟨s, c, g, v, hs, hc, hreasons, hselected, hok⟩

/-- A verdict without reasons allows the request. -/
theorem allow_of_no_reasons {c : RecallCounts} {selected : Option (Json × Verification)}
    (h : (recallVerdict c selected).reason_codes = []) : (recallVerdict c selected).decision = .allow := by
  unfold recallVerdict at h ⊢
  by_cases hreasons : countReasons c = []
  · rw [hreasons] at h ⊢
    rcases selected with _ | ⟨g, v⟩
    · simp at h
    · by_cases hok : v.ok = true
      · simp [hok]
      · by_cases hrevoked : js "REVOKED" ∈ v.reason_codes
        · simp [hok, hrevoked] at h
        · by_cases hexpired : js "EXPIRED" ∈ v.reason_codes <;> simp [hok, hrevoked, hexpired] at h
  · simp [hreasons] at h

theorem recallScope_app {s : Scope} (h : recallScope options = .ok s) : publicRefTest s.app_ref = true := by
  obtain ⟨appRef, happ, h⟩ := Except.bind_eq_ok.1 h
  obtain ⟨operation, -, h⟩ := Except.bind_eq_ok.1 h
  obtain ⟨zone, -, h⟩ := Except.bind_eq_ok.1 h
  obtain ⟨purposeRef, -, h⟩ := Except.bind_eq_ok.1 h
  cases Except.pure_eq_ok.1 h
  exact refOption_ok happ

/-- The rules on decisions ask for a reason unless the request is allowed. -/
theorem vetoRules_iff {requestRef appRef policyRef : JsString} {decision : Decision} {codes : List JsString} {c : RecallCounts}
    {grantRefs proofRefs receiptRefs : List JsString} :
    accepts (allOf [allowRule, refusalRule])
      (vetoJson requestRef appRef policyRef decision codes c grantRefs proofRefs receiptRefs) = true ↔
      decision = .allow ∨ codes ≠ [] := by
  set j := vetoJson requestRef appRef policyRef decision codes c grantRefs proofRefs receiptRefs with hj
  have hdecision : j.get (js "decision") = some (.str decision.text) := rfl
  have hcodes : j.get (js "reason_codes") = some (Controller.strings codes) := rfl
  have hsafe : j.get (js "safe_to_share") = some (.bool (decision == .allow)) := rfl
  have henum : ∀ t, accepts (enum [.str (js "ask"), .str (js "deny")]) (.str t) = true ↔ t = js "ask" ∨ t = js "deny" := by
    intro t
    simp [accepts, equalJson_str]
  have hitems : accepts (minItems 1) (Controller.strings codes) = true ↔ codes ≠ [] := by
    simp [accepts, Controller.strings, Nat.one_le_iff_ne_zero]
  rw [accepts_allOf, List.forall_mem_cons, List.forall_mem_singleton, allowRule, refusalRule, accepts_ifThen, accepts_ifThen,
    accepts_when hdecision, accepts_when hdecision, accepts_property hsafe, accepts_properties_two hcodes hsafe, henum, hitems,
    accepts_const_str, accepts_const_bool, accepts_const_bool]
  cases decision with
  | allow => simp [Decision.text, js, utf16]
  | ask => simp [Decision.text]
  | deny => simp [Decision.text]

theorem veto_accepted_iff (h : createRecallVetoDecision P options = .ok r) :
    accepts recallVetoDecisionJsonSchema r = true ↔
      option options "reason_codes" "reasonCodes" ≠ some (.arr []) ∨ Allowed P options := by
  obtain ⟨s, policyRef, c, selected, -, hs, hpolicy, hc, hselected, h⟩ := createRecallVetoDecision_ok.1 h
  obtain ⟨requestRef, codes, grantRefs, proofRefs, receiptRefs, hrequest, hcodes, ⟨_, hgrants⟩, ⟨_, hproofs⟩, ⟨_, hreceipts⟩, -, rfl⟩ :=
    vetoArtifact_ok h
  have hset := normalizeReasonCodes_ok hcodes
  have hdecision : (recallVerdict c selected).decision.text ∈ recallDecisions := by
    cases (recallVerdict c selected).decision <;> decide
  -- without given codes the verdict brings its own, unless it allows the request
  have hempty : (recallVerdict c selected).decision = .allow ∨ uniqueSorted codes ≠ [] ↔
      option options "reason_codes" "reasonCodes" ≠ some (.arr []) ∨ (recallVerdict c selected).decision = .allow := by
    by_cases hgiven : option options "reason_codes" "reasonCodes" = some (.arr [])
    · have hnil : uniqueSorted codes = [] := hset.2.2 (by rw [hgiven]; rfl)
      simp [hgiven, hnil]
    · refine iff_of_true ?_ (Or.inl hgiven)
      refine or_iff_not_imp_right.2 fun hnil => allow_of_no_reasons ?_
      by_contra hreasons
      refine hgiven ((orElse_eq_nil ?_).1 (hset.2.1 (not_not.1 hnil)))
      simpa [Controller.strings] using hreasons
  have hnodup : (vetoProperties.map Prod.fst).Nodup := by decide
  have hrequired : vetoRequired = vetoProperties.map Prod.fst := rfl
  rw [allowed_iff hs hc hselected, ← hempty, ← vetoRules_iff, recallVetoDecisionJsonSchema, vetoJson,
    accepts_literal hrequired rfl hnodup, List.forall_mem_singleton]
  refine and_iff_left ?_
  simp only [vetoProperties, List.cons_append, List.forall₂_cons]
  exact ⟨accepts_const_str.2 rfl, accepts_publicRef.2 hrequest, accepts_publicRef.2 (recallScope_app hs),
    accepts_publicRef.2 (refOption_ok hpolicy), accepts_strings.2 ⟨_, hdecision, rfl⟩, (accepts_codes hset.1 0).2 (Nat.zero_le _),
    accepts_count.2 ⟨_, rfl⟩, accepts_count.2 ⟨_, rfl⟩, accepts_count.2 ⟨_, rfl⟩,
    (accepts_refs (normalizePublicRefArray_ok hgrants).1 0).2 (Nat.zero_le _),
    accepts_nonempty_refs (normalizeNonEmptyPublicRefArray_ok hproofs),
    accepts_nonempty_refs (normalizeNonEmptyPublicRefArray_ok hreceipts), rfl, accepts_boundary⟩

/-! ## Private bubbles -/

theorem isRoot_merkleRootFor (kind : String) (value : Json) (omitted : List JsString) :
    isRoot (merkleRootFor P kind value omitted) = true := isRoot_computeSetRoot _

theorem accepts_root (kind : String) (value : Json) (omitted : List JsString) :
    accepts sha256DigestSchema (.str (merkleRootFor P kind value omitted)) = true := by
  rw [sha256DigestSchema, accepts_pattern]
  exact ⟨_, rfl, isRoot_merkleRootFor kind value omitted⟩

theorem nodup_bubbleProperties : (bubbleProperties.map Prod.fst).Nodup := by decide

theorem bubbleRequired_eq : bubbleRequired = bubbleProperties.map Prod.fst := rfl

/-- A bubble that is opened fits its schema. -/
theorem bubble_accepted (h : createPrivateMemoryBubble P options = .ok r) : accepts privateMemoryBubbleJsonSchema r = true := by
  obtain ⟨-, -, h⟩ := Except.bind_eq_ok.1 h
  obtain ⟨startedAt, -, h⟩ := Except.bind_eq_ok.1 h
  obtain ⟨appRefs, happs, h⟩ := Except.bind_eq_ok.1 h
  obtain ⟨purposeRef, hpurpose, h⟩ := Except.bind_eq_ok.1 h
  obtain ⟨candidateCount, -, h⟩ := Except.bind_eq_ok.1 h
  obtain ⟨bubbleRef, hbubble, h⟩ := Except.bind_eq_ok.1 h
  obtain ⟨receiptRefs, hreceipts, h⟩ := Except.bind_eq_ok.1 h
  obtain ⟨-, rfl⟩ := assertPublicSafe_ok.1 h
  refine (accepts_literal bubbleRequired_eq rfl nodup_bubbleProperties).2 ⟨by simp, ?_⟩
  simp only [bubbleProperties, List.cons_append, List.forall₂_cons]
  exact ⟨accepts_const_str.2 rfl, accepts_publicRef.2 (normalizePublicRef_ok hbubble).2,
    accepts_nonempty_refs (normalizeNonEmptyPublicRefArray_ok happs), accepts_publicRef.2 (refOption_ok hpurpose),
    accepts_strings.2 ⟨js "open", by decide, rfl⟩, rfl, rfl, accepts_count.2 ⟨_, rfl⟩, accepts_count.2 ⟨0, rfl⟩,
    accepts_count.2 ⟨0, rfl⟩, accepts_nonempty_refs (normalizeNonEmptyPublicRefArray_ok hreceipts), accepts_root _ _ _,
    accepts_boundary⟩

/-- What closing a bubble writes into it. -/
def closedFields (status closedAt : JsString) (keptCount : ℕ) (discardedCount : Json) (receiptRefs : List JsString)
    (bubbleRoot : JsString) : List (JsString × Json) :=
  [(js "status", .str status), (js "closed_at", .str closedAt), (js "kept_count", .num keptCount),
    (js "discarded_count", discardedCount), (js "receipt_refs", Controller.strings receiptRefs), (js "bubble_root", .str bubbleRoot)]

def closedNames : List JsString :=
  [js "status", js "closed_at", js "kept_count", js "discarded_count", js "receipt_refs", js "bubble_root"]

theorem normalizeCount_ok {value : Option Json} {field : JsString} {n : ℕ} (h : normalizeCount value field = .ok n) :
    value = some (.num n) := by
  unfold normalizeCount at h
  split at h
  · rename_i m hm
    cases h
    unfold natural? at hm
    split at hm
    · split at hm
      · rename_i q hq
        cases hm
        have hcast : (q.num.toNat : ℚ) = q := by
          rw [← Int.cast_natCast, Int.toNat_of_nonneg hq.2]
          exact Rat.coe_int_num_of_den_eq_one hq.1
        rw [hcast]
      · cases hm
    · cases hm
  · cases h

/-- What `closedCounts` does after the kept count is known. -/
def discardStep (P : Platform) (bubble options : Json) (outcome : JsString) (keptCount : ℕ) : Except JsError (ℕ × Json) :=
  let candidateCount := bubble.get (js "candidate_count")
  let last (discardedCount : Json) : Except JsError (ℕ × Json) :=
    if greater P.toNumberFormat (some discardedCount) candidateCount then
      .error (typeError (js "discarded_count cannot exceed candidate_count"))
    else .ok (keptCount, discardedCount)
  if greater P.toNumberFormat (some (.num keptCount)) candidateCount then
    .error (typeError (js "kept_count cannot exceed candidate_count"))
  else if outcome = js "discard" then
    normalizeCount (orElse (option options "discarded_count" "discardedCount") candidateCount) (js "discarded_count") >>=
      fun n => last (.num n)
  else remainingCount P candidateCount keptCount >>= last

theorem closedCounts_eq (bubble options : Json) (outcome : JsString) :
    closedCounts P bubble options outcome =
      (if outcome = js "keep" then normalizeCount (orElse (option options "kept_count" "keptCount")
        (bubble.get (js "candidate_count"))) (js "kept_count") else .ok 0) >>= discardStep P bubble options outcome := by
  unfold closedCounts
  dsimp only
  by_cases hkeep : outcome = js "keep"
  · rw [if_pos hkeep, if_pos hkeep]
    rfl
  · rw [if_neg hkeep, if_neg hkeep]
    rfl

/-- The discarded count of a bubble with a count of candidates is a count. -/
theorem closedCounts_ok {bubble : Json} {outcome : JsString} {keptCount n : ℕ} {discardedCount : Json}
    (h : closedCounts P bubble options outcome = .ok (keptCount, discardedCount))
    (hn : bubble.get (js "candidate_count") = some (.num n)) : ∃ m : ℕ, discardedCount = .num m := by
  rw [closedCounts_eq] at h
  obtain ⟨kept, -, h⟩ := Except.bind_eq_ok.1 h
  unfold discardStep at h
  dsimp only at h
  split at h
  · cases h
  split at h
  · obtain ⟨m, -, h⟩ := Except.bind_eq_ok.1 h
    split at h
    · cases h
    · cases h
      exact ⟨m, rfl⟩
  · obtain ⟨discarded, hdiscarded, h⟩ := Except.bind_eq_ok.1 h
    split at h
    · cases h
    · cases h
      -- what a count leaves of a count, cut off at zero
      rw [hn, remainingCount, toNumeric_num] at hdiscarded
      refine ⟨n - keptCount, ?_⟩
      rw [← Except.ok.inj hdiscarded]
      congr 1
      rcases le_total keptCount n with hle | hle
      · rw [Nat.cast_sub hle, max_eq_right (sub_nonneg.2 (Nat.cast_le.2 hle))]
      · rw [Nat.sub_eq_zero_of_le hle, max_eq_left (sub_nonpos.2 (Nat.cast_le.2 hle)), Nat.cast_zero]

theorem closePrivateMemoryBubble_ok {bubble : Json} (h : closePrivateMemoryBubble P bubble options = .ok r) :
    ∃ status closedAt keptCount discardedCount receiptRefs bubbleRoot, status ∈ bubbleStatuses ∧
      (∀ n : ℕ, bubble.get (js "candidate_count") = some (.num n) → ∃ m : ℕ, discardedCount = .num m) ∧
      (RefSet receiptRefs ∧ receiptRefs ≠ []) ∧ isRoot bubbleRoot = true ∧ r.isPlainRecord = true ∧
      ∀ key, r.get key = ((Json.obj (closedFields status closedAt keptCount discardedCount receiptRefs bubbleRoot)).get key).or
        (bubble.get key) := by
  obtain ⟨-, -, h⟩ := Except.bind_eq_ok.1 h
  obtain ⟨-, -, h⟩ := Except.bind_eq_ok.1 h
  obtain ⟨-, -, h⟩ := Except.bind_eq_ok.1 h
  split at h
  · cases h
  split at h
  · cases h
  obtain ⟨closedAt, -, h⟩ := Except.bind_eq_ok.1 h
  dsimp only at h
  generalize (withDefault (firstOf [options.get (js "outcome"), options.get (js "close_outcome"),
    options.get (js "closeOutcome")]) (.str (js "discard"))).toText P.toNumberFormat = outcome at h
  split at h
  · cases h
  obtain ⟨⟨keptCount, discardedCount⟩, hcounts, h⟩ := Except.bind_eq_ok.1 h
  obtain ⟨receiptRefs, hreceipts, h⟩ := Except.bind_eq_ok.1 h
  obtain ⟨-, rfl⟩ := assertPublicSafe_ok.1 h
  have hroot := isRoot_merkleRootFor (P := P) "private_memory_bubble" (bubble.spread (.obj (closedFields
    (if outcome = js "keep" then js "kept" else js "discarded") closedAt keptCount discardedCount receiptRefs [])))
    [js "bubble_root"]
  refine ⟨if outcome = js "keep" then js "kept" else js "discarded", closedAt, keptCount, discardedCount, receiptRefs, _, ?_,
    fun n hn => closedCounts_ok hcounts hn, normalizeNonEmptyPublicRefArray_ok hreceipts, hroot, rfl, fun key => ?_⟩
  · split <;> decide
  · -- the root is written last, over the empty one
    have hnames : closedNames.Nodup := by decide
    change ((bubble.spread (.obj (closedFields _ closedAt keptCount discardedCount receiptRefs []))).set _ _).get key = _
    rw [get_set, get_spread (show (List.map Prod.fst (closedFields _ _ _ _ _ _)).Nodup from hnames)]
    simp only [closedFields, get_obj_cons]
    by_cases hkey : key = js "bubble_root"
    · rw [if_pos hkey, hkey]
      rfl
    · simp [hkey]

/-- What a closed bubble takes over from the bubble fits the schema. -/
structure Carried (bubble : Json) : Prop where
  names : ∀ k ∈ bubble.keys, k ∈ bubbleProperties.map Prod.fst
  fields : ∀ p ∈ bubbleProperties, p.1 ∉ closedNames → ∃ v, bubble.get p.1 = some v ∧ accepts p.2 v = true

/-- A bubble within its schema has all a closed bubble takes over. -/
theorem carried_of_accepted {bubble : Json} (h : accepts privateMemoryBubbleJsonSchema bubble = true) : Carried bubble := by
  obtain ⟨-, hrequired, -, hnames, hfields⟩ := accepts_closedObject.1 h
  refine ⟨hnames, fun p hp _ => ?_⟩
  have hkey := mem_keys_iff.1 (hrequired p.1 (bubbleRequired_eq ▸ List.mem_map_of_mem hp))
  obtain ⟨v, hv⟩ := Option.isSome_iff_exists.1 hkey
  exact ⟨v, hv, hfields p hp v hv⟩

/-- The properties that closing a bubble writes. -/
theorem filter_closedNames : bubbleProperties.filter (fun p => decide (p.1 ∈ closedNames)) =
    [(js "status", Schema.strings bubbleStatuses), (js "closed_at", type [.string, .null]), (js "kept_count", count),
      (js "discarded_count", count), (js "receipt_refs", setOf 1 publicRefSchema), (js "bubble_root", sha256DigestSchema)] := rfl

theorem closed_accepted_iff {bubble : Json} (h : closePrivateMemoryBubble P bubble options = .ok r) :
    accepts privateMemoryBubbleJsonSchema r = true ↔ Carried bubble := by
  obtain ⟨status, closedAt, keptCount, discardedCount, receiptRefs, bubbleRoot, hstatus, hdiscarded, hrefs, hroot, hrecord, hget⟩ :=
    closePrivateMemoryBubble_ok h
  set written := closedFields status closedAt keptCount discardedCount receiptRefs bubbleRoot with hwritten
  have hkeys : written.map Prod.fst = closedNames := rfl
  have hold : ∀ key, key ∉ closedNames → r.get key = bubble.get key := by
    intro key hkey
    rw [hget, get_eq_none_iff.2 (hkeys ▸ hkey), Option.none_or]
  have hnew : ∀ key, key ∈ r.keys ↔ key ∈ closedNames ∨ key ∈ bubble.keys := by
    intro key
    rw [mem_keys_iff, mem_keys_iff, hget, Option.isSome_or, Bool.or_eq_true, ← mem_keys_iff, ← hkeys]
    rfl
  rw [privateMemoryBubbleJsonSchema, accepts_closedObject]
  constructor
  · rintro ⟨-, hrequired, -, hnames, hfields⟩
    refine ⟨fun k hk => hnames k ((hnew k).2 (Or.inr hk)), fun p hp hcarried => ?_⟩
    have hkey := mem_keys_iff.1 (hrequired p.1 (bubbleRequired_eq ▸ List.mem_map_of_mem hp))
    obtain ⟨v, hv⟩ := Option.isSome_iff_exists.1 hkey
    exact ⟨v, hold p.1 hcarried ▸ hv, hfields p hp v hv⟩
  · intro hc
    have hclosed : ∀ k ∈ closedNames, k ∈ bubbleProperties.map Prod.fst := by decide
    refine ⟨hrecord, fun k hk => ?_, by simp, fun k hk => ((hnew k).1 hk).elim (hclosed k) (hc.names k), fun p hp v hv => ?_⟩
    · rw [hnew, or_iff_not_imp_left]
      intro hcarried
      rw [bubbleRequired_eq, List.mem_map] at hk
      obtain ⟨p, hp, rfl⟩ := hk
      obtain ⟨v, hv, -⟩ := hc.fields p hp hcarried
      exact mem_keys_iff.2 (Option.isSome_iff_exists.2 ⟨v, hv⟩)
    · by_cases hcarried : p.1 ∈ closedNames
      · -- a property that has been written
        have hmem : p ∈ bubbleProperties.filter (fun p => decide (p.1 ∈ closedNames)) :=
          List.mem_filter.2 ⟨hp, decide_eq_true hcarried⟩
        obtain ⟨w, hw, hcount⟩ := hc.fields (js "candidate_count", count) (by simp [bubbleProperties]) (by decide)
        obtain ⟨n, rfl⟩ := accepts_count.1 hcount
        obtain ⟨m, rfl⟩ := hdiscarded n hw
        rw [filter_closedNames] at hmem
        rw [hget] at hv
        simp only [List.mem_cons, List.not_mem_nil, or_false] at hmem
        rcases hmem with rfl | rfl | rfl | rfl | rfl | rfl <;> cases hv
        · exact accepts_strings.2 ⟨status, hstatus, rfl⟩
        · rfl
        · exact accepts_count.2 ⟨keptCount, rfl⟩
        · exact accepts_count.2 ⟨m, rfl⟩
        · exact accepts_nonempty_refs hrefs
        · exact accepts_pattern.2 ⟨bubbleRoot, rfl, hroot⟩
      · obtain ⟨w, hw, hw'⟩ := hc.fields p hp hcarried
        rw [hold p.1 hcarried, hw] at hv
        cases hv
        exact hw'

/-! ## Weather reports -/

/-- The tiles of the options, or the default one. -/
def givenTiles (options : Json) : List Json :=
  (arrayItems (orElse (options.get (js "tiles")) (some defaultTiles))).getD []

/-- Every tile has evidence, and no two of them come out the same. -/
structure TilesFit (P : Platform) (options : Json) : Prop where
  evidence : ∀ x ∈ givenTiles options, orElse (option x "evidence_refs" "evidenceRefs") (some (.arr [])) ≠ some (.arr [])
  distinct : ((givenTiles options).zipIdx.map fun x => normalizeWeatherTile P x.1 x.2).Nodup

theorem normalizeTileStatus_mem (status : Json) : normalizeTileStatus P status ∈ weatherStatuses := by
  unfold normalizeTileStatus
  dsimp only
  split
  · assumption
  · split
    · decide
    · split <;> decide

/-- A tile whose values are checked. -/
structure Tile.Checked (t : Tile) : Prop where
  tile_ref : publicRefTest t.tile_ref = true
  status : t.status ∈ weatherStatuses
  metric : t.metric ∈ weatherMetrics
  evidence : RefSet t.evidence_refs

theorem normalizeWeatherTile_ok {x : Json} {i : ℕ} {t : Tile} (h : normalizeWeatherTile P x i = .ok t) :
    t.Checked ∧ (t.evidence_refs = [] ↔ orElse (option x "evidence_refs" "evidenceRefs") (some (.arr [])) = some (.arr [])) := by
  unfold normalizeWeatherTile at h
  dsimp only at h
  obtain ⟨-, -, h⟩ := Except.bind_eq_ok.1 h
  obtain ⟨metric, hmetric, h⟩ := Except.bind_eq_ok.1 h
  obtain ⟨ref, href, h⟩ := Except.bind_eq_ok.1 h
  obtain ⟨count, -, h⟩ := Except.bind_eq_ok.1 h
  obtain ⟨evidenceRefs, hevidence, h⟩ := Except.bind_eq_ok.1 h
  cases Except.pure_eq_ok.1 h
  have hrefs := normalizePublicRefArray_ok hevidence
  exact ⟨⟨(normalizePublicRef_ok href).2, normalizeTileStatus_mem _, (normalizeMember_ok hmetric).2, hrefs.1⟩, hrefs.2⟩

theorem accepts_tile {t : Tile} (h : t.Checked) : accepts tileSchema t.toJson = true ↔ t.evidence_refs ≠ [] := by
  have hrequired : tileRequired = tileProperties.map Prod.fst := rfl
  have hnodup : (tileProperties.map Prod.fst).Nodup := by decide
  rw [tileSchema, Tile.toJson, accepts_literal hrequired rfl hnodup, ← accepts_refs_one h.evidence]
  simp only [tileProperties, List.forall₂_cons, List.not_mem_nil, false_imp_iff, implies_true, true_and]
  constructor
  · exact fun hfields => hfields.2.2.2.2.1
  · exact fun hrefs => ⟨accepts_publicRef.2 h.tile_ref, accepts_strings.2 ⟨_, h.status, rfl⟩,
      accepts_strings.2 ⟨_, h.metric, rfl⟩, accepts_count.2 ⟨_, rfl⟩, hrefs, .nil⟩

theorem normalize_strings (xs : List JsString) : (Controller.strings xs).normalize = Controller.strings xs := by
  have hitems : normalizeItems (xs.map .str) = xs.map .str := by
    induction xs with
    | nil => rfl
    | cons x xs ih => rw [List.map_cons, normalizeItems, ih, Json.normalize.eq_def]
  rw [Controller.strings, Json.normalize, hitems]

/-- Tiles are equal as JSON values only if they are equal. -/
theorem same_tile {t u : Tile} : Same t.toJson u.toJson ↔ t = u := by
  constructor
  · intro h
    have hget : ∀ key, (t.toJson.get key).map Json.normalize = (u.toJson.get key).map Json.normalize := by
      intro key
      rw [← get_normalize, ← get_normalize, h]
    have href : some (Json.str t.tile_ref) = some (.str u.tile_ref) := hget (js "tile_ref")
    have hstatus : some (Json.str t.status) = some (.str u.status) := hget (js "status")
    have hmetric : some (Json.str t.metric) = some (.str u.metric) := hget (js "metric")
    have hcount : some (Json.num t.count) = some (.num u.count) := hget (js "count")
    have hevidence : some (Controller.strings t.evidence_refs).normalize = some (Controller.strings u.evidence_refs).normalize :=
      hget (js "evidence_refs")
    rw [normalize_strings, normalize_strings] at hevidence
    have hrefs : t.evidence_refs.map Json.str = u.evidence_refs.map .str := Json.arr.inj (Option.some.inj hevidence)
    rw [List.map_inj_right fun _ _ => Json.str.inj] at hrefs
    cases t
    cases u
    simp_all
  · rintro rfl
    rfl

theorem distinct_tiles {tiles : List Tile} : distinctItems (tiles.map Tile.toJson) = true ↔ tiles.Nodup := by
  rw [distinctItems_iff, List.pairwise_map]
  simp only [same_tile]
  rfl

theorem normalizeWeatherTiles_ok {value : Option Json} {tiles : List Tile} (h : normalizeWeatherTiles P value = .ok tiles) :
    ∃ xs, value = some (.arr xs) ∧ xs ≠ [] ∧ xs.zipIdx.mapM (fun x => normalizeWeatherTile P x.1 x.2) = .ok tiles := by
  unfold normalizeWeatherTiles at h
  split at h
  · cases h
  · rename_i xs hne
    exact ⟨xs, rfl, hne, h⟩
  · cases h

/-- The tiles of a report fit their schema if the given ones do. -/
theorem tiles_accepted_iff {tiles : List Tile}
    (h : normalizeWeatherTiles P (orElse (options.get (js "tiles")) (some defaultTiles)) = .ok tiles) :
    accepts (setOf 1 tileSchema) (.arr (tiles.map Tile.toJson)) = true ↔ TilesFit P options := by
  obtain ⟨xs, hxs, hne, hmap⟩ := normalizeWeatherTiles_ok h
  have hgiven : givenTiles options = xs := by rw [givenTiles, hxs, arrayItems, Option.getD_some]
  have hlength : 1 ≤ tiles.length := by
    rw [Except.length_of_mapM hmap, List.length_zipIdx]
    exact List.length_pos_iff.2 hne
  have hevidence : (∀ t ∈ tiles, accepts tileSchema t.toJson = true) ↔
      ∀ x ∈ xs, orElse (option x "evidence_refs" "evidenceRefs") (some (.arr [])) ≠ some (.arr []) := by
    constructor
    · intro hall x hx
      obtain ⟨i, hi⟩ := List.mem_iff_getElem?.1 hx
      have hmem : (x, i) ∈ xs.zipIdx := List.mem_zipIdx_iff_getElem?.2 hi
      obtain ⟨t, ht, hok⟩ := Except.exists_of_mapM_mem hmap hmem
      have htile := normalizeWeatherTile_ok hok
      exact fun hnil => (accepts_tile htile.1).1 (hall t ht) (htile.2.2 hnil)
    · intro hall t ht
      obtain ⟨⟨x, i⟩, hmem, hok⟩ := Except.exists_of_mem_mapM hmap ht
      have htile := normalizeWeatherTile_ok hok
      exact (accepts_tile htile.1).2 fun hnil => hall x (List.fst_mem_of_mem_zipIdx hmem) (htile.2.1 hnil)
  have hdistinct : tiles.Nodup ↔ (xs.zipIdx.map fun x => normalizeWeatherTile P x.1 x.2).Nodup := by
    rw [Except.map_of_mapM _ _ hmap]
    exact (List.nodup_map_iff fun _ _ => Except.ok.inj).symm
  rw [accepts_setOf]
  constructor
  · rintro ⟨ys, hys, -, hall, hnodup⟩
    obtain rfl := Json.arr.inj hys
    rw [List.forall_mem_map] at hall
    exact ⟨hgiven ▸ hevidence.1 hall, hgiven ▸ hdistinct.1 (distinct_tiles.1 hnodup)⟩
  · intro hfit
    refine ⟨_, rfl, by simpa using hlength, ?_, distinct_tiles.2 (hdistinct.2 (hgiven ▸ hfit.distinct))⟩
    rw [List.forall_mem_map]
    exact hevidence.2 (hgiven ▸ hfit.evidence)

/-- The rules on the status hold of the values that a report shows. -/
theorem weatherRules {status generatedAt : JsString} {tiles : List Tile} {issueCodes : List JsString} {nextAction : JsString}
    {evidenceRefs : List JsString} :
    accepts (allOf [sunnyRule, cloudyRule]) (weatherJson status generatedAt tiles (shownIssueCodes status issueCodes)
      (if status = js "sunny" then js "none" else nextAction) evidenceRefs) = true := by
  set codes := shownIssueCodes status issueCodes with hcodes
  set action := if status = js "sunny" then js "none" else nextAction with haction
  set j := weatherJson status generatedAt tiles codes action evidenceRefs with hj
  have hstatus : j.get (js "status") = some (.str status) := rfl
  have hissues : j.get (js "issue_codes") = some (Controller.strings codes) := rfl
  have hnext : j.get (js "next_action") = some (.str action) := rfl
  have hmax : accepts (maxItems 0) (Controller.strings codes) = true ↔ codes = [] := by simp [accepts, Controller.strings]
  have hmin : accepts (minItems 1) (Controller.strings codes) = true ↔ codes ≠ [] := by
    simp [accepts, Controller.strings, Nat.one_le_iff_ne_zero]
  rw [accepts_allOf, List.forall_mem_cons, List.forall_mem_singleton, sunnyRule, cloudyRule, accepts_ifThen, accepts_ifThen,
    accepts_when hstatus, accepts_when hstatus, accepts_property hissues, accepts_properties_two hissues hnext, hmax, hmin,
    accepts_const_str, accepts_const_str]
  constructor
  · intro hsunny
    have hsunny := Json.str.inj hsunny
    rw [hcodes, haction, shownIssueCodes, if_pos hsunny, if_pos hsunny]
    exact ⟨rfl, rfl⟩
  · intro hcloudy
    have hne : status ≠ js "sunny" := by
      rintro rfl
      revert hcloudy
      decide
    rw [hcodes, shownIssueCodes, if_neg hne]
    split
    · simp
    · rename_i hsome
      simpa using hsome

theorem shownIssueCodes_set (status : JsString) {codes : List JsString} (h : CodeSet weatherIssueCodes codes) :
    CodeSet weatherIssueCodes (shownIssueCodes status codes) := by
  unfold shownIssueCodes
  split
  · exact ⟨List.nodup_nil, by simp⟩
  · split
    · exact ⟨by simp, by simp [weatherIssueCodes]⟩
    · exact h

theorem weather_accepted_iff (h : createMemoryWeatherReport P options = .ok r) :
    accepts memoryWeatherReportJsonSchema r = true ↔ TilesFit P options := by
  obtain ⟨-, -, h⟩ := Except.bind_eq_ok.1 h
  obtain ⟨generatedAt, -, h⟩ := Except.bind_eq_ok.1 h
  obtain ⟨tiles, htiles, h⟩ := Except.bind_eq_ok.1 h
  obtain ⟨status, hstatus, h⟩ := Except.bind_eq_ok.1 h
  obtain ⟨issueCodes, hissues, h⟩ := Except.bind_eq_ok.1 h
  obtain ⟨nextAction, hnext, h⟩ := Except.bind_eq_ok.1 h
  obtain ⟨evidenceRefs, hevidence, h⟩ := Except.bind_eq_ok.1 h
  obtain ⟨-, rfl⟩ := assertPublicSafe_ok.1 h
  have hstatus : status ∈ weatherStatuses := by
    unfold normalizeWeatherStatus at hstatus
    dsimp only at hstatus
    split at hstatus
    · rename_i hmem
      cases hstatus
      exact hmem
    · cases hstatus
  have hcodes := shownIssueCodes_set status (normalizeIssueCodes_ok hissues)
  have haction : (if status = js "sunny" then js "none" else nextAction) ∈ weatherNextActions := by
    split
    · decide
    · exact (normalizeMember_ok hnext).2
  have hrequired : weatherRequired = weatherProperties.map Prod.fst := rfl
  have hnodup : (weatherProperties.map Prod.fst).Nodup := by decide +kernel
  rw [memoryWeatherReportJsonSchema, weatherJson, accepts_literal hrequired rfl hnodup, List.forall_mem_singleton,
    ← tiles_accepted_iff htiles]
  simp only [weatherProperties, List.cons_append, List.forall₂_cons]
  constructor
  · exact fun hfields => hfields.2.2.2.2.1
  · exact fun hfit => ⟨weatherRules, accepts_const_str.2 rfl, accepts_strings.2 ⟨status, hstatus, rfl⟩, rfl, hfit,
      (accepts_codes hcodes 0).2 (Nat.zero_le _), accepts_strings.2 ⟨_, haction, rfl⟩,
      accepts_nonempty_refs (normalizeNonEmptyPublicRefArray_ok hevidence), accepts_boundary⟩

/-! ## All constructors -/

/-- **What the constructors return stays inside the published schemas** exactly under these
conditions: a decision that is not to allow is not given an empty list of reasons, every tile
has evidence and no two come out the same, what a bubble carries over to its closing fits the
schema, and a grant is not given an empty list of zones. -/
theorem constructors_schema_iff (P : Platform) :
    (∀ options r, createRecallVetoDecision P options = .ok r →
      (accepts recallVetoDecisionJsonSchema r = true ↔
        option options "reason_codes" "reasonCodes" ≠ some (.arr []) ∨ Allowed P options)) ∧
    (∀ options r, createMemoryWeatherReport P options = .ok r →
      (accepts memoryWeatherReportJsonSchema r = true ↔ TilesFit P options)) ∧
    (∀ options r, createPrivateMemoryBubble P options = .ok r → accepts privateMemoryBubbleJsonSchema r = true) ∧
    (∀ bubble options r, closePrivateMemoryBubble P bubble options = .ok r →
      (accepts privateMemoryBubbleJsonSchema r = true ↔ Carried bubble)) ∧
    (∀ options r, createConsentGrant P options = .ok r →
      (accepts consentGrantJsonSchema r = true ↔
        option options "memory_zone_refs" "memoryZoneRefs" ≠ some (.arr []))) :=
  ⟨fun _ _ h => veto_accepted_iff h, fun _ _ h => weather_accepted_iff h, fun _ _ h => bubble_accepted h,
    fun _ _ _ h => closed_accepted_iff h, fun _ _ h => grant_accepted_iff h⟩

/-- A request without grants, and further options. -/
def bareRequest (more : List (JsString × Json)) : Json :=
  .obj ([(js "request_ref", .str (js "ref:request:1")), (js "proof_refs", Controller.strings [js "ref:proof:1"]),
    (js "receipt_refs", Controller.strings [js "ref:receipt:1"])] ++ more)

theorem exists_of_isOk {result : Except JsError Json} (h : result.isOk = true) : ∃ r, result = .ok r := by
  cases result with
  | ok r => exact ⟨r, rfl⟩
  | error e => cases h

/-- The request is decided, with and without an empty list of reasons. -/
theorem bareRequest_decided : (createRecallVetoDecision reference (bareRequest [])).isOk = true ∧
    (createRecallVetoDecision reference (bareRequest [(js "reason_codes", .arr [])])).isOk = true := by decide +kernel

theorem bareRequest_within_schema :
    ∃ r, createRecallVetoDecision reference (bareRequest []) = .ok r ∧ accepts recallVetoDecisionJsonSchema r = true := by
  obtain ⟨r, hr⟩ := exists_of_isOk bareRequest_decided.1
  have hgiven : option (bareRequest []) "reason_codes" "reasonCodes" = none := rfl
  refine ⟨r, hr, ((constructors_schema_iff reference).1 _ r hr).2 (Or.inl ?_)⟩
  rw [hgiven]
  simp

/-- A request that is not allowed and brings an empty list of reasons. -/
theorem silent_refusal_outside_schema :
    ∃ r, createRecallVetoDecision reference (bareRequest [(js "reason_codes", .arr [])]) = .ok r ∧
      accepts recallVetoDecisionJsonSchema r = false := by
  obtain ⟨r, hr⟩ := exists_of_isOk bareRequest_decided.2
  refine ⟨r, hr, eq_false_of_ne_true fun haccepted => ?_⟩
  rcases (veto_accepted_iff hr).1 haccepted with hgiven | ⟨s, c, g, v, -, -, -, hselected, -⟩
  · exact hgiven rfl
  · -- there is no grant to select
    have hnone : selectGrant reference (bareRequest [(js "reason_codes", .arr [])]) s = .ok none := rfl
    rw [hnone] at hselected
    cases hselected

end Controller

end EnigmaMemory
