import Mathlib.Data.List.Induction
import EnigmaMemory.Proof.ControllerSchemas
import EnigmaMemory.Proof.Grants

/-!
# The scope of a grant

The operations and the zones of a grant are a set each: `createConsentGrant` sorts what it is given and drops what is
named twice, and only then derives the references.

* `consent_scope_iff`: a grant does not depend on how its scope was written down and covers nothing beyond it; it
  passes the verification up to its end exactly if it has a zone, is active and has dates that stay dates.
-/

namespace EnigmaMemory

namespace Controller

open Json

variable {P : Platform} {options grant : Json}

/-! ## Sets of strings -/

/-- What is named twice or in another order is the same set. -/
theorem uniqueSorted_congr {xs ys : List JsString} (h : ∀ a, a ∈ xs ↔ a ∈ ys) : uniqueSorted xs = uniqueSorted ys :=
  OrdSet.sort_congr fun a => by rw [OrdSet.mem_ofList, OrdSet.mem_ofList, h]

theorem normalizeRequiredString_of {field t : JsString} (h : t ≠ []) : normalizeRequiredString (some (.str t)) field = .ok t :=
  if_neg h

theorem normalizeOperation_iff {x : Json} {t : JsString} :
    normalizeOperation (some x) = .ok t ↔ x = .str t ∧ t ∈ grantOperations := by
  constructor
  · intro h
    obtain ⟨hx, hmem⟩ := normalizeMember_ok h
    exact ⟨Option.some.inj hx, hmem⟩
  · rintro ⟨rfl, hmem⟩
    have hne : t ≠ [] := by
      rintro rfl
      exact absurd hmem (by decide)
    rw [normalizeOperation, normalizeMember, normalizeRequiredString_of hne]
    exact if_pos hmem

theorem normalizePublicRef_iff {x : Json} {field t : JsString} :
    normalizePublicRef (some x) field = .ok t ↔ x = .str t ∧ publicRefTest t = true := by
  constructor
  · intro h
    obtain ⟨hx, htest⟩ := normalizePublicRef_ok h
    exact ⟨Option.some.inj hx, htest⟩
  · rintro ⟨rfl, htest⟩
    have hne : t ≠ [] := by
      rintro rfl
      exact absurd htest (by decide)
    rw [normalizePublicRef, normalizeRequiredString_of hne]
    exact if_pos htest

/-- Texts that are checked one by one. -/
theorem mapM_texts {α : Type} {f : α → Except JsError JsString} {g : α → Json} {p : JsString → Prop}
    (hf : ∀ a t, f a = .ok t ↔ g a = .str t ∧ p t) (xs : List α) : ∀ ts : List JsString,
    xs.mapM f = .ok ts ↔ xs.map g = ts.map .str ∧ ∀ t ∈ ts, p t := by
  induction xs with
  | nil =>
    intro ts
    rw [List.mapM_nil, Except.pure_eq_ok, List.map_nil]
    cases ts <;> simp
  | cons a xs ih =>
    intro ts
    rw [List.mapM_cons]
    simp only [Except.bind_eq_ok, Except.pure_eq_ok, hf, ih]
    constructor
    · rintro ⟨t, ⟨ha, ht⟩, rest, ⟨hrest, hall⟩, rfl⟩
      exact ⟨by rw [List.map_cons, List.map_cons, ha, hrest], List.forall_mem_cons.2 ⟨ht, hall⟩⟩
    · rintro ⟨hmap, hall⟩
      cases ts with
      | nil => cases hmap
      | cons t rest =>
        obtain ⟨ht, hrest⟩ := List.forall_mem_cons.1 hall
        rw [List.map_cons, List.map_cons] at hmap
        obtain ⟨ha, htail⟩ := List.cons.inj hmap
        exact ⟨t, ⟨ha, ht⟩, rest, ⟨htail, hrest⟩, rfl⟩

/-- Checked operations are the texts that were given. -/
theorem normalizeOperations_iff {xs : List Json} {operations : List JsString} :
    normalizeOperations (some (.arr xs)) = .ok operations ↔
      ∃ ts : List JsString, xs = ts.map .str ∧ (∀ t ∈ ts, t ∈ grantOperations) ∧ ts ≠ [] ∧ uniqueSorted ts = operations := by
  have htexts := mapM_texts (f := fun x => normalizeOperation (some x)) (g := id) (p := (· ∈ grantOperations))
    (fun a t => normalizeOperation_iff) xs
  simp only [List.map_id] at htexts
  have hmatch : normalizeOperations (some (.arr xs)) = (xs.mapM fun x => normalizeOperation (some x)) >>= fun operations =>
      if operations.isEmpty then .error (typeError (js "operations must not be empty")) else .ok (uniqueSorted operations) := rfl
  rw [hmatch, Except.bind_eq_ok]
  refine exists_congr fun ts => ?_
  rw [htexts, and_assoc]
  cases ts <;> simp

theorem normalizePublicRefArray_iff {xs : List Json} {field : JsString} {refs : List JsString} :
    normalizePublicRefArray P (some (.arr xs)) field = .ok refs ↔
      ∃ ts : List JsString, xs = ts.map .str ∧ (∀ t ∈ ts, publicRefTest t = true) ∧ uniqueSorted ts = refs := by
  have htexts := mapM_texts (f := fun x : Json × ℕ => normalizePublicRef (some x.1) (itemField P field x.2)) (g := Prod.fst)
    (p := fun t => publicRefTest t = true) (fun a t => normalizePublicRef_iff) xs.zipIdx
  simp only [List.zipIdx_map_fst] at htexts
  have hmatch : normalizePublicRefArray P (some (.arr xs)) field =
      (xs.zipIdx.mapM fun x => normalizePublicRef (some x.1) (itemField P field x.2)) >>= fun refs => pure (uniqueSorted refs) := rfl
  rw [hmatch, Except.bind_eq_ok]
  refine exists_congr fun ts => ?_
  rw [htexts, and_assoc, Except.pure_eq_ok]

/-- Values of which each is one of some texts are texts. -/
theorem exists_texts {ts : List JsString} {ys : List Json} (h : ∀ y, y ∈ ys → y ∈ ts.map Json.str) :
    ∃ us : List JsString, ys = us.map .str := by
  induction ys with
  | nil => exact ⟨[], rfl⟩
  | cons y ys ih =>
    obtain ⟨t, -, rfl⟩ := List.mem_map.1 (h y List.mem_cons_self)
    obtain ⟨us, rfl⟩ := ih fun z hz => h z (List.mem_cons_of_mem _ hz)
    exact ⟨t :: us, rfl⟩

theorem mem_texts {ts : List JsString} {t : JsString} : Json.str t ∈ ts.map Json.str ↔ t ∈ ts :=
  List.mem_map_of_injective fun _ _ h => Json.str.inj h

/-- The texts of the same values. -/
theorem same_texts {ts : List JsString} {ys : List Json} (h : ∀ y, y ∈ ys ↔ y ∈ ts.map Json.str) :
    ∃ us : List JsString, ys = us.map .str ∧ ∀ t, t ∈ us ↔ t ∈ ts := by
  obtain ⟨us, rfl⟩ := exists_texts fun y hy => (h y).1 hy
  exact ⟨us, rfl, fun t => by rw [← mem_texts, h, mem_texts]⟩

theorem normalizeOperations_congr {xs ys : List Json} {operations : List JsString} (h : ∀ y, y ∈ ys ↔ y ∈ xs)
    (hxs : normalizeOperations (some (.arr xs)) = .ok operations) : normalizeOperations (some (.arr ys)) = .ok operations := by
  obtain ⟨ts, rfl, hmem, hne, rfl⟩ := normalizeOperations_iff.1 hxs
  obtain ⟨us, rfl, hus⟩ := same_texts h
  refine normalizeOperations_iff.2 ⟨us, rfl, fun t ht => hmem t ((hus t).1 ht), ?_, uniqueSorted_congr hus⟩
  rintro rfl
  exact hne (List.eq_nil_iff_forall_not_mem.2 fun t ht => absurd ((hus t).2 ht) List.not_mem_nil)

theorem normalizePublicRefArray_congr {xs ys : List Json} {field : JsString} {refs : List JsString} (h : ∀ y, y ∈ ys ↔ y ∈ xs)
    (hxs : normalizePublicRefArray P (some (.arr xs)) field = .ok refs) :
    normalizePublicRefArray P (some (.arr ys)) field = .ok refs := by
  obtain ⟨ts, rfl, hmem, rfl⟩ := normalizePublicRefArray_iff.1 hxs
  obtain ⟨us, rfl, hus⟩ := same_texts h
  exact normalizePublicRefArray_iff.2 ⟨us, rfl, fun t ht => hmem t ((hus t).1 ht), uniqueSorted_congr hus⟩

/-! ## What a grant is made of -/

/-- The values of a grant. -/
structure GrantParts where
  app_ref : JsString
  purpose_ref : JsString
  operations : List JsString
  memory_zone_refs : List JsString
  issued_at : JsString
  expires_at : JsString
  status : JsString
  grant_ref : JsString
  policy_ref : JsString
  proof_refs : List JsString
  receipt_refs : List JsString

def GrantParts.toJson (g : GrantParts) : Json :=
  grantJson g.app_ref g.purpose_ref g.operations g.memory_zone_refs g.issued_at g.expires_at g.status g.grant_ref g.policy_ref
    g.proof_refs g.receipt_refs

/-- The time that is written into `issued_at`. -/
def issueTime (options : Json) : Option Json :=
  firstOf [options.get (js "issued_at"), options.get (js "issuedAt"), options.get (js "now"), some defaultNow]

/-- The list of operations, or what stands for it. -/
def operationList (options : Json) : Option Json :=
  orElse (options.get (js "operations")) (some (.arr [(options.get (js "operation")).getD (.str (js "recall_context"))]))

def zoneList (options : Json) : Option Json :=
  orElse (option options "memory_zone_refs" "memoryZoneRefs")
    (some (.arr [(options.get (js "memory_zone_ref")).getD (.str (js "ref:zone:default"))]))

def givenStatus (options : Json) : Option Json := orElse (options.get (js "status")) (some (.str (js "active")))

/-- What the values of a grant have to do with the options. -/
structure Granted (P : Platform) (options : Json) (g : GrantParts) : Prop where
  record : assertPlainRecord options (js "options") = .ok ()
  issued_at : normalizeDateTime P (issueTime options) (js "issued_at") = .ok g.issued_at
  expires_at : grantExpiry P options g.issued_at = .ok g.expires_at
  app_ref : refOption options "app_ref" "appRef" "ref:app:unspecified" = .ok g.app_ref
  purpose_ref : refOption options "purpose_ref" "purposeRef" "ref:purpose:unspecified" = .ok g.purpose_ref
  operations : normalizeOperations (operationList options) = .ok g.operations
  memory_zone_refs : normalizePublicRefArray P (zoneList options) (js "memory_zone_refs") = .ok g.memory_zone_refs
  status : normalizeMember grantStatuses (givenStatus options) (js "status") (js "status is not supported") = .ok g.status
  policy_ref : refOption options "policy_ref" "policyRef" "ref:policy:default" = .ok g.policy_ref
  grant_ref : normalizePublicRef (orElse (option options "grant_ref" "grantRef")
    (some (.str (makePublicRef P "grant" { g with grant_ref := [], proof_refs := [], receipt_refs := [] }.toJson
      [js "grant_ref", js "proof_refs", js "receipt_refs"])))) (js "grant_ref") = .ok g.grant_ref
  proof_refs : refsOption P options "proof_refs" "proofRefs"
    (makePublicRef P "proof" { g with proof_refs := [], receipt_refs := [] }.toJson [js "proof_refs", js "receipt_refs"]) =
      .ok g.proof_refs
  receipt_refs : refsOption P options "receipt_refs" "receiptRefs"
    (makePublicRef P "receipt" { g with receipt_refs := [] }.toJson [js "receipt_refs"]) = .ok g.receipt_refs
  clean : Clean g.toJson

/-- **A grant is made of its parts.** -/
theorem createConsentGrant_ok : createConsentGrant P options = .ok grant ↔ ∃ g, Granted P options g ∧ g.toJson = grant := by
  simp only [createConsentGrant, Except.bind_eq_ok, assertPublicSafe_ok]
  constructor
  · rintro ⟨_, hrecord, issuedAt, hissued, expiresAt, hexpires, appRef, happ, purposeRef, hpurpose, operations, hoperations,
      zoneRefs, hzones, status, hstatus, policyRef, hpolicy, grantRef, hgrant, proofRefs, hproofs, receiptRefs, hreceipts, hclean,
      heq⟩
    exact ⟨⟨appRef, purposeRef, operations, zoneRefs, issuedAt, expiresAt, status, grantRef, policyRef, proofRefs, receiptRefs⟩,
      ⟨hrecord, hissued, hexpires, happ, hpurpose, hoperations, hzones, hstatus, hpolicy, hgrant, hproofs, hreceipts, hclean⟩, heq⟩
  · rintro ⟨g, h, heq⟩
    exact ⟨(), h.record, _, h.issued_at, _, h.expires_at, _, h.app_ref, _, h.purpose_ref, _, h.operations, _, h.memory_zone_refs,
      _, h.status, _, h.policy_ref, _, h.grant_ref, _, h.proof_refs, _, h.receipt_refs, h.clean, heq⟩

/-! ## Other spellings of a scope -/

/-- The options name these operations and these zones. -/
structure Scoped (options : Json) (operations zones : List Json) : Prop where
  operations : options.get (js "operations") = some (.arr operations)
  zones : option options "memory_zone_refs" "memoryZoneRefs" = some (.arr zones)

def scopeKeys : List JsString := [js "operations", js "memory_zone_refs", js "memoryZoneRefs"]

/-- The options differ in their lists of operations and zones only. -/
structure SameBesides (options options' : Json) : Prop where
  record : options'.isPlainRecord = options.isPlainRecord
  get : ∀ key, key ∉ scopeKeys → options'.get key = options.get key

variable {options' : Json} {operations zones operations' zones' : List Json}

theorem SameBesides.option (h : SameBesides options options') {snake camel : String} (hsnake : js snake ∉ scopeKeys)
    (hcamel : js camel ∉ scopeKeys) : option options' snake camel = option options snake camel := by
  rw [Controller.option, Controller.option, h.get _ hsnake, h.get _ hcamel]

theorem Scoped.operationList (h : Scoped options operations zones) : operationList options = some (.arr operations) := by
  rw [Controller.operationList, h.operations]
  rfl

theorem Scoped.zoneList (h : Scoped options operations zones) : zoneList options = some (.arr zones) := by
  rw [Controller.zoneList, h.zones]
  rfl

/-- **The grant does not depend on how its scope is written down.** -/
theorem Granted.congr {g : GrantParts} (hg : Granted P options g) (hs : Scoped options operations zones)
    (hs' : Scoped options' operations' zones') (hsame : SameBesides options options')
    (hoperations : ∀ x, x ∈ operations' ↔ x ∈ operations) (hzones : ∀ x, x ∈ zones' ↔ x ∈ zones) : Granted P options' g := by
  have hopt : ∀ {snake camel : String}, js snake ∉ scopeKeys → js camel ∉ scopeKeys →
      Controller.option options' snake camel = Controller.option options snake camel := fun h h' => hsame.option h h'
  have hissue : issueTime options' = issueTime options := by
    rw [issueTime, issueTime, hsame.get _ (by decide), hsame.get _ (by decide), hsame.get _ (by decide)]
  have hexpiry : grantExpiry P options' g.issued_at = grantExpiry P options g.issued_at := by
    unfold grantExpiry
    rw [hopt (by decide) (by decide), hopt (by decide) (by decide)]
  have hstatus : givenStatus options' = givenStatus options := by rw [givenStatus, givenStatus, hsame.get _ (by decide)]
  exact {
    record := by
      rw [assertPlainRecord_ok, hsame.record]
      exact assertPlainRecord_ok.1 hg.record
    issued_at := by rw [hissue, hg.issued_at]
    expires_at := by rw [hexpiry, hg.expires_at]
    app_ref := by rw [refOption, hopt (by decide) (by decide)]; exact hg.app_ref
    purpose_ref := by rw [refOption, hopt (by decide) (by decide)]; exact hg.purpose_ref
    operations := by
      have hold := hg.operations
      rw [hs.operationList] at hold
      rw [hs'.operationList, normalizeOperations_congr hoperations hold]
    memory_zone_refs := by
      have hold := hg.memory_zone_refs
      rw [hs.zoneList] at hold
      rw [hs'.zoneList, normalizePublicRefArray_congr hzones hold]
    status := by rw [hstatus, hg.status]
    policy_ref := by rw [refOption, hopt (by decide) (by decide)]; exact hg.policy_ref
    grant_ref := by rw [hopt (by decide) (by decide)]; exact hg.grant_ref
    proof_refs := by rw [refsOption, hopt (by decide) (by decide)]; exact hg.proof_refs
    receipt_refs := by rw [refsOption, hopt (by decide) (by decide)]; exact hg.receipt_refs
    clean := hg.clean }

/-! ## The verification of a grant -/

theorem distinctValues_texts {ts : List JsString} (h : ts.Nodup) : distinctValues (ts.map .str) = ts.map .str := by
  induction ts using List.reverseRecOn with
  | nil => rfl
  | append_singleton ts t ih =>
    obtain ⟨hnodup, -, hnew⟩ := List.nodup_append.1 h
    have hno : hasValue (ts.map .str) (.str t) = false := by
      rw [hasValue, List.any_eq_false]
      intro x hx
      obtain ⟨u, hu, rfl⟩ := List.mem_map.1 hx
      simpa [sameValue] using hnew u hu t (List.mem_singleton_self t)
    rw [distinctValues] at ih
    rw [distinctValues, List.map_append, List.foldl_append, ih hnodup, List.map_singleton, List.foldl_cons, List.foldl_nil,
      hno]
    rfl

theorem isPublicRefArray_strings {refs : List JsString} (h : RefSet refs) :
    isPublicRefArray (some (strings refs)) = true ↔ refs ≠ [] := by
  have hall : (refs.map Json.str).all (fun x => isPublicRef (some x)) = true := by
    rw [List.all_map, List.all_eq_true]
    exact h.accepted
  rw [strings, isPublicRefArray, distinctValues_texts h.nodup, hall]
  simp

theorem isOperationArray_strings {operations : List JsString} (h : CodeSet grantOperations operations) (hne : operations ≠ []) :
    isOperationArray (some (strings operations)) = true := by
  have hall : (operations.map Json.str).all (fun x => isMember grantOperations (some x)) = true := by
    rw [List.all_map, List.all_eq_true]
    exact fun t ht => decide_eq_true (h.mem t ht)
  rw [strings, isOperationArray, distinctValues_texts h.nodup, hall]
  simpa using hne

theorem GrantParts.boundary (g : GrantParts) : ∀ f ∈ boundaryFields, strictEq (g.toJson.get f.1) (some f.2) = true := by
  rw [← List.forall_iff_forall_mem]
  exact ⟨rfl, rfl, rfl, rfl, rfl, rfl, rfl, rfl, rfl, rfl, rfl, rfl, rfl, rfl, rfl⟩

/-- **What the form of a grant depends on**: that it has a zone and that its dates are dates. -/
theorem Granted.wellShaped_iff {g : GrantParts} (h : Granted P options g) : WellShaped P g.toJson ↔
    g.memory_zone_refs ≠ [] ∧ isDateTime P (some (.str g.issued_at)) = true ∧ isDateTime P (some (.str g.expires_at)) = true := by
  have hzones : RefSet g.memory_zone_refs := (normalizePublicRefArray_ok h.memory_zone_refs).1
  have hoperations := normalizeOperations_ok h.operations
  have hproofs := normalizeNonEmptyPublicRefArray_ok h.proof_refs
  have hreceipts := normalizeNonEmptyPublicRefArray_ok h.receipt_refs
  constructor
  · intro hshape
    exact ⟨(isPublicRefArray_strings hzones).1 hshape.memory_zone_refs, hshape.issued_at, hshape.expires_at⟩
  · rintro ⟨hne, hissued, hexpires⟩
    exact {
      keys := fun key hkey => hkey
      schema := rfl
      app_ref := refOption_ok h.app_ref
      purpose_ref := refOption_ok h.purpose_ref
      operations := isOperationArray_strings hoperations.1 hoperations.2
      memory_zone_refs := (isPublicRefArray_strings hzones).2 hne
      issued_at := hissued
      expires_at := hexpires
      status := decide_eq_true (normalizeMember_ok h.status).2
      grant_ref := (normalizePublicRef_ok h.grant_ref).2
      policy_ref := refOption_ok h.policy_ref
      proof_refs := (isPublicRefArray_strings hproofs.1).2 hproofs.2
      receipt_refs := (isPublicRefArray_strings hreceipts.1).2 hreceipts.2
      boundary := g.boundary }

/-- A verification at a time, which expects nothing. -/
def checkAt (now : JsString) : Json := .obj [(js "now", .str now)]

/-- The time is before the end of the grant. -/
def Before (P : Platform) (grant : Json) (now : JsString) : Prop :=
  ∃ t s e, dateTime P (some (.str now)) = some t ∧ grant.get (js "expires_at") = some (.str s) ∧ P.parseDate s = some e ∧ t < e

theorem compareScope_checkAt (grant : Json) (now : JsString) : compareScope grant (checkAt now) = [] := rfl

/-- **When a grant passes before its end.** -/
theorem Granted.verifies_iff {g : GrantParts} (h : Granted P options g) {now : JsString} (hbefore : Before P g.toJson now) :
    Verifies P (checkAt now) g.toJson ↔ WellShaped P g.toJson ∧ g.status = js "active" := by
  obtain ⟨t, s, e, hnow, hs, he, hlt⟩ := hbefore
  have hread : nowOption P (checkAt now) = .ok t := nowOption_ok.2 hnow
  constructor
  · rintro ⟨v, hv, hok⟩
    obtain ⟨_, -, -, -, hshape, hvalid, -⟩ := verifyConsentGrant_ok hv hok
    have hactive := active_of_not_lapsed hshape (validityFaults_eq_nil.1 hvalid).1
    exact ⟨hshape, Json.str.inj (Option.some.inj hactive)⟩
  · rintro ⟨hshape, hactive⟩
    have hstatus : g.toJson.get (js "status") = some (.str (js "active")) := by
      rw [← hactive]
      rfl
    refine verifyConsentGrant_of hread rfl h.clean hshape ?_ (compareScope_checkAt _ _)
    refine validityFaults_eq_nil.2 ⟨?_, nofun⟩
    rintro ((hexpired | ⟨u, hu, hle⟩) | hrevoked | hlisted)
    · rw [hstatus] at hexpired
      exact absurd (Json.str.inj (Option.some.inj hexpired)) (by decide)
    · have htext : g.expires_at = s := Json.str.inj (Option.some.inj hs)
      have hparse : P.parseDate s = some u := by
        change dateTime P (some (.str g.expires_at)) = some u at hu
        rw [dateTime] at hu
        split at hu
        · rwa [← htext]
        · cases hu
      rw [he] at hparse
      exact absurd (Option.some.inj hparse ▸ hle) (by omega)
    · rw [hstatus] at hrevoked
      exact absurd (Json.str.inj (Option.some.inj hrevoked)) (by decide)
    · cases hlisted

/-! ## Dates -/

/-- A date is still one when its time is written down anew. -/
def StaysDate (P : Platform) (value : Option Json) : Prop :=
  ∀ t, dateTime P value = some t → isDateTime P (some (.str (P.isoText t))) = true

theorem normalizeDateTime_ok {value : Option Json} {field text : JsString} :
    normalizeDateTime P value field = .ok text ↔ ∃ t, dateTime P value = some t ∧ P.isoText t = text := by
  unfold normalizeDateTime
  split
  · rename_i t ht
    simp [ht]
  · rename_i hnone
    simp [hnone]

theorem staysDate_iff {value : Option Json} {field text : JsString} (h : normalizeDateTime P value field = .ok text) :
    StaysDate P value ↔ isDateTime P (some (.str text)) = true := by
  obtain ⟨t, ht, rfl⟩ := normalizeDateTime_ok.1 h
  refine ⟨fun hstays => hstays t ht, fun hdate u hu => ?_⟩
  rw [ht] at hu
  exact Option.some.inj hu ▸ hdate

/-- An end that is counted from the beginning has been checked. -/
theorem isDateTime_counted {issuedAt text expiresAt field : JsString} {ttl : ℕ} (h : addSeconds P issuedAt ttl = .ok text)
    (hnormal : normalizeDateTime P (some (.str text)) field = .ok expiresAt) : isDateTime P (some (.str expiresAt)) = true := by
  obtain ⟨t, ht, rfl⟩ := normalizeDateTime_ok.1 hnormal
  unfold addSeconds at h
  split at h
  · split at h
    · cases h
      have hread := ht
      rw [dateTime] at hread
      split at hread
      · rw [P.isoText_parse] at hread
        cases hread
        rw [isDateTime, ht]
        rfl
      · cases hread
    · cases h
  · cases h

theorem grantExpiry_date {issuedAt expiresAt : JsString} (h : grantExpiry P options issuedAt = .ok expiresAt) :
    StaysDate P (option options "expires_at" "expiresAt") ↔ isDateTime P (some (.str expiresAt)) = true := by
  unfold grantExpiry at h
  split at h
  · rename_i hnone
    obtain ⟨ttl, -, h⟩ := Except.bind_eq_ok.1 h
    obtain ⟨text, htext, h⟩ := Except.bind_eq_ok.1 h
    rw [hnone]
    exact iff_of_true (fun t ht => nomatch ht) (isDateTime_counted htext h)
  · rename_i hnull
    obtain ⟨ttl, -, h⟩ := Except.bind_eq_ok.1 h
    obtain ⟨text, htext, h⟩ := Except.bind_eq_ok.1 h
    rw [hnull]
    exact iff_of_true (fun t ht => nomatch ht) (isDateTime_counted htext h)
  · rename_i value _ hvalue
    rw [hvalue]
    exact staysDate_iff h

/-! ## The scope of a grant -/

/-- **Whatever the spelling**: other lists with the same operations and zones give the same grant. -/
def SpellingFree (P : Platform) (options : Json) (operations zones : List Json) (grant : Json) : Prop :=
  ∀ options' operations' zones', SameBesides options options' → Scoped options' operations' zones' →
    (∀ x, x ∈ operations' ↔ x ∈ operations) → (∀ x, x ∈ zones' ↔ x ∈ zones) → createConsentGrant P options' = .ok grant

/-- **Nothing is covered beyond the scope**: what is not in the lists lets a verification fail that expects it. -/
def NoWider (P : Platform) (operations zones : List Json) (grant : Json) : Prop :=
  ∀ scope x v, (some x ∈ expectedOperations scope ∧ x ∉ operations) ∨ (some x ∈ expectedMemoryZoneRefs scope ∧ x ∉ zones) →
    verifyConsentGrant P grant scope = .ok v → v.ok = false

/-- What a grant needs to pass until its end. -/
structure Usable (P : Platform) (options : Json) (zones : List Json) : Prop where
  zones : zones ≠ []
  active : givenStatus options = some (.str (js "active"))
  issued_at : StaysDate P (issueTime options)
  expires_at : StaysDate P (option options "expires_at" "expiresAt")

theorem Granted.noWider {g : GrantParts} (h : Granted P options g) (hs : Scoped options operations zones) :
    NoWider P operations zones g.toJson := by
  have hoperations := h.operations
  have hzones := h.memory_zone_refs
  rw [hs.operationList] at hoperations
  rw [hs.zoneList] at hzones
  obtain ⟨ts, hts, -, -, hgiven⟩ := normalizeOperations_iff.1 hoperations
  obtain ⟨us, hus, -, hgiven'⟩ := normalizePublicRefArray_iff.1 hzones
  have hnamed : ∀ x, Names g.toJson "operations" x → x ∈ operations := by
    rintro x ⟨xs, hxs, hx⟩
    cases hxs
    rw [← hgiven] at hx
    obtain ⟨t, ht, rfl⟩ := List.mem_map.1 hx
    rw [hts]
    exact List.mem_map_of_mem (mem_uniqueSorted.1 ht)
  have hzoned : ∀ x, Names g.toJson "memory_zone_refs" x → x ∈ zones := by
    rintro x ⟨xs, hxs, hx⟩
    cases hxs
    rw [← hgiven'] at hx
    obtain ⟨t, ht, rfl⟩ := List.mem_map.1 hx
    rw [hus]
    exact List.mem_map_of_mem (mem_uniqueSorted.1 ht)
  intro scope x v hbeyond hv
  refine eq_false_of_ne_true fun hok => ?_
  obtain ⟨_, -, -, -, -, -, hscope⟩ := verifyConsentGrant_ok hv hok
  obtain ⟨-, -, hexpected, hexpected'⟩ := compareScope_passes hscope
  rcases hbeyond with ⟨hx, hnot⟩ | ⟨hx, hnot⟩
  · obtain ⟨_, heq, hnames⟩ := names_of_includes (hexpected _ hx)
    exact hnot (hnamed x (Option.some.inj heq ▸ hnames))
  · obtain ⟨_, heq, hnames⟩ := names_of_includes (hexpected' _ hx)
    exact hnot (hzoned x (Option.some.inj heq ▸ hnames))

theorem Granted.usable_iff {g : GrantParts} (h : Granted P options g) (hs : Scoped options operations zones) :
    Usable P options zones ↔ WellShaped P g.toJson ∧ g.status = js "active" := by
  have hzones := (normalizePublicRefArray_ok h.memory_zone_refs).2
  rw [hs.zoneList, Option.some.injEq, Json.arr.injEq] at hzones
  have hstatus : givenStatus options = some (.str g.status) := (normalizeMember_ok h.status).1
  rw [h.wellShaped_iff, ← staysDate_iff h.issued_at, ← grantExpiry_date h.expires_at]
  constructor
  · rintro ⟨hne, hactive, hissued, hexpires⟩
    rw [hstatus] at hactive
    exact ⟨⟨fun hnil => hne (hzones.1 hnil), hissued, hexpires⟩, Json.str.inj (Option.some.inj hactive)⟩
  · rintro ⟨⟨hne, hissued, hexpires⟩, hactive⟩
    exact ⟨fun hnil => hne (hzones.2 hnil), by rw [hstatus, hactive], hissued, hexpires⟩

/-- **A grant has the scope it was given, and passes until its end exactly if** it has a zone, is active, and its dates stay
dates. Where no time is before its end, there is nothing to pass. -/
theorem consent_scope_iff (P : Platform) (options : Json) (operations zones : List Json) (grant : Json)
    (hs : Scoped options operations zones) (h : createConsentGrant P options = .ok grant) :
    (SpellingFree P options operations zones grant ∧ (∀ now, Before P grant now → Verifies P (checkAt now) grant) ∧
        NoWider P operations zones grant) ↔
      ((∃ now, Before P grant now) → Usable P options zones) := by
  obtain ⟨g, hg, rfl⟩ := createConsentGrant_ok.1 h
  have hfree : SpellingFree P options operations zones g.toJson := fun options' operations' zones' hsame hs' ho hz =>
    createConsentGrant_ok.2 ⟨g, hg.congr hs hs' hsame ho hz, rfl⟩
  constructor
  · rintro ⟨-, hpasses, -⟩ ⟨now, hbefore⟩
    exact (hg.usable_iff hs).2 ((hg.verifies_iff hbefore).1 (hpasses now hbefore))
  · intro husable
    refine ⟨hfree, fun now hbefore => ?_, hg.noWider hs⟩
    exact (hg.verifies_iff hbefore).2 ((hg.usable_iff hs).1 (husable ⟨now, hbefore⟩))

/-! ## A grant without zones -/

/-- The options of a grant for recalling. -/
def recallOptions (zones : List Json) : Json :=
  .obj [(js "operations", .arr [.str (js "recall_context")]), (js "memory_zone_refs", .arr zones),
    (js "expires_at", .str Reference.newYearText), (js "grant_ref", .str (js "ref:grant:1")),
    (js "proof_refs", strings [js "ref:proof:1"]), (js "receipt_refs", strings [js "ref:receipt:1"])]

theorem scoped_recallOptions (zones : List Json) : Scoped (recallOptions zones) [.str (js "recall_context")] zones := ⟨rfl, rfl⟩

def bareParts : GrantParts :=
  ⟨js "ref:app:unspecified", js "ref:purpose:unspecified", [js "recall_context"], [], Reference.epochText,
    Reference.newYearText, js "active", js "ref:grant:1", js "ref:policy:default", [js "ref:proof:1"], [js "ref:receipt:1"]⟩

theorem bareParts_granted : Granted reference (recallOptions []) bareParts where
  record := rfl
  issued_at := normalizeDateTime_ok.2 ⟨0, by decide +kernel, rfl⟩
  expires_at := by
    have hend : normalizeDateTime reference (some (.str Reference.newYearText)) (js "expires_at") = .ok Reference.newYearText :=
      normalizeDateTime_ok.2 ⟨Reference.newYear, by decide +kernel, rfl⟩
    exact hend
  app_ref := rfl
  purpose_ref := rfl
  operations := rfl
  memory_zone_refs := rfl
  status := rfl
  policy_ref := rfl
  grant_ref := rfl
  proof_refs := rfl
  receipt_refs := rfl
  clean := (scan_ok_iff (P := reference) _).1 (by decide +kernel)

theorem bareGrant_created : createConsentGrant reference (recallOptions []) = .ok bareParts.toJson :=
  createConsentGrant_ok.2 ⟨bareParts, bareParts_granted, rfl⟩

theorem consent_scope_iff_bare :
    (SpellingFree reference (recallOptions []) [.str (js "recall_context")] [] bareParts.toJson ∧
        (∀ now, Before reference bareParts.toJson now → Verifies reference (checkAt now) bareParts.toJson) ∧
        NoWider reference [.str (js "recall_context")] [] bareParts.toJson) ↔
      ((∃ now, Before reference bareParts.toJson now) → Usable reference (recallOptions []) []) :=
  consent_scope_iff reference (recallOptions []) _ _ bareParts.toJson (scoped_recallOptions []) bareGrant_created

/-- A grant that names no zone passes no verification. -/
theorem zoneless_never_verifies : ¬ ∀ (P : Platform) (options : Json) (operations zones : List Json) (grant : Json),
    Scoped options operations zones → createConsentGrant P options = .ok grant →
      SpellingFree P options operations zones grant ∧ (∀ now, Before P grant now → Verifies P (checkAt now) grant) ∧
        NoWider P operations zones grant := by
  intro hall
  have hbefore : Before reference bareParts.toJson Reference.epochText :=
    ⟨0, Reference.newYearText, Reference.newYear, by decide +kernel, rfl, by decide, by decide⟩
  have hpasses := (hall reference (recallOptions []) _ _ bareParts.toJson (scoped_recallOptions []) bareGrant_created).2.1 _ hbefore
  exact ((bareParts_granted.usable_iff (scoped_recallOptions [])).2 ((bareParts_granted.verifies_iff hbefore).1 hpasses)).zones rfl

end Controller

end EnigmaMemory
