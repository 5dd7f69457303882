import EnigmaMemory.Spec.PublicSafe
import EnigmaMemory.Spec.Vault

/-!
# The memory controller

`packages/controller`: consent grants for applications, decisions on recall requests, private
bubbles and weather reports. Each constructor reads an options object, checks and orders its
values, derives references from a digest of the rest, and publishes the artifact only if the
public-safe scan finds nothing. A `Set` of revoked references acts as the array of its elements.
-/

namespace EnigmaMemory

namespace Controller

open Json

variable (P : Platform)

/-! ## Values -/

def defaultNow : Json := .str (js "1970-01-01T00:00:00.000Z")

def grantSchema : JsString := js "enigma.memory_controller_grant.v1"

def vetoSchema : JsString := js "enigma.recall_veto_decision.v1"

def bubbleSchema : JsString := js "enigma.private_memory_bubble.v1"

def weatherSchema : JsString := js "enigma.memory_weather_report.v1"

def grantOperations : List JsString :=
  [js "read_local", js "write_local", js "recall_context", js "withhold_context", js "share_context",
    js "open_private_bubble", js "close_private_bubble", js "delete_local", js "connector_access"]

def grantStatuses : List JsString := [js "active", js "expired", js "revoked"]

def recallReasonCodes : List JsString :=
  [js "grant_missing", js "grant_expired", js "purpose_mismatch", js "zone_not_allowed", js "sensitivity_blocked",
    js "tombstone_present", js "private_bubble_open", js "policy_requires_ask", js "policy_denies_recall",
    js "candidate_limit_exceeded"]

def bubbleCloseOutcomes : List JsString := [js "keep", js "discard"]

def weatherStatuses : List JsString := [js "sunny", js "needs_attention", js "storm_warning"]

def weatherMetrics : List JsString :=
  [js "active_grants", js "expiring_grants", js "recent_vetoes", js "open_private_bubbles", js "tombstone_pressure",
    js "sensitive_candidates", js "receipt_coverage"]

def weatherIssueCodes : List JsString :=
  [js "grant_expiring", js "grant_missing", js "policy_attention_needed", js "veto_rate_elevated",
    js "private_bubble_open", js "receipt_gap", js "tombstone_pressure", js "sensitive_candidate_pressure"]

def weatherNextActions : List JsString :=
  [js "none", js "review_grants", js "review_policy", js "ask_for_consent", js "close_private_bubbles",
    js "inspect_receipts"]

def stormTileStatuses : List JsString :=
  [js "storm_warning", js "blocked", js "fail", js "revoked", js "expired", js "unsafe_export", js "unsafe",
    js "tombstone", js "sensitive"]

def attentionTileStatuses : List JsString :=
  [js "needs_attention", js "warning", js "needs_review", js "offline", js "pending", js "missing", js "ask"]

/-- `BOUNDARY_FIELDS`. -/
def boundaryFields : List (JsString × Json) :=
  [(js "public_payload_only", .bool true), (js "memory_payload_absent", .bool true),
    (js "prompt_payload_absent", .bool true), (js "transcript_payload_absent", .bool true),
    (js "embedding_payload_absent", .bool true), (js "provider_output_absent", .bool true),
    (js "secret_material_absent", .bool true), (js "device_path_absent", .bool true),
    (js "account_identifier_absent", .bool true), (js "customer_identifier_absent", .bool true),
    (js "evidence_refs_only", .bool true), (js "provider_deletion_claim", .bool false),
    (js "model_forgetting_claim", .bool false), (js "provider_native_memory_control_claim", .bool false),
    (js "compliance_certification_claim", .bool false)]

/-! ## The scan -/

def extraForbiddenEndings : List String :=
  ["account", "account_id", "customer", "customer_id", "customer_identifier", "provider_response", "signing_secret",
    "private_data", "memory_payload", "local_absolute_path"]

mutual
def scanExtraForbiddenKeys : Json → JsString → List JsString
  | .arr xs, path => scanExtraItems xs path 0
  | .obj fs, path => scanExtraFields fs path
  | _, _ => []

def scanExtraItems : List Json → JsString → ℕ → List JsString
  | [], _, _ => []
  | x :: xs, path, index =>
    scanExtraForbiddenKeys x (indexPath P.toNumberFormat path index) ++ scanExtraItems xs path (index + 1)

def scanExtraFields : List (JsString × Json) → JsString → List JsString
  | [], _ => []
  | (key, value) :: fs, path =>
    (if regexTest (endingRe extraForbiddenEndings) (snakeKey key) then [keyPath path key] else [])
      ++ scanExtraForbiddenKeys value (keyPath path key) ++ scanExtraFields fs path
end

def scanMemoryControllerPublicSafe (value : Json) : PublicSafeResult :=
  let core := verifyPublicSafeArtifact P.toNumberFormat value
  let extra := scanExtraForbiddenKeys P value (js "$")
  { errors := core.errors ++ extra.map (· ++ js ": field name is not memory-controller public-safe")
    forbidden_paths := core.forbidden_paths ++ extra
    public_hash := if core.ok && extra.isEmpty then core.public_hash else none }

def assertMemoryControllerPublicSafe (value : Json) : Except JsError Json :=
  let result := scanMemoryControllerPublicSafe P value
  if result.ok then .ok value
  else .error (typeError (js "memory controller public-safe scan failed: " ++ joined result.errors))
where
  /-- `errors.join('; ')`. -/
  joined : List JsString → JsString
    | [] => []
    | [e] => e
    | e :: rest => e ++ js "; " ++ joined rest

/-! ## Checks on values -/

def assertPlainRecord (value : Json) (name : JsString) : Except JsError Unit :=
  if value.isPlainRecord then .ok () else .error (typeError (name ++ js " must be an object"))

def normalizeRequiredString (value : Option Json) (field : JsString) : Except JsError JsString :=
  match value with
  | some (.str s) => if s = [] then .error (typeError (field ++ js " must be a non-empty string")) else .ok s
  | _ => .error (typeError (field ++ js " must be a non-empty string"))

/-- `[A-Za-z0-9._~:@#?=&%+-]`. -/
def isRefUnit (c : CodeUnit) : Bool :=
  isLowerUnit c || isUpperUnit c || isDigitUnit c || decide (c ∈ js "._~:@#?=&%+-")

/-- `PUBLIC_REF_RE`. -/
def publicRefTest (s : JsString) : Bool :=
  (js "ref:").isPrefixOf s &&
    match s.drop 4 with
    | [] => false
    | c :: rest => (isLowerUnit c || isUpperUnit c || isDigitUnit c) && decide (rest.length ≤ 255) && rest.all isRefUnit

def isPublicRef (value : Option Json) : Bool :=
  match value with
  | some (.str s) => publicRefTest s
  | _ => false

def normalizePublicRef (value : Option Json) (field : JsString) : Except JsError JsString := do
  let ref ← normalizeRequiredString value field
  if publicRefTest ref then .ok ref else .error (typeError (field ++ js " must be a public ref"))

/-- A required string from a list of accepted ones. -/
def normalizeMember (accepted : List JsString) (value : Option Json) (field message : JsString) : Except JsError JsString := do
  let s ← normalizeRequiredString value field
  if s ∈ accepted then .ok s else .error (typeError message)

def normalizeOperation (value : Option Json) : Except JsError JsString :=
  normalizeMember grantOperations value (js "operation") (js "operation is not supported")

/-- `[...new Set(values)].sort()`. -/
def uniqueSorted (values : List JsString) : List JsString := sortStrings (OrdSet.ofList values).elems

def normalizeOperations (value : Option Json) : Except JsError (List JsString) :=
  match value with
  | some (.arr xs) => do
    let operations ← xs.mapM fun x => normalizeOperation (some x)
    if operations.isEmpty then .error (typeError (js "operations must not be empty")) else .ok (uniqueSorted operations)
  | _ => .error (typeError (js "operations must be an array"))

/-- `${field}[${index}]`. -/
def itemField (field : JsString) (index : ℕ) : JsString := indexPath P.toNumberFormat field index

def normalizePublicRefArray (value : Option Json) (field : JsString) : Except JsError (List JsString) :=
  match value with
  | some (.arr xs) => do
    let refs ← xs.zipIdx.mapM fun x => normalizePublicRef (some x.1) (itemField P field x.2)
    return uniqueSorted refs
  | _ => .error (typeError (field ++ js " must be an array"))

def normalizeNonEmptyPublicRefArray (value : Option Json) (field : JsString) : Except JsError (List JsString) := do
  let refs ← normalizePublicRefArray P value field
  if refs.isEmpty then .error (typeError (field ++ js " must not be empty")) else .ok refs

def normalizeCount (value : Option Json) (field : JsString) : Except JsError ℕ :=
  match Json.natural? value with
  | some n => .ok n
  | none => .error (typeError (field ++ js " must be a non-negative integer"))

def normalizeTtl (value : Option Json) (field : JsString) : Except JsError ℕ :=
  match Json.natural? value with
  | some (n + 1) => .ok (n + 1)
  | _ => .error (typeError (field ++ js " must be a positive integer"))

/-- `/^\d{4}-\d{2}-\d{2}T\d{2}:\d{2}:\d{2}(?:\.\d{3})?Z$/u`. -/
def dateTimeRe : Regex :=
  let d (n : ℕ) := Regex.times (.cls ⟨[(48, 57)], false⟩) n
  Regex.cat [.start, d 4, Regex.lit "-", d 2, Regex.lit "-", d 2, Regex.lit "T", d 2, Regex.lit ":", d 2, Regex.lit ":",
    d 2, Regex.opt (Regex.cat [Regex.lit ".", d 3]), Regex.lit "Z", .stop]

/-- The time value of a string for which `isDateTime` holds. -/
def dateTime (value : Option Json) : Option ℤ :=
  match value with
  | some (.str s) => if regexTest dateTimeRe s then P.parseDate s else none
  | _ => none

def isDateTime (value : Option Json) : Bool := (dateTime P value).isSome

def normalizeDateTime (value : Option Json) (field : JsString) : Except JsError JsString :=
  match dateTime P value with
  | some t => .ok (P.isoText t)
  | none => .error (typeError (field ++ js " must be an ISO date-time string"))

/-- `addSeconds(dateTime, seconds)`; the last time value is the end of the year 275760. -/
def addSeconds (dateTime : JsString) (seconds : ℕ) : Except JsError JsString :=
  match P.parseDate dateTime with
  | some t => if t + seconds * 1000 ≤ 8640000000000000 then .ok (P.isoText (t + seconds * 1000)) else .error invalidTime
  | none => .error invalidTime

/-! ## Derived references -/

/-- The value without some of its fields. -/
def withoutFields (value : Json) (omitted : List JsString) : Json := .obj (value.fields.filter fun f => decide (f.1 ∉ omitted))

def makePublicRef (kind : String) (value : Json) (omitted : List JsString) : JsString :=
  js "ref:" ++ js kind ++ js ":" ++ (sha256Hex ((withoutFields value omitted).canonicalize P.toNumberFormat)).take 32

def merkleRootFor (kind : String) (value : Json) (omitted : List JsString) : JsString :=
  computeSetRoot ((withoutFields value omitted).fields.map fun f =>
    (Json.obj [(js "kind", .str (js kind)), (js "key", .str f.1), (js "value", f.2)]).canonicalize P.toNumberFormat)

/-- An array of strings. -/
def strings (xs : List JsString) : Json := .arr (xs.map .str)

/-- `options[snake] ?? options[camel]`. -/
def option (options : Json) (snake camel : String) : Option Json := orElse (options.get (js snake)) (options.get (js camel))

/-- A reference given in the options, or its default. -/
def refOption (options : Json) (snake camel default : String) : Except JsError JsString :=
  normalizePublicRef (orElse (option options snake camel) (some (.str (js default)))) (js snake)

/-- References given in the options, or derived ones. -/
def refsOption (options : Json) (snake camel : String) (derived : JsString) : Except JsError (List JsString) :=
  normalizeNonEmptyPublicRefArray P (orElse (option options snake camel) (some (strings [derived]))) (js snake)

/-! ## `createConsentGrant` -/

def grantJson (appRef purposeRef : JsString) (operations zoneRefs : List JsString) (issuedAt expiresAt status grantRef
    policyRef : JsString) (proofRefs receiptRefs : List JsString) : Json :=
  .obj ([(js "schema", .str grantSchema), (js "app_ref", .str appRef), (js "purpose_ref", .str purposeRef),
      (js "operations", strings operations), (js "memory_zone_refs", strings zoneRefs), (js "issued_at", .str issuedAt),
      (js "expires_at", .str expiresAt), (js "status", .str status), (js "grant_ref", .str grantRef),
      (js "policy_ref", .str policyRef), (js "proof_refs", strings proofRefs), (js "receipt_refs", strings receiptRefs)]
    ++ boundaryFields)

def grantExpiry (options : Json) (issuedAt : JsString) : Except JsError JsString :=
  match option options "expires_at" "expiresAt" with
  | none | some .null => do
    let ttl ← normalizeTtl (orElse (option options "ttl_seconds" "ttlSeconds") (some (.num 300))) (js "ttl_seconds")
    let text ← addSeconds P issuedAt ttl
    normalizeDateTime P (some (.str text)) (js "expires_at")
  | some value => normalizeDateTime P (some value) (js "expires_at")

def createConsentGrant (options : Json) : Except JsError Json := do
  assertPlainRecord options (js "options")
  let issuedAt ← normalizeDateTime P (firstOf [options.get (js "issued_at"), options.get (js "issuedAt"),
    options.get (js "now"), some defaultNow]) (js "issued_at")
  let expiresAt ← grantExpiry P options issuedAt
  let appRef ← refOption options "app_ref" "appRef" "ref:app:unspecified"
  let purposeRef ← refOption options "purpose_ref" "purposeRef" "ref:purpose:unspecified"
  let operations ← normalizeOperations (orElse (options.get (js "operations"))
    (some (.arr [(options.get (js "operation")).getD (.str (js "recall_context"))])))
  let zoneRefs ← normalizePublicRefArray P (orElse (option options "memory_zone_refs" "memoryZoneRefs")
    (some (.arr [(options.get (js "memory_zone_ref")).getD (.str (js "ref:zone:default"))]))) (js "memory_zone_refs")
  let status ← normalizeMember grantStatuses (orElse (options.get (js "status")) (some (.str (js "active")))) (js "status")
    (js "status is not supported")
  let policyRef ← refOption options "policy_ref" "policyRef" "ref:policy:default"
  let body := grantJson appRef purposeRef operations zoneRefs issuedAt expiresAt status
  let grantRef ← normalizePublicRef (orElse (option options "grant_ref" "grantRef")
    (some (.str (makePublicRef P "grant" (body [] policyRef [] [])
      [js "grant_ref", js "proof_refs", js "receipt_refs"])))) (js "grant_ref")
  let proofRefs ← refsOption P options "proof_refs" "proofRefs"
    (makePublicRef P "proof" (body grantRef policyRef [] []) [js "proof_refs", js "receipt_refs"])
  let receiptRefs ← refsOption P options "receipt_refs" "receiptRefs"
    (makePublicRef P "receipt" (body grantRef policyRef proofRefs []) [js "receipt_refs"])
  assertMemoryControllerPublicSafe P (body grantRef policyRef proofRefs receiptRefs)

/-! ## `verifyConsentGrant` -/

/-- The fields of a grant. -/
def consentGrantFields : List JsString :=
  [js "schema", js "app_ref", js "purpose_ref", js "operations", js "memory_zone_refs", js "issued_at", js "expires_at",
    js "status", js "grant_ref", js "policy_ref", js "proof_refs", js "receipt_refs"] ++ boundaryFields.map Prod.fst

/-- The result of a verification. `ok` and `status` say whether there are errors. -/
structure Verification where
  errors : List JsString
  reason_codes : List JsString
  public_hash : Option JsString

def Verification.ok (v : Verification) : Bool := v.errors.isEmpty

/-- Error and reason code of a failed check. -/
abbrev Fault := JsString × JsString

/-- `push(errors, reasonCodes, code)` if a check fails. -/
def faultIf (cond : Bool) (code : JsString) : List Fault := if cond then [(code, code)] else []

def isPublicRefArray (value : Option Json) : Bool :=
  match value with
  | some (.arr xs) => !xs.isEmpty && (distinctValues xs).length == xs.length && xs.all fun x => isPublicRef (some x)
  | _ => false

/-- `accepted.has(value)`. -/
def isMember (accepted : List JsString) (value : Option Json) : Bool :=
  match value with
  | some (.str s) => decide (s ∈ accepted)
  | _ => false

def isOperationArray (value : Option Json) : Bool :=
  match value with
  | some (.arr xs) => !xs.isEmpty && (distinctValues xs).length == xs.length &&
      xs.all fun x => isMember grantOperations (some x)
  | _ => false

/-- `field.toUpperCase()` for the names of the boundary fields. -/
def upperCase (s : JsString) : JsString := s.map fun c => if isLowerUnit c then c - 32 else c

/-- `values.includes(value)` for a field that may be no array. -/
def includesValue (values value : Option Json) : Bool :=
  match values, value with
  | some (.arr xs), some v => hasValue xs v
  | _, _ => false

/-- The items of a field if it is an array. -/
def arrayItems (value : Option Json) : Option (List Json) :=
  match value with
  | some (.arr xs) => some xs
  | _ => none

def shapeFaults (grant : Json) : List Fault :=
  (grant.keys.flatMap fun key =>
      if key ∈ consentGrantFields then [] else [(js "UNKNOWN_FIELD:" ++ key, js "BAD_SHAPE")])
    ++ faultIf (!Json.isStr (grant.get (js "schema")) grantSchema) (js "BAD_SCHEMA")
    ++ faultIf (!isPublicRef (grant.get (js "app_ref"))) (js "BAD_APP_REF")
    ++ faultIf (!isPublicRef (grant.get (js "purpose_ref"))) (js "BAD_PURPOSE_REF")
    ++ faultIf (!isOperationArray (grant.get (js "operations"))) (js "BAD_OPERATIONS")
    ++ faultIf (!isPublicRefArray (grant.get (js "memory_zone_refs"))) (js "BAD_MEMORY_ZONE_REFS")
    ++ faultIf (!isDateTime P (grant.get (js "issued_at"))) (js "BAD_ISSUED_AT")
    ++ faultIf (!isDateTime P (grant.get (js "expires_at"))) (js "BAD_EXPIRES_AT")
    ++ faultIf (!isMember grantStatuses (grant.get (js "status"))) (js "BAD_STATUS")
    ++ faultIf (!isPublicRef (grant.get (js "grant_ref"))) (js "BAD_GRANT_REF")
    ++ faultIf (!isPublicRef (grant.get (js "policy_ref"))) (js "BAD_POLICY_REF")
    ++ faultIf (!isPublicRefArray (grant.get (js "proof_refs"))) (js "BAD_PROOF_REFS")
    ++ faultIf (!isPublicRefArray (grant.get (js "receipt_refs"))) (js "BAD_RECEIPT_REFS")
    ++ boundaryFields.flatMap fun f => faultIf (!strictEq (grant.get f.1) (some f.2)) (js "BAD_" ++ upperCase f.1)

/-- `containsRef(values, ref)`. -/
def containsRef (values ref : Option Json) : Bool := includesValue values ref

def validityFaults (grant options : Json) (now : ℤ) : List Fault :=
  faultIf (Json.isStr (grant.get (js "status")) (js "expired")
      || (match dateTime P (grant.get (js "expires_at")) with | some t => decide (t ≤ now) | none => false)) (js "EXPIRED")
    ++ faultIf (Json.isStr (grant.get (js "status")) (js "revoked")
      || strictEq (options.get (js "revoked")) (some (.bool true))) (js "REVOKED")
    ++ faultIf (containsRef (option options "revoked_grant_refs" "revokedGrantRefs") (grant.get (js "grant_ref")))
      (js "REVOKED")

def expectedOperations (options : Json) : List (Option Json) :=
  ((arrayItems (options.get (js "operations"))).getD []).map some
    ++ if (options.get (js "operation")).isNone then [] else [options.get (js "operation")]

def expectedMemoryZoneRefs (options : Json) : List (Option Json) :=
  (((arrayItems (options.get (js "memory_zone_refs"))).or (arrayItems (options.get (js "memoryZoneRefs")))).getD []).map some
    ++ if (options.get (js "memory_zone_ref")).isNone && (options.get (js "memoryZoneRef")).isNone then []
      else [option options "memory_zone_ref" "memoryZoneRef"]

def compareScope (grant options : Json) : List Fault :=
  let appRef := option options "app_ref" "appRef"
  let purposeRef := option options "purpose_ref" "purposeRef"
  faultIf (appRef.isSome && !strictEq (grant.get (js "app_ref")) appRef) (js "WRONG_APP")
    ++ faultIf (purposeRef.isSome && !strictEq (grant.get (js "purpose_ref")) purposeRef) (js "WRONG_PURPOSE")
    ++ faultIf ((expectedOperations options).any fun o => !includesValue (grant.get (js "operations")) o) (js "WRONG_OPERATION")
    ++ faultIf ((expectedMemoryZoneRefs options).any fun z => !includesValue (grant.get (js "memory_zone_refs")) z)
      (js "WRONG_MEMORY_ZONE")

/-- `now` as a time value: the text is normalized and read again. -/
def nowOption (options : Json) : Except JsError ℤ :=
  match dateTime P (orElse (options.get (js "now")) (some defaultNow)) with
  | some t => .ok t
  | none => .error (typeError (js "now must be an ISO date-time string"))

def verification (faults : List Fault) (publicHash : Option JsString) : Verification :=
  ⟨uniqueSorted (faults.map Prod.fst), uniqueSorted (faults.map Prod.snd), publicHash⟩

def verifyConsentGrant (grant options : Json) : Except JsError Verification :=
  if !grant.isPlainRecord then .ok (verification [(js "GRANT_NOT_OBJECT", js "GRANT_NOT_OBJECT")] none)
  else do
    let publicSafe := scanMemoryControllerPublicSafe P grant
    let now ← nowOption P options
    return verification (faultIf (!publicSafe.ok) (js "NON_PUBLIC_SAFE_ARTIFACT") ++ shapeFaults P grant
      ++ validityFaults P grant options now ++ compareScope grant options) publicSafe.public_hash

/-! ## `createRecallVetoDecision` -/

structure RecallCounts where
  candidate_count : ℕ
  tombstone_count : ℕ
  sensitive_count : ℕ

def RecallCounts.safe (c : RecallCounts) : Bool :=
  decide (c.tombstone_count ≤ c.candidate_count) && decide (c.sensitive_count ≤ c.candidate_count)

def RecallCounts.toJson (c : RecallCounts) : Json :=
  .obj [(js "candidate_count", .num c.candidate_count), (js "tombstone_count", .num c.tombstone_count),
    (js "sensitive_count", .num c.sensitive_count), (js "safe", .bool c.safe)]

def countOption (options : Json) (snake camel : String) : Except JsError ℕ :=
  normalizeCount (orElse (option options snake camel) (some (.num 0))) (js snake)

def normalizeRecallCounts (options : Json) : Except JsError RecallCounts := do
  let candidateCount ← countOption options "candidate_count" "candidateCount"
  let tombstoneCount ← countOption options "tombstone_count" "tombstoneCount"
  let sensitiveCount ← countOption options "sensitive_count" "sensitiveCount"
  return ⟨candidateCount, tombstoneCount, sensitiveCount⟩

/-- `value?.[0]`. -/
def firstItem (value : Option Json) : Option Json :=
  match value with
  | some (.arr xs) => xs.head?
  | some (.str s) => s.head?.map fun c => .str [c]
  | some (.obj fs) => (Json.obj fs).get (js "0")
  | _ => none

/-- What a request is about, after each of its scopes has been collapsed to one value. -/
structure Scope where
  app_ref : JsString
  operation : JsString
  memory_zone_ref : JsString
  purpose_ref : JsString

/-- The loop over the candidate grants; `first` is the first one with its verification. -/
def selectLoop (scope : Json) (first : Option (Json × Verification)) : List Json → Except JsError (Option (Json × Verification))
  | [] => .ok first
  | grant :: rest => do
    let result ← verifyConsentGrant P grant scope
    if result.ok then .ok (some (grant, result)) else selectLoop scope (first.or (some (grant, result))) rest

/-- The grants of the options: `grant`, then `grants`. -/
def suppliedGrants (options : Json) : List Json :=
  (orElse (options.get (js "grant")) none).toList ++ (arrayItems (options.get (js "grants"))).getD []

def scopeJson (options : Json) (s : Scope) : Json :=
  .obj ([(js "app_ref", .str s.app_ref), (js "operation", .str s.operation), (js "memory_zone_ref", .str s.memory_zone_ref),
      (js "purpose_ref", .str s.purpose_ref)]
    ++ Json.field (js "now") (orElse (options.get (js "now")) (some defaultNow))
    ++ Json.field (js "revoked_grant_refs") (option options "revoked_grant_refs" "revokedGrantRefs"))

def selectGrant (options : Json) (s : Scope) : Except JsError (Option (Json × Verification)) :=
  selectLoop P (scopeJson options s) none (suppliedGrants options)

inductive Decision where
  | allow
  | ask
  | deny
  deriving DecidableEq, Repr

def Decision.text : Decision → JsString
  | allow => js "allow"
  | ask => js "ask"
  | deny => js "deny"

def countReasons (c : RecallCounts) : List JsString :=
  (if 0 < c.tombstone_count then [js "tombstone_present"] else [])
    ++ (if 0 < c.sensitive_count then [js "sensitivity_blocked"] else [])
    ++ if c.safe then [] else [js "candidate_limit_exceeded"]

/-- The decision, its reason codes and the grant references it names. -/
structure Verdict where
  decision : Decision
  reason_codes : List JsString
  grant_refs : List Json

/-- `[grant.value.grant_ref]` if it is a public reference. -/
def namedGrant (grant : Json) : List Json := if isPublicRef (grant.get (js "grant_ref")) then (grant.get (js "grant_ref")).toList else []

def recallVerdict (c : RecallCounts) (selected : Option (Json × Verification)) : Verdict :=
  if !(countReasons c).isEmpty then ⟨.deny, countReasons c, []⟩
  else
    match selected with
    | some (grant, v) =>
      if v.ok then ⟨.allow, [], (grant.get (js "grant_ref")).toList⟩
      else if js "REVOKED" ∈ v.reason_codes then ⟨.deny, [js "policy_denies_recall"], namedGrant grant⟩
      else if js "EXPIRED" ∈ v.reason_codes then ⟨.deny, [js "grant_expired"], namedGrant grant⟩
      else ⟨.ask, [js "grant_missing"], []⟩
    | none => ⟨.ask, [js "grant_missing"], []⟩

def normalizeReasonCodes (value : Option Json) : Except JsError (List JsString) :=
  match value with
  | some (.arr xs) => xs.zipIdx.mapM fun x => normalizeMember recallReasonCodes (some x.1)
      (itemField P (js "reason_codes") x.2) (itemField P (js "reason_codes") x.2 ++ js " is not supported")
  | _ => .error (typeError (js "reason_codes must be an array"))

/-- `operation ?? operations?.[0] ?? 'recall_context'`. -/
def requestedOperation (options : Json) : Option Json :=
  firstOf [options.get (js "operation"), firstItem (options.get (js "operations")), some (.str (js "recall_context"))]

def requestedZone (options : Json) : Option Json :=
  firstOf [options.get (js "memory_zone_ref"), options.get (js "memoryZoneRef"),
    firstItem (options.get (js "memory_zone_refs")), some (.str (js "ref:zone:default"))]

def recallScope (options : Json) : Except JsError Scope := do
  let appRef ← refOption options "app_ref" "appRef" "ref:app:unspecified"
  let operation ← normalizeOperation (requestedOperation options)
  let memoryZoneRef ← normalizePublicRef (requestedZone options) (js "memory_zone_ref")
  let purposeRef ← refOption options "purpose_ref" "purposeRef" "ref:purpose:unspecified"
  return ⟨appRef, operation, memoryZoneRef, purposeRef⟩

def requestJson (s : Scope) (c : RecallCounts) : Json :=
  .obj [(js "appRef", .str s.app_ref), (js "operation", .str s.operation), (js "memoryZoneRef", .str s.memory_zone_ref),
    (js "purposeRef", .str s.purpose_ref), (js "counts", c.toJson)]

def vetoJson (requestRef appRef policyRef : JsString) (decision : Decision) (reasonCodes : List JsString) (c : RecallCounts)
    (grantRefs proofRefs receiptRefs : List JsString) : Json :=
  .obj ([(js "schema", .str vetoSchema), (js "request_ref", .str requestRef), (js "app_ref", .str appRef),
      (js "policy_ref", .str policyRef), (js "decision", .str decision.text), (js "reason_codes", strings reasonCodes),
      (js "candidate_count", .num c.candidate_count), (js "sensitive_count", .num c.sensitive_count),
      (js "tombstone_count", .num c.tombstone_count), (js "grant_refs", strings grantRefs),
      (js "proof_refs", strings proofRefs), (js "receipt_refs", strings receiptRefs),
      (js "safe_to_share", .bool (decision == .allow))]
    ++ boundaryFields)

/-- The artifact of a verdict. -/
def vetoArtifact (options : Json) (scope : Scope) (policyRef : JsString) (counts : RecallCounts) (verdict : Verdict) :
    Except JsError Json := do
  let requestRef ← normalizePublicRef (orElse (option options "request_ref" "requestRef")
    (some (.str (makePublicRef P "request" (requestJson scope counts) [])))) (js "request_ref")
  let reasonCodes ← normalizeReasonCodes P (orElse (option options "reason_codes" "reasonCodes")
    (some (strings verdict.reason_codes)))
  let grantRefs ← normalizePublicRefArray P (orElse (option options "grant_refs" "grantRefs") (some (.arr verdict.grant_refs)))
    (js "grant_refs")
  let body := vetoJson requestRef scope.app_ref policyRef verdict.decision (uniqueSorted reasonCodes) counts grantRefs
  let proofRefs ← refsOption P options "proof_refs" "proofRefs"
    (makePublicRef P "proof" (body [] []) [js "proof_refs", js "receipt_refs"])
  let receiptRefs ← refsOption P options "receipt_refs" "receiptRefs"
    (makePublicRef P "receipt" (body proofRefs []) [js "receipt_refs"])
  assertMemoryControllerPublicSafe P (body proofRefs receiptRefs)

def createRecallVetoDecision (options : Json) : Except JsError Json := do
  assertPlainRecord options (js "options")
  let scope ← recallScope options
  let policyRef ← refOption options "policy_ref" "policyRef" "ref:policy:default"
  let counts ← normalizeRecallCounts options
  let selected ← selectGrant P options scope
  vetoArtifact P options scope policyRef counts (recallVerdict counts selected)

end Controller

end EnigmaMemory
