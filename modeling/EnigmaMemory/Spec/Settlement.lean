import EnigmaMemory.Spec.PublicSafe
import EnigmaMemory.Spec.Vault

/-!
# Service settlement

`packages/settlement`: a tenant's job with the most it will pay, an operator's quote for the
job, and the receipt that settles the quote. Each artifact is named by a digest of its body. The
constructors copy the fields of the artifact before into the next one and check the prices;
`verifyServiceSettlementReceipt` takes the three artifacts from anywhere and compares them. A
capacity profile is an artifact that the caller brings along; its constructor is left out.
-/

namespace EnigmaMemory

namespace Settlement

open Json Regex

variable (P : Platform)

/-! ## Values -/

def jobSchema : JsString := js "enigma.permissionless_memory_job.v1"

def capacityProfileSchema : JsString := js "enigma.consumer_gpu_capacity_profile.v1"

def quoteSchema : JsString := js "enigma.operator_service_quote.v1"

def receiptSchema : JsString := js "enigma.service_settlement_receipt.v1"

def productThesis : JsString :=
  js "Use permissionless rails for access, service accountability, and settlement while keeping raw memory and hot-path optimization centralized or BYOC-controlled."

def acceptedJobTypes : List JsString :=
  [js "memory.read", js "memory.write", js "memory.delete", js "context.pack", js "relay.store", js "witness.checkpoint",
    js "gateway.evaluate"]

def acceptedServiceKinds : List JsString :=
  [js "relay", js "witness", js "gateway", js "memory_optimizer", js "settlement_gateway"]

def acceptedAssets : List JsString := [js "USD", js "USDC", js "SOL", js "ENIGMA", js "CREDITS"]

/-! ## Digests -/

/-- The number of a key that is an array index; an object lists such keys first. -/
def arrayIndex (key : JsString) : Option ℕ :=
  match key with
  | [48] => some 0
  | 48 :: _ => none
  | _ => (if key.all isDigitUnit then digitsValue 10 key else none).filter fun n => decide (n ≤ 4294967294)

/-- The fields of an object as the language lists them: array indices by size, then the other
keys as they were added. -/
def listedFields {α : Type} (fs : List (JsString × α)) : List (JsString × α) :=
  (fs.filter fun f => (arrayIndex f.1).isSome).insertionSort (fun a b => (arrayIndex a.1).getD 0 ≤ (arrayIndex b.1).getD 0)
    ++ fs.filter fun f => (arrayIndex f.1).isNone

mutual
/-- `canonicalize(value)`: the value with the keys of every object added in increasing order.
`out['__proto__'] = …` adds no key. -/
def canonicalize : Json → Json
  | .arr xs => .arr (canonicalizeItems xs)
  | .obj fs => .obj (listedFields ((sortFields (canonicalizeFields fs)).filter fun f => f.1 ≠ js "__proto__"))
  | value => value

def canonicalizeItems : List Json → List Json
  | [] => []
  | x :: xs => canonicalize x :: canonicalizeItems xs

def canonicalizeFields : List (JsString × Json) → List (JsString × Json)
  | [] => []
  | (k, v) :: fs => (k, canonicalize v) :: canonicalizeFields fs
end

example : (canonicalize (.obj [(js "b", .null), (js "10", .null), (js "a", .null), (js "9", .null)])).keys =
    [js "9", js "10", js "a", js "b"] := by decide

def digest (value : Json) : JsString := prefixedSha256 ((canonicalize value).stringify P.toNumberFormat)

/-- The first half of the digest of a body, after the name of the kind. -/
def idFrom (kind : String) (body : Json) : JsString := js kind ++ ((digest P body).drop 7).take 32

def jobIdFrom (body : Json) : JsString := idFrom P "pjob_" body

def quoteIdFrom (body : Json) : JsString := idFrom P "quote_" body

def receiptIdFrom (body : Json) : JsString := idFrom P "settle_" body

/-! ## The scan -/

/-- What else the flags `iu` take for a letter: the long s and the Kelvin sign. -/
def unicodeFold (c : ℕ) : List (ℕ × ℕ) :=
  if c = 115 ∨ c = 83 then [(0x17F, 0x17F)] else if c = 107 ∨ c = 75 then [(0x212A, 0x212A)] else []

/-- A literal under the flags `iu`. -/
def litU (s : String) : Regex := litFold unicodeFold s

/-- `[A-Za-z…]` under the flags `iu`, with the given further ranges. -/
def letterClass (others : List (ℕ × ℕ)) : Regex :=
  cls ⟨[(65, 90), (97, 122), (0x17F, 0x17F), (0x212A, 0x212A)] ++ others, false⟩

/-- The ranges of the given characters. -/
def charRanges (s : String) : List (ℕ × ℕ) := s.toList.map fun c => (c.toNat, c.toNat)

def forbiddenWords : List String :=
  ["raw", "plaintext", "plain_text", "prompt", "prompts", "message", "messages", "text", "content", "document",
    "documents", "transcript", "response", "responses", "provider_response", "response_body", "credential", "credentials",
    "api_key", "secret", "password", "private_key", "seed", "mnemonic"]

def forbiddenKeyRe : Regex := cat [any [start, litU "_"], any (forbiddenWords.map litU), any [stop, litU "_"]]

def secretValueRe : Regex :=
  any [cat [litU "Bearer", plus space, atLeast (letterClass ((48, 57) :: charRanges "._~+/=-")) 12],
    cat [litU "Basic", plus space, atLeast (letterClass ((48, 57) :: charRanges "+/=-")) 12],
    cat [litU "-----BEGIN ", star (letterClass (charRanges " ")), litU "PRIVATE KEY-----"],
    cat [litU "http", opt (litU "s"), litU "://", plus (cls ⟨whiteRanges ++ charRanges "/:@", true⟩), litU ":",
      plus (cls ⟨whiteRanges ++ charRanges "/@", true⟩), litU "@"],
    litU "raw memory", litU "private prompt", litU "full transcript", litU "decrypted capsule",
    cat [litU "sk-", atLeast (letterClass ((48, 57) :: charRanges "_-")) 16],
    cat [litU "AKIA", times (letterClass [(48, 57)]) 16]]

def safeFieldNames : List JsString :=
  [js "raw_memory_on_chain", js "raw_memory_in_job", js "raw_memory_in_receipt", js "raw_memory_access_required"]

/-- `/\.(claim_boundary\[\d+\]|product_thesis)$/`. -/
def statementPathRe : Regex :=
  cat [lit ".", any [cat [lit "claim_boundary[", plus (cls ⟨[(48, 57)], false⟩), lit "]"], lit "product_thesis"], stop]

mutual
def assertNoSensitivePayload : Json → JsString → Except JsError Unit
  | .str s, path =>
    if !regexTest statementPathRe path && regexTest secretValueRe s then
      .error (typeError (path ++ js " contains secret-looking data"))
    else .ok ()
  | .arr xs, path => assertItems xs path 0
  | .obj fs, path => assertFields fs path
  | _, _ => .ok ()

def assertItems : List Json → JsString → ℕ → Except JsError Unit
  | [], _, _ => .ok ()
  | x :: xs, path, index => do
    assertNoSensitivePayload x (indexPath P.toNumberFormat path index)
    assertItems xs path (index + 1)

def assertFields : List (JsString × Json) → JsString → Except JsError Unit
  | [], _ => .ok ()
  | (key, child) :: fs, path =>
    if regexTest forbiddenKeyRe key && decide (key ∉ safeFieldNames) then
      .error (typeError (keyPath path key ++ js " is not allowed in settlement artifacts"))
    else do
      assertNoSensitivePayload child (keyPath path key)
      assertFields fs path
end

/-! ## Checks on values -/

/-- `owner.key`, which throws if the owner is nullish. -/
def member (owner : Option Json) (key : String) : Except JsError (Option Json) :=
  match owner with
  | none => .error (typeError (js "Cannot read properties of undefined (reading '" ++ js key ++ js "')"))
  | some .null => .error (typeError (js "Cannot read properties of null (reading '" ++ js key ++ js "')"))
  | some value => .ok (value.get (js key))

def requiredString (value : Option Json) (field : String) : Except JsError JsString :=
  match value with
  | some (.str s) => if trim s = [] then .error fault else .ok (trim s)
  | _ => .error fault
where
  fault : JsError := typeError (js field ++ js " must be a non-empty string")

def optionalString (value fallback : Option Json) : Except JsError (Option Json) :=
  match value with
  | none | some .null | some (.str []) => .ok fallback
  | some v => do
    let s ← requiredString (some (.str (v.toText P.toNumberFormat))) "string"
    .ok (some (.str s))

/-- A finite number for which a test holds. -/
def checkedNumber (test : ℚ → Bool) (value : Option Json) (field message : String) : Except JsError ℚ :=
  match toNumeric P.toNumberFormat value with
  | .finite q => if test q then .ok q else .error (typeError (js field ++ js message))
  | _ => .error (typeError (js field ++ js message))

def nonNegativeNumber (value : Option Json) (field : String) : Except JsError ℚ :=
  checkedNumber P (fun q => decide (0 ≤ q)) (orElse value (some (.num 0))) field " must be a non-negative number"

def positiveNumber (value : Option Json) (field : String) : Except JsError ℚ :=
  checkedNumber P (fun q => decide (0 < q)) value field " must be a positive number"

/-- `Date.parse(value)`. -/
def parsedTime (value : Option Json) : Option ℤ := P.parseDate ((value.map (·.toText P.toNumberFormat)).getD (js "undefined"))

/-- `new Date(0).toISOString()`. -/
def epoch : Option Json := some (.str (P.isoText 0))

def farFuture : Option Json := some (.str (js "2100-01-01T00:00:00.000Z"))

def isoTimestamp (value : Option Json) (field : String) (fallback : Option Json) : Except JsError (Option Json) := do
  let timestamp ← optionalString P value fallback
  if (parsedTime P timestamp).isNone then .error (typeError (js field ++ js " must be ISO-parseable")) else .ok timestamp

/-- `Date.parse(a) <= Date.parse(b)`. -/
def notAfter (a b : Option Json) : Bool :=
  match parsedTime P a, parsedTime P b with
  | some t, some u => decide (t ≤ u)
  | _, _ => false

def root (value : Option Json) (field : String) : Except JsError JsString := do
  let s ← requiredString value field
  if isRoot s then .ok s else .error (typeError (js field ++ js " must be a sha256-prefixed digest"))

/-- `toUpperCase`, as far as its caller can see, which looks for the letters of the assets.
Beside `a-z` only the long s and the dotless i have one. -/
def upperUnit (c : CodeUnit) : CodeUnit := if isLowerUnit c then c - 32 else if c = 0x17F then 83 else if c = 0x131 then 73 else c

def asset (value : Option Json) (field : String) : Except JsError JsString := do
  let s ← requiredString value field
  if s.map upperUnit ∈ acceptedAssets then .ok (s.map upperUnit)
  else .error (typeError (js field ++ js " is not an accepted settlement asset"))

/-- `value` is a plain object with the given schema. -/
def hasSchema (value : Option Json) (schema : JsString) : Bool :=
  (value.map isPlainRecord).getD false && Json.isStr (value.bind (·.get (js "schema"))) schema

/-- `throw` if a check fails. -/
def require (cond : Bool) (error : JsError) : Except JsError Unit := if cond then .ok () else .error error

/-- `input[snake] ?? input[camel]`. -/
def option (input : Json) (snake camel : String) : Option Json := orElse (input.get (js snake)) (input.get (js camel))

/-- The body with its identifier and its digest. -/
def sealed (idKey hashKey kind : String) (body : Json) : Json :=
  body.spread (.obj [(js idKey, .str (idFrom P kind body)), (js hashKey, .str (digest P body))])

/-! ## `createPermissionlessMemoryJob` -/

def flags (fs : List (String × Bool)) : Json := .obj (fs.map fun f => (js f.1, .bool f.2))

def price (amount : ℚ) (asset : Option Json) : Json := .obj ((js "amount", .num amount) :: field (js "asset") asset)

def createPermissionlessMemoryJob (input : Json) : Except JsError Json := do
  require input.isPlainRecord (typeError (js "createPermissionlessMemoryJob requires an options object"))
  assertNoSensitivePayload P input (js "input")
  let jobType ← requiredString (option input "job_type" "jobType") "job_type"
  require (jobType ∈ acceptedJobTypes) (typeError (js "job_type is not accepted"))
  let maxPriceAmount ← positiveNumber P (option input "max_price_amount" "maxPriceAmount") "max_price_amount"
  let paymentAsset ← asset (option input "payment_asset" "paymentAsset") "payment_asset"
  let tenantId ← requiredString (option input "tenant_id" "tenantId") "tenant_id"
  let memoryCommitmentRoot ← root (option input "memory_commitment_root" "memoryCommitmentRoot") "memory_commitment_root"
  let policyHash ← root (option input "policy_hash" "policyHash") "policy_hash"
  let usageEventHash ← root (option input "usage_event_hash" "usageEventHash") "usage_event_hash"
  let requestedAt ← isoTimestamp P (option input "requested_at" "requestedAt") "requested_at" (epoch P)
  let expiresAt ← isoTimestamp P (option input "expires_at" "expiresAt") "expires_at" farFuture
  let body := Json.obj ([(js "schema", .str jobSchema), (js "product_thesis", .str productThesis),
      (js "tenant_id", .str tenantId), (js "job_type", .str jobType),
      (js "memory_commitment_root", .str memoryCommitmentRoot), (js "policy_hash", .str policyHash),
      (js "usage_event_hash", .str usageEventHash)]
    ++ field (js "requested_at") requestedAt ++ field (js "expires_at") expiresAt
    ++ [(js "max_price", price maxPriceAmount (some (.str paymentAsset))),
      (js "access_boundary", flags [("permissionless_submission", true), ("raw_memory_on_chain", false),
        ("raw_memory_in_job", false), ("centralized_or_byoc_hot_path", true), ("token_roi_claim", false),
        ("provider_invoice_savings_claim", false)])])
  require (!notAfter P expiresAt requestedAt) ⟨.rangeError, js "expires_at must be after requested_at"⟩
  let job := sealed P "job_id" "job_hash" "pjob_" body
  assertNoSensitivePayload P job (js "job")
  return job

/-! ## `createOperatorServiceQuote` -/

/-- The checks on a capacity profile, and the fields that it adds to the body of a quote. -/
def capacityFields (capacityProfile : Json) (serviceKind operatorId quoteAsset : JsString) (body : Json) :
    Except JsError Json := do
  require (hasSchema (some capacityProfile) capacityProfileSchema)
    (typeError (js "capacity_profile must be an Enigma consumer GPU capacity profile"))
  require (serviceKind = js "memory_optimizer")
    (typeError (js "capacity_profile quotes must use service_kind memory_optimizer"))
  require (strictEq (capacityProfile.get (js "operator_id")) (some (.str operatorId)))
    (typeError (js "capacity_profile operator must match quote operator"))
  let profileAsset ← member (capacityProfile.get (js "price_per_million_context_tokens")) "asset"
  require (strictEq profileAsset (some (.str quoteAsset)))
    (typeError (js "capacity_profile asset must match quote asset"))
  return body.spread (.obj (field (js "capacity_ref") (capacityProfile.get (js "capacity_ref"))
    ++ field (js "capacity_profile_hash") (capacityProfile.get (js "capacity_profile_hash"))
    ++ field (js "consumer_gpu_boundary") (capacityProfile.get (js "service_boundary"))))

/-- `input.asset ?? input.payment_asset ?? input.paymentAsset ?? job.max_price.asset`. -/
def requestedAsset (input job : Json) : Except JsError (Option Json) :=
  match firstOf [input.get (js "asset"), input.get (js "payment_asset"), input.get (js "paymentAsset")] with
  | none | some .null => member (job.get (js "max_price")) "asset"
  | some value => .ok (some value)

def createOperatorServiceQuote (input : Json) : Except JsError Json := do
  require input.isPlainRecord (typeError (js "createOperatorServiceQuote requires an options object"))
  assertNoSensitivePayload P input (js "input")
  let job := (input.get (js "job")).getD .null
  require (hasSchema (some job) jobSchema) (typeError (js "job must be an Enigma permissionless memory job"))
  let serviceKind ← requiredString (option input "service_kind" "serviceKind") "service_kind"
  require (serviceKind ∈ acceptedServiceKinds) (typeError (js "service_kind is not accepted"))
  let priceAmount ← positiveNumber P (option input "price_amount" "priceAmount") "price_amount"
  let requested ← requestedAsset input job
  let quoteAsset ← asset requested "asset"
  let maxAsset ← member (job.get (js "max_price")) "asset"
  require (strictEq (some (.str quoteAsset)) maxAsset) (typeError (js "quote asset must match job max_price asset"))
  let maxAmount ← member (job.get (js "max_price")) "amount"
  require (!greater P.toNumberFormat (some (.num priceAmount)) maxAmount) ⟨.rangeError, js "quote price exceeds job max_price"⟩
  let capacityProfile := withDefault (option input "capacity_profile" "capacityProfile") .null
  let operatorId ← requiredString (option input "operator_id" "operatorId") "operator_id"
  let quotedAt ← isoTimestamp P (option input "quoted_at" "quotedAt") "quoted_at" (epoch P)
  let expiresAt ← isoTimestamp P (option input "expires_at" "expiresAt") "expires_at" (job.get (js "expires_at"))
  let capacityRef ← if truthy (some capacityProfile) then
      requiredString (capacityProfile.get (js "capacity_ref")) "capacity_profile.capacity_ref"
    else requiredString (option input "capacity_ref" "capacityRef") "capacity_ref"
  let termsRef ← requiredString (option input "terms_ref" "termsRef") "terms_ref"
  let body := Json.obj ([(js "schema", .str quoteSchema), (js "product_thesis", .str productThesis)]
    ++ field (js "job_id") (job.get (js "job_id")) ++ field (js "job_hash") (job.get (js "job_hash"))
    ++ field (js "tenant_id") (job.get (js "tenant_id"))
    ++ [(js "operator_id", .str operatorId), (js "service_kind", .str serviceKind)]
    ++ field (js "quoted_at") quotedAt ++ field (js "expires_at") expiresAt
    ++ [(js "price", price priceAmount (some (.str quoteAsset))), (js "capacity_ref", .str capacityRef),
      (js "terms_ref", .str termsRef),
      (js "accountability_boundary", flags [("service_receipt_required", true), ("raw_memory_access_required", false),
        ("operator_controls_hot_path", false), ("token_profit_claim", false)])])
  let body ← match capacityProfile with
    | .null => .ok body
    | profile => capacityFields profile serviceKind operatorId quoteAsset body
  require (!notAfter P expiresAt quotedAt) ⟨.rangeError, js "quote expires_at must be after quoted_at"⟩
  let quote := sealed P "quote_id" "quote_hash" "quote_" body
  assertNoSensitivePayload P quote (js "quote")
  return quote

/-! ## `createServiceSettlementReceipt` -/

/-- `input.settled_amount ?? input.settledAmount ?? quote.price.amount`. -/
def requestedAmount (input quote : Json) : Except JsError (Option Json) :=
  match option input "settled_amount" "settledAmount" with
  | none | some .null => member (quote.get (js "price")) "amount"
  | some value => .ok (some value)

def createServiceSettlementReceipt (input : Json) : Except JsError Json := do
  require input.isPlainRecord (typeError (js "createServiceSettlementReceipt requires an options object"))
  assertNoSensitivePayload P input (js "input")
  let job := (input.get (js "job")).getD .null
  let quote := (input.get (js "quote")).getD .null
  require (hasSchema (some job) jobSchema) (typeError (js "job must be an Enigma permissionless memory job"))
  require (hasSchema (some quote) quoteSchema) (typeError (js "quote must be an Enigma operator service quote"))
  require (strictEq (quote.get (js "job_hash")) (job.get (js "job_hash")) &&
    strictEq (quote.get (js "job_id")) (job.get (js "job_id"))) (typeError (js "quote must reference job"))
  let requested ← requestedAmount input quote
  let settledAmount ← nonNegativeNumber P requested "settled_amount"
  let quotedAmount ← member (quote.get (js "price")) "amount"
  require (!greater P.toNumberFormat (some (.num settledAmount)) quotedAmount)
    ⟨.rangeError, js "settled_amount exceeds quoted price"⟩
  let completedAt ← isoTimestamp P (option input "completed_at" "completedAt") "completed_at" (epoch P)
  let quotedAsset ← member (quote.get (js "price")) "asset"
  let settlementRef ← requiredString (option input "settlement_ref" "settlementRef") "settlement_ref"
  let serviceReceiptRef ← requiredString (option input "service_receipt_ref" "serviceReceiptRef") "service_receipt_ref"
  let body := Json.obj ([(js "schema", .str receiptSchema), (js "product_thesis", .str productThesis)]
    ++ field (js "job_id") (job.get (js "job_id")) ++ field (js "job_hash") (job.get (js "job_hash"))
    ++ field (js "quote_id") (quote.get (js "quote_id")) ++ field (js "quote_hash") (quote.get (js "quote_hash"))
    ++ field (js "tenant_id") (job.get (js "tenant_id")) ++ field (js "operator_id") (quote.get (js "operator_id"))
    ++ field (js "service_kind") (quote.get (js "service_kind")) ++ field (js "completed_at") completedAt
    ++ field (js "usage_event_hash") (job.get (js "usage_event_hash"))
    ++ field (js "memory_commitment_root") (job.get (js "memory_commitment_root"))
    ++ field (js "policy_hash") (job.get (js "policy_hash"))
    ++ [(js "settled_price", price settledAmount quotedAsset), (js "settlement_ref", .str settlementRef),
      (js "service_receipt_ref", .str serviceReceiptRef),
      (js "settlement_boundary", flags [("permissionless_access", true), ("raw_memory_on_chain", false),
        ("raw_memory_in_receipt", false), ("provider_invoice_savings_claim", false), ("token_roi_claim", false),
        ("token_profit_claim", false), ("model_forgetting_claim", false), ("provider_deletion_claim", false)])])
  let receipt := sealed P "settlement_receipt_id" "settlement_receipt_hash" "settle_" body
  assertNoSensitivePayload P receipt (js "receipt")
  return receipt

/-! ## `verifyServiceSettlementReceipt` -/

/-- The result of a verification; `ok` and `valid` say whether there are errors. -/
structure Verification where
  errors : List JsString

def Verification.ok (v : Verification) : Bool := v.errors.isEmpty

/-- The error of the scan of the whole input, if any. -/
def scanErrors (input : Json) : List JsString :=
  match assertNoSensitivePayload P input (js "verification") with
  | .ok _ => []
  | .error e => [e.message]

/-- Two fields that have to be equal. -/
def differ (a b : Json) (key : String) : Bool := !strictEq (a.get (js key)) (b.get (js key))

/-- The checks on three artifacts with the right schemas. -/
def artifactErrors (job quote receipt : Json) : Except JsError (List JsString) := do
  let settledAsset ← member (receipt.get (js "settled_price")) "asset"
  let quotedAsset ← member (quote.get (js "price")) "asset"
  let settledAmount ← member (receipt.get (js "settled_price")) "amount"
  let quotedAmount ← member (quote.get (js "price")) "amount"
  let boundary := receipt.get (js "settlement_boundary")
  let receiptBody := (receipt.without (js "settlement_receipt_id")).without (js "settlement_receipt_hash")
  return errorIf (differ receipt job "job_hash" || differ receipt job "job_id") "receipt job reference mismatch"
    ++ errorIf (differ receipt quote "quote_hash" || differ receipt quote "quote_id") "receipt quote reference mismatch"
    ++ errorIf (differ quote job "job_hash" || differ quote job "job_id") "quote job reference mismatch"
    ++ errorIf (differ receipt job "usage_event_hash") "usage event reference mismatch"
    ++ errorIf (differ receipt job "memory_commitment_root") "memory commitment reference mismatch"
    ++ errorIf (differ receipt job "policy_hash") "policy hash reference mismatch"
    ++ errorIf (!strictEq settledAsset quotedAsset) "settlement asset mismatch"
    ++ errorIf (greater P.toNumberFormat settledAmount quotedAmount) "settlement amount exceeds quote"
    ++ errorIf (!strictEq (path boundary ["raw_memory_on_chain"]) (some (.bool false))) "receipt must not put raw memory on-chain"
    ++ errorIf (!strictEq (path boundary ["token_roi_claim"]) (some (.bool false))) "receipt must not claim token ROI"
    ++ errorIf (!strictEq (receipt.get (js "settlement_receipt_id")) (some (.str (receiptIdFrom P receiptBody))))
      "settlement receipt id mismatch"
    ++ errorIf (!strictEq (receipt.get (js "settlement_receipt_hash")) (some (.str (digest P receiptBody))))
      "settlement receipt hash mismatch"

def verifyServiceSettlementReceipt (input : Json) : Except JsError Verification := do
  let job ← member (some input) "job"
  let quote := input.get (js "quote")
  let receipt := input.get (js "receipt")
  let errors := scanErrors P input
    ++ errorIf (!hasSchema job jobSchema) "job schema mismatch"
    ++ errorIf (!hasSchema quote quoteSchema) "quote schema mismatch"
    ++ errorIf (!hasSchema receipt receiptSchema) "receipt schema mismatch"
  if errors.isEmpty then
    let found ← artifactErrors P (job.getD .null) (quote.getD .null) (receipt.getD .null)
    return ⟨found⟩
  else return ⟨errors⟩

end Settlement

end EnigmaMemory
