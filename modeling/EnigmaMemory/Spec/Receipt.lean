import EnigmaMemory.Spec.MerkleSet
import EnigmaMemory.Spec.Platform

/-!
# Receipts

`createReceipt`, `verifyReceipt` and `verifyReceiptChain` of `packages/core`. A receipt
is a JSON object; the verifiers take any JSON values. Private keys are passed beside the
options, as PEM texts.
-/

namespace EnigmaMemory

open Json

variable (P : Platform)

/-! ## Fields -/

/-- The fields of a receipt, in the order in which they are written. -/
def receiptFields : List JsString :=
  [js "schema", js "receipt_id", js "event_hash", js "operation", js "tenant_id", js "subject_id",
    js "memory_addr", js "source_addr", js "provider", js "model", js "policy_id", js "sequence",
    js "previous_receipt_hash", js "active_set_root", js "receipt_log_root", js "timestamp", js "signer",
    js "signature"]

def receiptPublicPlaintextKeys : List JsString :=
  [js "body", js "content", js "plaintext", js "text", js "memory", js "prompt", js "response", js "raw_memory"]

def receiptSignatureFields : List JsString := [js "alg", js "value"]

def orderReceiptFields (receipt : Json) : Json :=
  .obj (receiptFields.flatMap fun f => Json.field f (receipt.get f))

def unsignedReceipt (receipt : Json) : Json := orderReceiptFields (receipt.without (js "signature"))

def receiptHash (receipt : Json) : JsString := prefixedSha256 (receipt.canonicalize P.toNumberFormat)

/-- `safeReceiptHash`: a JSON value always has a canonical form. -/
def safeReceiptHash (receipt : Json) : JsString := receiptHash P receipt

/-- `rcpt_` and the first half of a digest. -/
def receiptIdOf (body : Json) : JsString :=
  js "rcpt_" ++ (sha256Hex ((orderReceiptFields (body.set (js "receipt_id") (.str []))).canonicalize
    P.toNumberFormat)).take 32

def deriveReceiptId (receipt : Json) : JsString :=
  receiptIdOf P ((receipt.without (js "receipt_id")).without (js "signature"))

/-! ## Checks on values -/

def typeError (message : JsString) : JsError := ⟨.typeError, message⟩

def requiredString (value : Option Json) (name : JsString) : Except JsError JsString :=
  match value with
  | some (.str s) => if s = [] then .error (typeError (name ++ js " is required")) else .ok s
  | _ => .error (typeError (name ++ js " is required"))

def requiredInteger (value : Option Json) (name : JsString) : Except JsError ℕ :=
  match Json.natural? value with
  | some n => .ok n
  | none => .error (typeError (name ++ js " must be a non-negative integer"))

def normalizeSha256Root (value : Option Json) (name : JsString) : Except JsError JsString :=
  match value with
  | some (.str s) =>
    if isRoot s then .ok s
    else if isHash s then .ok (sha256Prefix ++ s)
    else .error (typeError (name ++ js " must be a sha256 root"))
  | _ => .error (typeError (name ++ js " must be a sha256 root"))

def genesis : JsString := js "GENESIS"

def normalizePreviousHash (value : Option Json) : Except JsError JsString :=
  if Json.isStr value genesis then .ok genesis else normalizeSha256Root value (js "previous hash")

/-- `ROOT_RE.test(value ?? '')`: the value is tested as a string. -/
def rootTest (value : Option Json) : Bool :=
  match value with
  | none | some .null => false
  | some v => isRoot (v.toText P.toNumberFormat)

def isPreviousHash (value : Option Json) : Bool := Json.isStr value genesis || rootTest P value

def ed25519 : Json := .str (js "Ed25519")

/-- The key identifier of a public key. -/
def keyIdOf (publicKey : JsString) : JsString := js "ed25519:" ++ (sha256Hex publicKey).take 32

def signerJson (keyId : JsString) (alg : Json) : Json := .obj [(js "key_id", .str keyId), (js "alg", alg)]

def normalizeSigner (signer keyId : Option Json) (privateKey : Option JsString) : Except JsError Json :=
  match signer with
  | some (.obj fs) => do
    let id ← requiredString (orElse ((Json.obj fs).get (js "key_id")) ((Json.obj fs).get (js "keyId")))
      (js "signer.key_id")
    return signerJson id ((orElse ((Json.obj fs).get (js "alg")) (some ed25519)).getD ed25519)
  | _ =>
    match keyId, privateKey with
    | some id, _ => do return signerJson (← requiredString (some id) (js "signer.key_id")) ed25519
    | none, some sk => do return signerJson (keyIdOf (← P.publicOf sk)) ed25519
    | none, none => .error (typeError (js "signer or key_id is required"))

def normalizeReceiptSignature (signature : Json) : Except JsError Json :=
  match signature with
  | .obj fs => do
    let value ← requiredString ((Json.obj fs).get (js "value")) (js "signature.value")
    return .obj [(js "alg", (orElse ((Json.obj fs).get (js "alg")) (some ed25519)).getD ed25519),
      (js "value", .str value)]
  | _ => .error (typeError (js "signature must be an object"))

def signPayload (payload : Json) (privateKey : Option JsString) : Except JsError JsString :=
  match privateKey with
  | none => .error (typeError (js "signPayload requires a privateKey"))
  | some sk => P.sign sk (payload.canonicalize P.toNumberFormat)

/-! ## `createReceipt` -/

/-- `eventHash(event)`. -/
def eventHash (event : Json) : JsString :=
  prefixedSha256 ((((event.without (js "privateKey")).without (js "signer")).without (js "signature")).canonicalize
    P.toNumberFormat)

/-- `options[snake] ?? options[camel] ?? source[snake] ?? source[camel]`. -/
def optionOrSource (options source : Json) (snake camel : String) : Option Json :=
  orElse (options.get (js snake)) (orElse (options.get (js camel)) (orElse (source.get (js snake)) (source.get (js camel))))

/-- The values of a receipt before it has an id and a signature. -/
structure ReceiptBody where
  event_hash : JsString
  operation : JsString
  tenant_id : JsString
  subject_id : JsString
  sequence : ℕ
  previous_receipt_hash : JsString
  active_set_root : JsString
  receipt_log_root : JsString
  timestamp : JsString
  signer : Json
  memory_addr : Option Json
  source_addr : Option Json
  provider : Option Json
  model : Option Json
  policy_id : Option Json

def ReceiptBody.toJson (b : ReceiptBody) : Json :=
  .obj ([(js "schema", .str (js "enigma.receipt.v1")), (js "event_hash", .str b.event_hash),
      (js "operation", .str b.operation), (js "tenant_id", .str b.tenant_id), (js "subject_id", .str b.subject_id),
      (js "sequence", .num b.sequence), (js "previous_receipt_hash", .str b.previous_receipt_hash),
      (js "active_set_root", .str b.active_set_root), (js "receipt_log_root", .str b.receipt_log_root),
      (js "timestamp", .str b.timestamp), (js "signer", b.signer)]
    ++ Json.field (js "memory_addr") b.memory_addr ++ Json.field (js "source_addr") b.source_addr
    ++ Json.field (js "provider") b.provider ++ Json.field (js "model") b.model
    ++ Json.field (js "policy_id") b.policy_id)

/-- The given signature, or a new one. -/
def receiptSignature (options unsigned : Json) (privateKey : Option JsString) : Except JsError Json :=
  match orElse (options.get (js "signature")) none with
  | some signature => .ok signature
  | none => do return .obj [(js "alg", ed25519), (js "value", .str (← signPayload P unsigned privateKey))]

/-- The part of `createReceipt` that reads and checks the options; `time` is the clock. -/
def receiptBody (time : ℤ) (options : Json) (privateKey : Option JsString) : Except JsError ReceiptBody := do
  let source := (orElse (options.get (js "event")) (some options)).getD options
  let sequence ← requiredInteger (orElse (options.get (js "sequence")) (source.get (js "sequence"))) (js "sequence")
  let previous_receipt_hash ← normalizePreviousHash
    (orElse (options.get (js "previous_receipt_hash")) (orElse (options.get (js "previousReceiptHash"))
      (if sequence = 0 then some (.str genesis) else none)))
  let event_hash ← normalizeSha256Root
    (orElse (options.get (js "event_hash")) (orElse (options.get (js "eventHash"))
      (orElse (source.get (js "event_hash")) (some (.str (eventHash P source)))))) (js "event_hash")
  let active_set_root ← normalizeSha256Root
    (orElse (options.get (js "active_set_root")) (orElse (options.get (js "activeSetRoot"))
      (some (.str emptyMerkleRoot)))) (js "active_set_root")
  let receipt_log_root ← normalizeSha256Root
    (orElse (options.get (js "receipt_log_root")) (orElse (options.get (js "receiptLogRoot"))
      (some (.str emptyMerkleRoot)))) (js "receipt_log_root")
  let operation ← requiredString (orElse (options.get (js "operation")) (source.get (js "operation"))) (js "operation")
  let timestamp ← requiredString (orElse (options.get (js "timestamp")) (orElse (source.get (js "timestamp"))
    (some (.str (P.isoText time))))) (js "timestamp")
  let signer ← normalizeSigner P (options.get (js "signer"))
    (orElse (options.get (js "key_id")) (options.get (js "keyId"))) privateKey
  let tenant_id ← requiredString (optionOrSource options source "tenant_id" "tenantId") (js "tenant_id")
  let subject_id ← requiredString (optionOrSource options source "subject_id" "subjectId") (js "subject_id")
  return { event_hash, operation, tenant_id, subject_id, sequence, previous_receipt_hash, active_set_root,
           receipt_log_root, timestamp, signer
           memory_addr := optionOrSource options source "memory_addr" "memoryAddr"
           source_addr := optionOrSource options source "source_addr" "sourceAddr"
           provider := optionOrSource options source "provider" "provider"
           model := optionOrSource options source "model" "model"
           policy_id := optionOrSource options source "policy_id" "policyId" }

/-- `createReceipt(options)`, for options that carry an `event` or a private key. -/
def createReceipt (time : ℤ) (options : Json) (privateKey : Option JsString) : Except JsError Json := do
  let body ← receiptBody P time options privateKey
  let receipt_id := (orElse (options.get (js "receipt_id")) (orElse (options.get (js "receiptId"))
    (some (.str (receiptIdOf P body.toJson))))).getD .null
  let unsigned := orderReceiptFields (body.toJson.set (js "receipt_id") receipt_id)
  let signature ← receiptSignature P options unsigned privateKey
  let signature ← normalizeReceiptSignature signature
  return orderReceiptFields (unsigned.set (js "signature") signature)

/-! ## `verifyReceipt` -/

/-- The options of the verifiers. `receipt` is an own `receipt` field of the options,
which takes the place of the receipt of every entry of a chain. -/
structure VerifyOptions where
  receipt : Option Json := none
  publicKey : Option JsString := none
  publicKeys : Option (Json → Option JsString) := none
  expectedSigner : Option JsString := none
  startSequence : ℚ := 0
  previousReceiptHash : Option JsString := none
  expectedReceiptLogRoot : Option JsString := none
  verifyEmbeddedReceiptLogRoot : Bool := false
  previousReceiptLogRoot : Option JsString := none
  expectedActiveSetRoot : Option JsString := none
  expectedReceiptHashes : Option (List JsString) := none

/-- The error texts of `cond`, one text or none. -/
def errorIf (cond : Bool) (message : String) : List JsString := if cond then [js message] else []

def validateReceiptShape (receipt : Json) : List JsString :=
  receipt.keys.flatMap (fun key =>
    (if key ∈ receiptFields then [] else [js "unknown receipt field: " ++ key]) ++
      if key ∈ receiptPublicPlaintextKeys then [js "receipt must not contain public plaintext field: " ++ key] else []) ++
    ((receipt.get (js "signature")).map Json.keys |>.getD []).flatMap fun key =>
      if key ∈ receiptSignatureFields then [] else [js "unknown signature field: " ++ key]

/-- `receipt.signer?.key_id`. -/
def signerKeyId (receipt : Json) : Option Json := (receipt.get (js "signer")).bind (·.get (js "key_id"))

/-- `!isPlainRecord(value) || value.alg !== 'Ed25519' || !value[field]`. -/
def malformed (value : Option Json) (field : JsString) : Bool :=
  match value with
  | some (.obj fs) => !(Json.isStr ((Json.obj fs).get (js "alg")) (js "Ed25519")) || !Json.truthy ((Json.obj fs).get field)
  | _ => true

def resolvePublicKey (keyId : Option Json) (o : VerifyOptions) : Option JsString :=
  match o.publicKey with
  | some key => some key
  | none =>
    match o.publicKeys, keyId with
    | some keys, some id => keys id
    | _, _ => none

def verifySignature (payload : Json) (signature : Option Json) (publicKey : JsString) : Bool :=
  let value := match signature with
    | some (.obj fs) => (Json.obj fs).get (js "value")
    | s => s
  match value with
  | some (.str s) => P.verify publicKey (payload.canonicalize P.toNumberFormat) s
  | _ => false

def signatureErrors (receipt : Json) (o : VerifyOptions) : List JsString :=
  match resolvePublicKey (signerKeyId receipt) o with
  | none => [js "missing public key"]
  | some key =>
    errorIf (!verifySignature P (unsignedReceipt receipt) (receipt.get (js "signature")) key) "signature mismatch"

/-- The errors of `verifyReceipt`; a receipt is accepted when there are none. -/
def verifyReceipt (receipt : Json) (o : VerifyOptions) : List JsString :=
  if !receipt.isPlainRecord then [js "receipt must be an object"]
  else
    validateReceiptShape receipt
      ++ errorIf (!Json.isStr (receipt.get (js "schema")) (js "enigma.receipt.v1")) "schema mismatch"
      ++ errorIf (malformed (receipt.get (js "signer")) (js "key_id")) "signer mismatch"
      ++ errorIf (malformed (receipt.get (js "signature")) (js "value")) "signature missing"
      ++ errorIf (Json.natural? (receipt.get (js "sequence"))).isNone "sequence must be a non-negative integer"
      ++ errorIf (!rootTest P (receipt.get (js "event_hash"))) "event_hash must be a sha256 root"
      ++ errorIf (!rootTest P (receipt.get (js "active_set_root"))) "active_set_root must be a sha256 root"
      ++ errorIf (!rootTest P (receipt.get (js "receipt_log_root"))) "receipt_log_root must be a sha256 root"
      ++ errorIf (!isPreviousHash P (receipt.get (js "previous_receipt_hash"))) "previous_receipt_hash mismatch"
      ++ (match o.expectedSigner with
        | some id => errorIf (!Json.isStr (signerKeyId receipt) id) "wrong signer"
        | none => [])
      ++ errorIf (!Json.isStr (receipt.get (js "receipt_id")) (deriveReceiptId P receipt)) "receipt_id mismatch"
      ++ signatureErrors P receipt o

/-! ## `verifyReceiptChain` -/

structure ChainResult where
  errors : List JsString
  receipt_log_root : JsString
  active_set_root : Option Json
  receipt_hashes : List JsString

def ChainResult.ok (r : ChainResult) : Bool := r.errors.isEmpty

/-- `receipt ${index}: ${error}`. -/
def entryError (index : ℕ) (error : JsString) : JsString :=
  js "receipt " ++ P.numberText index ++ js ": " ++ error

/-- The errors that the loop finds at one receipt. -/
def entryErrors (o : VerifyOptions) (index : ℕ) (expectedPrevious : Option JsString) (receipt : Json) : List JsString :=
  (verifyReceipt P (o.receipt.getD receipt) o).map (entryError P index)
    ++ (if Json.isNum (receipt.get (js "sequence")) (o.startSequence + index) then []
      else [entryError P index (js "sequence gap or reorder")])
    ++ match expectedPrevious with
      | some previous => if Json.isStr (receipt.get (js "previous_receipt_hash")) previous then []
          else [entryError P index (js "previous hash mismatch")]
      | none => []

/-- The loop over the receipts, from `index` on. -/
def chainErrors (o : VerifyOptions) : ℕ → Option JsString → List Json → List JsString
  | _, _, [] => []
  | index, expectedPrevious, receipt :: rest =>
    entryErrors P o index expectedPrevious receipt ++ chainErrors o (index + 1) (some (safeReceiptHash P receipt)) rest

/-- The loop over the embedded log roots; `before` is the set of the hashes so far. -/
def embeddedErrors : ℕ → MerkleSet → List Json → List JsString
  | _, _, [] => []
  | index, before, receipt :: rest =>
    (if Json.isStr (receipt.get (js "receipt_log_root")) before.root then []
      else [entryError P index (js "embedded receipt_log_root mismatch")])
      ++ embeddedErrors (index + 1) (OrdSet.add before (safeReceiptHash P receipt)) rest

/-- The errors of an expected root against the actual one. -/
def rootErrors (expected : Option JsString) (name : String) (actual : Option Json) (message : String) :
    Except JsError (List JsString) :=
  match expected with
  | none => .ok []
  | some root => do
    let root ← normalizeSha256Root (some (.str root)) (js name)
    return errorIf (!Json.isStr actual root) message

def embeddedStartErrors (o : VerifyOptions) : Except JsError (List JsString) :=
  if o.verifyEmbeddedReceiptLogRoot then
    rootErrors o.previousReceiptLogRoot "previousReceiptLogRoot" (some (.str emptyMerkleRoot))
      "embedded receipt_log_root start root mismatch"
  else .ok []

def hashListErrors (o : VerifyOptions) (hashes : List JsString) : List JsString :=
  match o.expectedReceiptHashes with
  | none => []
  | some expected =>
    errorIf (expected.length != hashes.length) "receipt hash list length mismatch"
      ++ (expected.zip hashes).zipIdx.flatMap fun e =>
        if e.1.1 = e.1.2 then [] else [entryError P e.2 (js "receipt hash mismatch")]

/-- `receipts[receipts.length - 1].active_set_root`, which throws on `null`. -/
def lastActiveSetRoot (receipts : List Json) : Except JsError (Option Json) :=
  match receipts.getLast? with
  | none => .ok (some (.str emptyMerkleRoot))
  | some .null => .error (typeError (js "Cannot read properties of null (reading 'active_set_root')"))
  | some receipt => .ok (receipt.get (js "active_set_root"))

def expectedPrevious (o : VerifyOptions) : Option JsString :=
  match o.previousReceiptHash with
  | some h => some h
  | none => if o.startSequence = 0 then some genesis else none

def verifyReceiptChain (receipts : List Json) (o : VerifyOptions) : Except JsError ChainResult := do
  let hashes := receipts.map (safeReceiptHash P)
  let receiptLogRoot := MerkleSet.root (OrdSet.ofList hashes)
  let logErrors ← rootErrors o.expectedReceiptLogRoot "expectedReceiptLogRoot" (some (.str receiptLogRoot))
    "receipt log root mismatch"
  let startErrors ← embeddedStartErrors o
  let activeSetRoot ← lastActiveSetRoot receipts
  let activeErrors ← rootErrors o.expectedActiveSetRoot "expectedActiveSetRoot" activeSetRoot "active set root mismatch"
  return {
    errors := errorIf (expectedPrevious o).isNone "previous receipt hash is required for non-genesis chain segments"
      ++ chainErrors P o 0 (expectedPrevious o) receipts ++ logErrors ++ startErrors
      ++ (if o.verifyEmbeddedReceiptLogRoot then embeddedErrors P 0 OrdSet.empty receipts else [])
      ++ activeErrors ++ hashListErrors P o hashes
    receipt_log_root := receiptLogRoot
    active_set_root := activeSetRoot
    receipt_hashes := hashes }

end EnigmaMemory
