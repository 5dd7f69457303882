import EnigmaMemory.Spec.Receipt

/-!
# Checkpoints

`createCheckpoint` and `verifyCheckpoint` of `packages/core`. The private key of a checkpoint is
passed beside the options, as a PEM text. A public key that a verifier finds in a JSON value may
be no text; `KeyReader` says which key Node makes of it.
-/

namespace EnigmaMemory

open Json

variable (P : Platform)

/-- The PEM text of the public key that Node makes of a value. -/
structure KeyReader where
  text : Json → JsString
  text_str : ∀ s, text (.str s) = s

def CHECKPOINT_SCHEMA : JsString := js "enigma.state_checkpoint.v1"

/-- The fields that `orderCheckpointFields` writes whether or not they are there. -/
def checkpointFields : List JsString :=
  [js "schema", js "checkpoint_id", js "tenant_hash", js "owner_scope_hash", js "epoch", js "active_memory_root",
    js "deleted_memory_root", js "receipt_log_root", js "key_registry_root", js "policy_registry_root",
    js "previous_checkpoint_hash"]

def orderCheckpointFields (checkpoint : Json) : Json :=
  .obj ((checkpointFields ++ [js "witness_policy", js "issued_at", js "signatures"]).flatMap fun f =>
    field f (checkpoint.get f))

/-- A field written as `undefined` has no canonical text. -/
def hasCanonical (checkpoint : Json) : Bool := (checkpointFields ++ [js "issued_at"]).all fun f => (checkpoint.get f).isSome

def unsignedCheckpoint (checkpoint : Json) : Json := orderCheckpointFields (checkpoint.without (js "signatures"))

/-! ## `createCheckpoint` -/

def rootFromHashable (root : Option Json) (fallbackValue : Json) : Except JsError JsString :=
  match root with
  | some root => normalizeSha256Root (some root) (js "root")
  | none => .ok (prefixedSha256 (fallbackValue.canonicalize P.toNumberFormat))

/-- `options[snake] ?? options[camel]`. -/
def givenOption (options : Json) (snake camel : String) : Option Json := orElse (options.get (js snake)) (options.get (js camel))

/-- A root given under one of two names, the root of the empty set when there is none. -/
def rootOption (options : Json) (snake camel : String) : Except JsError JsString :=
  normalizeSha256Root (orElse (givenOption options snake camel) (some (.str emptyMerkleRoot))) (js snake)

/-- The values of a checkpoint before it has an id and signatures. -/
structure CheckpointBody where
  tenant_hash : JsString
  owner_scope_hash : JsString
  epoch : ℕ
  active_memory_root : JsString
  deleted_memory_root : JsString
  receipt_log_root : JsString
  key_registry_root : JsString
  policy_registry_root : JsString
  previous_checkpoint_hash : JsString
  issued_at : JsString
  witness_policy : Option Json

def CheckpointBody.toJson (b : CheckpointBody) : Json :=
  .obj ([(js "schema", .str CHECKPOINT_SCHEMA), (js "tenant_hash", .str b.tenant_hash),
      (js "owner_scope_hash", .str b.owner_scope_hash), (js "epoch", .num b.epoch),
      (js "active_memory_root", .str b.active_memory_root), (js "deleted_memory_root", .str b.deleted_memory_root),
      (js "receipt_log_root", .str b.receipt_log_root), (js "key_registry_root", .str b.key_registry_root),
      (js "policy_registry_root", .str b.policy_registry_root),
      (js "previous_checkpoint_hash", .str b.previous_checkpoint_hash), (js "issued_at", .str b.issued_at)]
    ++ field (js "witness_policy") b.witness_policy)

/-- The part of `createCheckpoint` that reads and checks the options; `time` is the clock. -/
def checkpointBody (time : ℤ) (options : Json) : Except JsError CheckpointBody := do
  let tenant_hash ← rootFromHashable P (givenOption options "tenant_hash" "tenantHash")
    ((orElse (givenOption options "tenant_id" "tenantId") none).getD (.str (js "tenant")))
  let owner_scope_hash ← rootFromHashable P (givenOption options "owner_scope_hash" "ownerScopeHash")
    ((orElse (givenOption options "owner_scope" "ownerScope") none).getD (.str (js "owner")))
  let epoch ← requiredInteger (orElse (options.get (js "epoch")) (orElse (options.get (js "sequence")) (some (.num 0)))) (js "epoch")
  let active_memory_root ← normalizeSha256Root (orElse (givenOption options "active_memory_root" "activeMemoryRoot")
    (orElse (givenOption options "active_set_root" "activeSetRoot") (some (.str emptyMerkleRoot)))) (js "active_memory_root")
  let deleted_memory_root ← rootOption options "deleted_memory_root" "deletedMemoryRoot"
  let receipt_log_root ← rootOption options "receipt_log_root" "receiptLogRoot"
  let key_registry_root ← rootOption options "key_registry_root" "keyRegistryRoot"
  let policy_registry_root ← rootOption options "policy_registry_root" "policyRegistryRoot"
  let previous_checkpoint_hash ← normalizePreviousHash
    (orElse (givenOption options "previous_checkpoint_hash" "previousCheckpointHash") (some (.str genesis)))
  let issued_at ← requiredString (orElse (givenOption options "issued_at" "issuedAt")
    (orElse (options.get (js "timestamp")) (some (.str (P.isoText time))))) (js "issued_at")
  return { tenant_hash, owner_scope_hash, epoch, active_memory_root, deleted_memory_root, receipt_log_root,
           key_registry_root, policy_registry_root, previous_checkpoint_hash, issued_at
           witness_policy := if truthy (givenOption options "witness_policy" "witnessPolicy")
             then givenOption options "witness_policy" "witnessPolicy" else none }

/-- The given signatures, or a new one under the key identifier of the signer. -/
def checkpointSignatures (options signer unsigned : Json) (privateKey : Option JsString) : Except JsError Json :=
  match orElse (options.get (js "signatures")) none with
  | some signatures => .ok signatures
  | none => do
    return .arr [.obj ([(js "alg", ed25519)] ++ field (js "key_id") (signer.get (js "key_id")) ++
      [(js "value", .str (← signPayload P unsigned privateKey))])]

/-- `createCheckpoint(options)`. -/
def createCheckpoint (time : ℤ) (options : Json) (privateKey : Option JsString) : Except JsError Json := do
  let signer ← normalizeSigner P (options.get (js "signer")) (givenOption options "key_id" "keyId") privateKey
  let body ← checkpointBody P time options
  let checkpoint_id := (orElse (givenOption options "checkpoint_id" "checkpointId")
    (some (.str (js "chk_" ++ (sha256Hex (body.toJson.canonicalize P.toNumberFormat)).take 32)))).getD .null
  let unsigned := orderCheckpointFields (body.toJson.set (js "checkpoint_id") checkpoint_id)
  let signatures ← checkpointSignatures P options signer unsigned privateKey
  return orderCheckpointFields (unsigned.set (js "signatures") signatures)

/-! ## `verifyCheckpoint` -/

def checkpointRoots : List String :=
  ["tenant_hash", "owner_scope_hash", "active_memory_root", "deleted_memory_root", "receipt_log_root",
    "key_registry_root", "policy_registry_root"]

/-- The characters of a string, as a `for` loop reads it. -/
def characters : JsString → List Json
  | [] => []
  | [c] => [.str [c]]
  | c :: d :: rest =>
    if isHighSurrogate c && isLowSurrogate d then .str [c, d] :: characters rest else .str [c] :: characters (d :: rest)

/-- The items of `checkpoint.signatures ?? []`. -/
def signatureItems (signatures : Option Json) : Except JsError (List Json) :=
  match signatures with
  | none | some .null => .ok []
  | some (.arr xs) => .ok xs
  | some (.str s) => .ok (characters s)
  | some _ => .error (typeError (js "checkpoint.signatures ?? [] is not iterable"))

/-- `resolvePublicKey(keyId, options)` on options that are a JSON value. -/
def resolveJsonKey (keyId : Option Json) (options : Json) : Option Json :=
  match options.get (js "publicKey") with
  | some key => some key
  | none =>
    match orElse (options.get (js "publicKeys")) (orElse (options.get (js "keyring")) (options.get (js "keys"))), keyId with
    | some (.obj fs), some id => (Json.obj fs).get (id.toText P.toNumberFormat)
    | _, _ => none

variable (K : KeyReader)

/-- The errors of one signature of a checkpoint. -/
def checkpointSignatureErrors (options checkpoint signature : Json) : Except JsError (List JsString) :=
  match signature with
  | .null => .error (typeError (js "Cannot read properties of null (reading 'key_id')"))
  | signature =>
    let keyId := ((signature.get (js "key_id")).getD .null).toText P.toNumberFormat
    .ok (if isStr (signature.get (js "alg")) (js "Ed25519") = false ∨ truthy (signature.get (js "key_id")) = false ∨
        truthy (signature.get (js "value")) = false then [js "checkpoint signature malformed"]
      else
        match resolveJsonKey P (signature.get (js "key_id")) options with
        | none => [js "missing public key for " ++ keyId]
        | some publicKey =>
          if hasCanonical checkpoint && verifySignature P (unsignedCheckpoint checkpoint) (some signature) (K.text publicKey) then []
          else [js "checkpoint signature mismatch for " ++ keyId])

/-- The errors of a root that the options expect. -/
def expectedRootErrors (expected actual : Option Json) (name message : String) : Except JsError (List JsString) :=
  match expected with
  | none => .ok []
  | some expected => do
    let root ← normalizeSha256Root (some expected) (js name)
    return errorIf (!isStr actual root) message

/-- The errors of `verifyCheckpoint(options)`; a checkpoint is accepted when there are none. -/
def verifyCheckpoint (options : Json) : Except JsError (List JsString) :=
  match options.get (js "checkpoint") with
  | some (.obj fs) => do
    let checkpoint := Json.obj fs
    let items ← signatureItems (checkpoint.get (js "signatures"))
    let signatureErrors ← items.mapM (checkpointSignatureErrors P K options checkpoint)
    let logErrors ← expectedRootErrors (orElse (options.get (js "expectedReceiptLogRoot")) (options.get (js "receiptLogRoot")))
      (checkpoint.get (js "receipt_log_root")) "expectedReceiptLogRoot" "receipt log root mismatch"
    let activeErrors ← expectedRootErrors (orElse (options.get (js "expectedActiveMemoryRoot"))
        (orElse (options.get (js "activeMemoryRoot")) (options.get (js "activeSetRoot"))))
      (checkpoint.get (js "active_memory_root")) "expectedActiveMemoryRoot" "active memory root mismatch"
    return errorIf (!isStr (checkpoint.get (js "schema")) CHECKPOINT_SCHEMA) "schema mismatch"
      ++ checkpointRoots.flatMap (fun f => errorIf (!rootTest P (checkpoint.get (js f))) (f ++ " must be a sha256 root"))
      ++ errorIf (!isPreviousHash P (checkpoint.get (js "previous_checkpoint_hash"))) "previous checkpoint hash mismatch"
      ++ errorIf (natural? (checkpoint.get (js "epoch"))).isNone "epoch must be a non-negative integer"
      ++ errorIf (match checkpoint.get (js "signatures") with | some (.arr (_ :: _)) => false | _ => true) "signatures missing"
      ++ signatureErrors.flatten ++ logErrors ++ activeErrors
  | _ => .ok [js "checkpoint must be an object"]

end EnigmaMemory
