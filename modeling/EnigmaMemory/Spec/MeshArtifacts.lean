import EnigmaMemory.Spec.Mesh

/-!
# Capsule manifests, witness checkpoints and federation grants

How `packages/mesh` builds and verifies its three signed artifacts. The options of a call are JSON, keys in
them PEM texts; only a verifier may be given a `Map` or a function that finds keys (`KeySource`).
-/

namespace EnigmaMemory.Mesh.Artifacts

open Json

def CAPSULE_SCHEMA : JsString := js "enigma.capsule_manifest.v1"

def FEDERATION_GRANT_SCHEMA : JsString := js "enigma.federation_grant.v1"

def DEFAULT_EXPIRY : JsString := js "2100-01-01T00:00:00.000Z"

variable (P : Platform)

/-- A field in either of its spellings. -/
def either (options : Json) (snake camel : String) : Option Json := orElse (options.get (js snake)) (options.get (js camel))

/-! ## Signing -/

structure Signer where
  key_id : Option Json
  privateKey : Option Json
  node_id : Option Json

/-- `signerFrom(options)`. -/
def signerFrom (options : Json) : Signer :=
  let node := options.get (js "node")
  if truthy (path node ["privateKey"]) then
    ⟨orElse (path node ["signer", "key_id"]) (path node ["trust_descriptor", "key", "key_id"]), path node ["privateKey"],
      path node ["node_id"]⟩
  else
    ⟨firstOf [options.get (js "key_id"), options.get (js "keyId"), path (some options) ["signer", "key_id"]],
      options.get (js "privateKey"), either options "node_id" "nodeId"⟩

/-- A private key that is no text is none. -/
def privateKeyOf : Option Json → Except JsError (Option JsString)
  | none => .error (typeError (js "privateKey is required"))
  | some (.str key) => .ok (some key)
  | some _ => .ok none

def createSignature (unsigned : Json) (signer : Signer) : Except JsError Json := do
  let privateKey ← privateKeyOf signer.privateKey
  let key_id ← requiredString signer.key_id (js "signer.key_id")
  let value ← signPayload P unsigned privateKey
  return .obj [(js "alg", ed25519), (js "key_id", .str key_id), (js "value", .str value)]

/-! ## Creation -/

def ownerScope (options : Json) (holder : JsString) : Json :=
  (firstOf [options.get (js "owner_scope_hash"), options.get (js "ownerScopeHash"), some (.str (rootFromValue P
    ((firstOf [options.get (js "owner_scope"), options.get (js "ownerScope"), some (.str holder)]).getD .null)))]).getD .null

/-- A capsule manifest before it is signed. -/
def unsignedCapsule (options : Json) : Except JsError Json := do
  assertNoPlaintext options "capsule manifest"
  let issuer ← requiredString (orElse (options.get (js "issuer")) (signerFrom options).node_id) (js "issuer")
  let holder ← requiredString (firstOf [options.get (js "holder"), options.get (js "holder_id"), options.get (js "holderId")])
    (js "holder")
  let ownerScope := ownerScope P options holder
  let encrypted_payload_hash ← normalizeEncryptedPayloadHash P options
  let capsule_id := firstOf [options.get (js "capsule_id"), options.get (js "capsuleId"), some (.str (idFromValue P "cap_"
    (.obj [(js "issuer", .str issuer), (js "holder", .str holder), (js "ownerScope", ownerScope),
      (js "encrypted_payload_hash", .str encrypted_payload_hash)])))]
  let receipt_log_root ← normalizeRoot (either options "receipt_log_root" "receiptLogRoot") "receipt_log_root"
  let active_set_root ← normalizeRoot (firstOf [options.get (js "active_set_root"), options.get (js "activeSetRoot"),
    options.get (js "active_memory_root"), options.get (js "activeMemoryRoot")]) "active_set_root"
  let owner_scope_hash ← normalizeRoot (some ownerScope) "owner_scope_hash"
  let issued_at ← dateString P (either options "issued_at" "issuedAt") "issued_at" (some DEFAULT_NOW)
  let expires_at ← dateString P (either options "expires_at" "expiresAt") "expires_at" (some DEFAULT_EXPIRY)
  return .obj [(js "schema", .str CAPSULE_SCHEMA), (js "capsule_id", capsule_id.getD .null),
    (js "encrypted_payload_hash", .str encrypted_payload_hash), (js "receipt_log_root", .str receipt_log_root),
    (js "active_set_root", .str active_set_root), (js "owner_scope_hash", .str owner_scope_hash), (js "issuer", .str issuer),
    (js "holder", .str holder), (js "issued_at", .str issued_at), (js "expires_at", .str expires_at)]

/-- A witness checkpoint before it is signed. -/
def unsignedCheckpoint (options : Json) : Except JsError Json := do
  assertNoPlaintext options "witness checkpoint"
  let witness_node_id ← requiredString
    (firstOf [options.get (js "witness_node_id"), options.get (js "witnessNodeId"), (signerFrom options).node_id])
    (js "witness_node_id")
  let subject_node_id ← requiredString (firstOf [options.get (js "subject_node_id"), options.get (js "subjectNodeId"),
    options.get (js "subject"), some (.str (js "subject"))]) (js "subject_node_id")
  let receipt_log_root ← normalizeRoot (either options "receipt_log_root" "receiptLogRoot") "receipt_log_root"
  let active_set_root ← normalizeRoot (firstOf [options.get (js "active_set_root"), options.get (js "activeSetRoot"),
    options.get (js "active_memory_root"), options.get (js "activeMemoryRoot")]) "active_set_root"
  let epoch ← readEpoch (some ((options.get (js "epoch")).getD (.num 0)))
  let previous_witness_hash ← normalizeRoot (firstOf [options.get (js "previous_witness_hash"),
    options.get (js "previousWitnessHash"), some (.str emptyMerkleRoot)]) "previous_witness_hash"
  let c : Checkpoint := ⟨witness_node_id, subject_node_id, epoch, receipt_log_root, active_set_root, previous_witness_hash, []⟩
  checkSuppliedRoot (either options "checkpoint_root" "checkpointRoot") (c.root P)
  let id := firstOf [options.get (js "witness_checkpoint_id"), options.get (js "witnessCheckpointId"),
    (c.toJson P).get (js "witness_checkpoint_id")]
  let issued_at ← dateString P (either options "issued_at" "issuedAt") "issued_at" (some DEFAULT_NOW)
  return ({ c with issued_at }.toJson P).set (js "witness_checkpoint_id") (id.getD .null)

/-- `arrayOfStrings(value, field)`. -/
def arrayOfStrings (value : Option Json) (field : String) : Except JsError (List JsString) :=
  match value with
  | none => .ok []
  | some (.arr xs) => xs.mapM fun item =>
    match item with
    | .str (c :: s) => .ok (c :: s)
    | _ => .error (typeError (js (field ++ " must be an array of strings")))
  | some _ => .error (typeError (js (field ++ " must be an array of strings")))

/-- A federation grant before it is signed. -/
def unsignedGrant (options : Json) : Except JsError Json := do
  assertNoPlaintext options "federation grant"
  let subjects ← arrayOfStrings (firstOf [options.get (js "subjects"), options.get (js "subject_ids"), options.get (js "subjectIds")])
    "subjects"
  let operations ← arrayOfStrings (options.get (js "operations")) "operations"
  let issuer ← requiredString (orElse (options.get (js "issuer")) (signerFrom options).node_id) (js "issuer")
  let holder ← requiredString (firstOf [options.get (js "holder"), options.get (js "holder_id"), options.get (js "holderId")])
    (js "holder")
  let grant_id := firstOf [options.get (js "grant_id"), options.get (js "grantId"), some (.str (idFromValue P "fgr_"
    (.obj ([(js "issuer", .str issuer), (js "holder", .str holder), (js "subjects", .arr (subjects.map .str)),
      (js "operations", .arr (operations.map .str))] ++ field (js "purpose") (options.get (js "purpose"))))))]
  let purpose ← requiredString (options.get (js "purpose")) (js "purpose")
  let issued_at ← dateString P (either options "issued_at" "issuedAt") "issued_at" (some DEFAULT_NOW)
  let expires_at ← dateString P (either options "expires_at" "expiresAt") "expires_at" (some DEFAULT_EXPIRY)
  return .obj [(js "schema", .str FEDERATION_GRANT_SCHEMA), (js "grant_id", grant_id.getD .null), (js "issuer", .str issuer),
    (js "holder", .str holder), (js "subjects", .arr ((sortStrings subjects).map .str)),
    (js "operations", .arr ((sortStrings operations).map .str)), (js "purpose", .str purpose), (js "issued_at", .str issued_at),
    (js "expires_at", .str expires_at)]

/-- The object with a signature and its hash. -/
def issue (options unsigned : Json) (hashField : JsString) : Except JsError Json := do
  let signature ← createSignature P unsigned (signerFrom options)
  return hashed P (signed unsigned signature) hashField

def createCapsuleManifest (options : Json) : Except JsError Json := do
  issue P options (← unsignedCapsule P options) (js "capsule_hash")

def createWitnessCheckpoint (options : Json) : Except JsError Json := do
  issue P options (← unsignedCheckpoint P options) (js "witness_hash")

def createFederationGrant (options : Json) : Except JsError Json := do
  issue P options (← unsignedGrant P options) (js "grant_hash")

/-! ## Relay records -/

/-- The record, signed by the store's node where that has a private key. -/
def signFor (store : RelayStore) (signs : Bool) (unsigned : Json) : Except JsError Json :=
  if signs then (Mesh.createSignature P unsigned store.node).map (signed unsigned) else .ok unsigned

/-- `pushRelayRecord(store, record)`: what it returns, and the store with the record it files. -/
def pushRelayRecord (store : RelayStore) (signs : Bool) (record : Json) : Except JsError (Json × RelayStore) := do
  let unsigned ← unsignedRecord P store record
  let relayRecord ← signFor P store signs unsigned
  return (handedOut relayRecord, store.file relayRecord)

/-! ## Verification -/

/-- Where public keys are looked up: with `Map.get` or a function, or in an object. -/
inductive KeySource where
  | lookup (find : JsString → Option Json)
  | record (keys : Json)

def KeySource.find : KeySource → JsString → Option Json
  | .lookup find, keyId => find keyId
  | .record keys, keyId => keys.get keyId

/-- The options of the three verifiers. -/
structure VerifyOptions where
  publicKey : Option Json
  node : Option Json
  trustDescriptor : Option Json
  issuerDescriptor : Option Json
  witnessDescriptor : Option Json
  descriptor : Option Json
  publicKeys : Option KeySource
  keyring : Option KeySource
  keys : Option KeySource
  expectedKeyId : Option Json
  signerKeyId : Option Json
  key_id : Option Json
  keyId : Option Json
  expectedReceiptLogRoot : Option Json
  expectedActiveSetRoot : Option Json
  expectedOwnerScopeHash : Option Json
  expectedCheckpointRoot : Option Json
  expectedPreviousWitnessHash : Option Json
  expectedWitnessNodeId : Option Json
  minimumEpoch : Option Json
  expectedIssuer : Option Json
  expectedHolder : Option Json
  expectedSubject : Option Json
  subject : Option Json
  expectedOperation : Option Json
  operation : Option Json
  expectedPurpose : Option Json
  now : Option JsString

/-- `{ trustDescriptor }`. -/
def VerifyOptions.trusting (trustDescriptor : Json) : VerifyOptions :=
  ⟨none, none, some trustDescriptor, none, none, none, none, none, none, none, none, none, none, none, none, none, none, none, none,
    none, none, none, none, none, none, none, none, none⟩

def resolvePublicKey (keyId : JsString) (o : VerifyOptions) : Option Json :=
  let descriptor := firstOf [o.trustDescriptor, o.issuerDescriptor, o.witnessDescriptor, o.descriptor]
  if o.publicKey.isSome then o.publicKey
  else if isStr (path o.node ["signer", "key_id"]) keyId && (path o.node ["publicKey"]).isSome then path o.node ["publicKey"]
  else if isStr (path descriptor ["key", "key_id"]) keyId then path descriptor ["key", "public_key"]
  else ((o.publicKeys.or o.keyring).or o.keys).bind (·.find keyId)

/-- `verifySignature({ payload, signature, publicKey })`; a key that is no text verifies nothing. -/
def signatureHolds (payload signature : Json) : Json → Bool
  | .str publicKey => verifySignature P payload (some signature) publicKey
  | _ => false

/-- `value !== undefined && actual !== value`. -/
def differs (actual expected : Option Json) : Bool := expected.isSome && !strictEq actual expected

def verifySignedRecord (record : Json) (o : VerifyOptions) : List JsString :=
  match record.get (js "signature") with
  | some (.obj fs) =>
    match isStr ((Json.obj fs).get (js "alg")) (js "Ed25519"), (Json.obj fs).get (js "key_id"), (Json.obj fs).get (js "value") with
    | true, some (.str keyId), some (.str _) =>
      errorIf (differs (some (.str keyId)) (firstOf [o.expectedKeyId, o.signerKeyId, o.key_id, o.keyId])) "signer mismatch" ++
        match resolvePublicKey keyId o with
        | none => [js "missing public key for " ++ keyId]
        | some publicKey => errorIf (!signatureHolds P (signaturePayload record) (.obj fs) publicKey) "signature mismatch"
    | _, _, _ => [js "signature malformed"]
  | _ => [js "signature missing"]

/-- `{ ok, valid, errors, [hashField] }`: the errors, none of which means `ok`, and the hash. -/
structure Verification where
  errors : List JsString
  hash : Option JsString

def Verification.ok (v : Verification) : Bool := v.errors.isEmpty

def rootErrors (record : Json) (names : List String) : List JsString :=
  names.flatMap fun name => errorIf (!rootTest P (record.get (js name))) (name ++ " must be a sha256 root")

/-- `typeof value === 'string' && value.length > 0`. -/
def isFilled : Option Json → Bool
  | some (.str s) => s != []
  | _ => false

def requiredErrors (record : Json) (names : List String) : List JsString :=
  names.flatMap fun name => errorIf (!isFilled (record.get (js name))) (name ++ " is required")

/-- `Date.parse(value)`. -/
def dateOf (value : Option Json) : Option ℤ := P.parseDate ((value.map (Json.toText P.toNumberFormat)).getD (js "undefined"))

/-- `now !== undefined && Number.isFinite(now) && Date.parse(expires_at) <= now`. -/
def expired (now : Option JsString) (expires_at : Option Json) : Bool :=
  match now.bind P.parseDate, dateOf P expires_at with
  | some now, some expiry => decide (expiry ≤ now)
  | _, _ => false

def verifyCapsuleManifest (manifest : Json) (o : VerifyOptions) : Verification :=
  if !manifest.isPlainRecord then ⟨[js "capsule manifest must be an object"], none⟩
  else
    ⟨errorIf (hasPlaintextLeak FORBIDDEN_PLAINTEXT_KEYS manifest) "plaintext memory fields present"
      ++ errorIf (!isStr (manifest.get (js "schema")) CAPSULE_SCHEMA) "schema mismatch"
      ++ rootErrors P manifest ["encrypted_payload_hash", "receipt_log_root", "active_set_root", "owner_scope_hash"]
      ++ requiredErrors manifest ["capsule_id", "issuer", "holder", "issued_at", "expires_at"]
      ++ compareExpectedRoot (manifest.get (js "receipt_log_root")) o.expectedReceiptLogRoot "expectedReceiptLogRoot"
        "receipt log root mismatch"
      ++ compareExpectedRoot (manifest.get (js "active_set_root")) o.expectedActiveSetRoot "expectedActiveSetRoot"
        "active set root mismatch"
      ++ compareExpectedRoot (manifest.get (js "owner_scope_hash")) o.expectedOwnerScopeHash "expectedOwnerScopeHash"
        "owner scope mismatch"
      ++ errorIf (differs (manifest.get (js "issuer")) o.expectedIssuer) "issuer mismatch"
      ++ errorIf (differs (manifest.get (js "holder")) o.expectedHolder) "holder mismatch"
      ++ errorIf (expired P o.now (manifest.get (js "expires_at"))) "capsule expired"
      ++ verifySignedRecord P manifest o, some (rootFromValue P manifest)⟩

/-- `minimumEpoch !== undefined && (!Number.isInteger(minimumEpoch) || epoch < minimumEpoch)`. -/
def epochTooSmall (epoch minimumEpoch : Option Json) : Bool :=
  match minimumEpoch with
  | none => false
  | some (.num q) => q.den != 1 || decide (numberOf epoch < q)
  | some _ => true

def verifyWitnessCheckpoint (checkpoint : Json) (o : VerifyOptions) : Verification :=
  if !checkpoint.isPlainRecord then ⟨[js "witness checkpoint must be an object"], none⟩
  else
    ⟨errorIf (hasPlaintextLeak FORBIDDEN_PLAINTEXT_KEYS checkpoint) "plaintext memory fields present"
      ++ errorIf (!isStr (checkpoint.get (js "schema")) WITNESS_SCHEMA) "schema mismatch"
      ++ rootErrors P checkpoint ["checkpoint_root", "receipt_log_root", "active_set_root", "previous_witness_hash"]
      ++ errorIf (natural? (checkpoint.get (js "epoch"))).isNone "epoch must be a non-negative integer"
      ++ errorIf (!isStr (checkpoint.get (js "checkpoint_root")) (rootFromValue P (checkpointContents
          (checkpoint.get (js "subject_node_id")) (checkpoint.get (js "receipt_log_root")) (checkpoint.get (js "active_set_root"))
          (checkpoint.get (js "epoch")) (checkpoint.get (js "previous_witness_hash"))))) "checkpoint root mismatch"
      ++ compareExpectedRoot (checkpoint.get (js "checkpoint_root")) o.expectedCheckpointRoot "expectedCheckpointRoot"
        "checkpoint root mismatch"
      ++ compareExpectedRoot (checkpoint.get (js "receipt_log_root")) o.expectedReceiptLogRoot "expectedReceiptLogRoot"
        "receipt log root mismatch"
      ++ compareExpectedRoot (checkpoint.get (js "active_set_root")) o.expectedActiveSetRoot "expectedActiveSetRoot"
        "active set root mismatch"
      ++ compareExpectedRoot (checkpoint.get (js "previous_witness_hash")) o.expectedPreviousWitnessHash
        "expectedPreviousWitnessHash" "previous witness hash mismatch"
      ++ errorIf (epochTooSmall (checkpoint.get (js "epoch")) o.minimumEpoch) "epoch continuity mismatch"
      ++ errorIf (differs (checkpoint.get (js "witness_node_id")) o.expectedWitnessNodeId) "witness node mismatch"
      ++ verifySignedRecord P checkpoint o, some (rootFromValue P checkpoint)⟩

/-- `Array.isArray(value) && !value.some((item) => typeof item !== 'string' || item.length === 0)`. -/
def areFilled : Option Json → Bool
  | some (.arr xs) => xs.all fun item => isFilled (some item)
  | _ => false

/-- `values?.includes(expected)`; a value that has no such method fails. -/
def includesValue (values : Option Json) (expected : Json) : Except JsError Bool :=
  match values with
  | none | some .null => .ok false
  | some (.arr xs) => .ok (xs.any fun item => strictEq (some item) (some expected))
  | some (.str s) => .ok (includes (expected.toText P.toNumberFormat) s)
  | some _ => .error (typeError (js "grant field has no includes method"))

/-- `expected !== undefined && !values?.includes(expected)`. -/
def notGranted (values expected : Option Json) : Except JsError Bool :=
  match expected with
  | none => .ok false
  | some expected => (includesValue P values expected).map (!·)

/-- The errors of a grant, but for what is not granted. -/
def verifyFederationGrant (grant : Json) (o : VerifyOptions) : Except JsError Verification :=
  if !grant.isPlainRecord then .ok ⟨[js "federation grant must be an object"], none⟩
  else do
    let subject ← notGranted P (grant.get (js "subjects")) (orElse o.expectedSubject o.subject)
    let operation ← notGranted P (grant.get (js "operations")) (orElse o.expectedOperation o.operation)
    return ⟨errorIf (hasPlaintextLeak FORBIDDEN_PLAINTEXT_KEYS grant) "plaintext memory fields present"
      ++ errorIf (!isStr (grant.get (js "schema")) FEDERATION_GRANT_SCHEMA) "schema mismatch"
      ++ errorIf (!areFilled (grant.get (js "subjects"))) "subjects must be strings"
      ++ errorIf (!areFilled (grant.get (js "operations"))) "operations must be strings"
      ++ requiredErrors grant ["grant_id", "issuer", "holder", "purpose", "issued_at", "expires_at"]
      ++ errorIf subject "subject not granted"
      ++ errorIf operation "operation not granted"
      ++ errorIf (differs (grant.get (js "purpose")) o.expectedPurpose) "purpose mismatch"
      ++ errorIf (differs (grant.get (js "issuer")) o.expectedIssuer) "issuer mismatch"
      ++ errorIf (differs (grant.get (js "holder")) o.expectedHolder) "holder mismatch"
      ++ errorIf (expired P o.now (grant.get (js "expires_at"))) "grant expired"
      ++ verifySignedRecord P grant o, some (rootFromValue P grant)⟩

end EnigmaMemory.Mesh.Artifacts
