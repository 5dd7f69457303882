import EnigmaMemory.Lib.Ordered
import EnigmaMemory.Spec.EncryptedStore
import EnigmaMemory.Spec.Receipt
import EnigmaMemory.Spec.Sanitize

/-!
# The mesh package

Nodes, witness checkpoints and relay records (`packages/mesh`). Checkpoints and records are JSON
objects signed by the node that makes them. A record may be filed under any JSON value: `RecordKey`
is that value as a key of a `Map`, for which two objects are never one key.
-/

namespace EnigmaMemory.Mesh

open Json

def DEFAULT_NOW : JsString := js "1970-01-01T00:00:00.000Z"

def NODE_SCHEMA : JsString := js "enigma.mesh_node.v1"

def WITNESS_SCHEMA : JsString := js "enigma.witness_checkpoint.v1"

def RELAY_RECORD_SCHEMA : JsString := js "enigma.relay_record.v1"

def failIf (p : Prop) [Decidable p] (e : JsError) : Except JsError Unit := if p then .error e else .ok ()

def plainError (message : JsString) : JsError := ⟨.error, message⟩

/-! ## Plaintext -/

def FORBIDDEN_PLAINTEXT_KEYS : List JsString :=
  [js "plaintext", js "plaintextmemory", js "plainmemory", js "cleartext", js "rawmemory", js "memoryplaintext", js "memory",
    js "memories", js "text", js "content", js "body", js "prompt", js "prompttext", js "completion", js "message",
    js "messagetext", js "conversation", js "conversationtext", js "transcript", js "transcripttext"]

/-- The value of a forbidden field that may stay. -/
def isBlank : Json → Bool
  | .null => true
  | .str s => s == []
  | _ => false

section Leak

variable (forbidden : List JsString)

mutual
/-- `hasPlaintextLeak(value)`, for a set of forbidden key names. -/
def hasPlaintextLeak : Json → Bool
  | .arr xs => hasPlaintextLeakItems xs
  | .obj fs => hasPlaintextLeakFields fs
  | _ => false

def hasPlaintextLeakItems : List Json → Bool
  | [] => false
  | x :: xs => hasPlaintextLeak x || hasPlaintextLeakItems xs

def hasPlaintextLeakFields : List (JsString × Json) → Bool
  | [] => false
  | (key, nested) :: fs =>
    (isPlaintextKeyOf forbidden key && !isBlank nested) || hasPlaintextLeak nested || hasPlaintextLeakFields fs
end

end Leak

def assertNoPlaintext (value : Json) (context : String) : Except JsError Unit :=
  failIf (hasPlaintextLeak FORBIDDEN_PLAINTEXT_KEYS value = true) (plainError (js (context ++ " contains plaintext memory fields")))

/-! ## Values -/

variable (P : Platform)

/-- `rootFromValue(value)`: a text is hashed as it is. -/
def rootFromValue : Json → JsString
  | .str s => prefixedSha256 s
  | value => prefixedSha256 (value.canonicalize P.toNumberFormat)

/-- A prefix and the first half of the digest of a value. -/
def idFromValue (tag : String) (value : Json) : JsString :=
  js tag ++ (sha256Hex (value.canonicalize P.toNumberFormat)).take 32

def normalizeRoot (value : Option Json) (field : String) : Except JsError JsString :=
  match value with
  | none | some .null => .ok emptyMerkleRoot
  | some v => normalizeSha256Root (some v) (js field)

def compareExpectedRoot (actual expected : Option Json) (field message : String) : List JsString :=
  match expected with
  | none => []
  | some expected =>
    match normalizeRoot (some expected) field with
    | .ok root => errorIf (!isStr actual root) message
    | .error _ => [js (field ++ " must be a sha256 root")]

def dateString (value : Option Json) (field : String) (fallback : Option JsString) : Except JsError JsString := do
  let string ← requiredString (orElse value (fallback.map .str)) (js field)
  failIf ((P.parseDate string).isNone = true) (typeError (js (field ++ " must be an ISO date string")))
  return string

/-- The object without some of its fields. -/
def withoutAll (record : Json) (names : List JsString) : Json := .obj (record.fields.filter (·.1 ∉ names))

def signaturePayload (record : Json) : Json :=
  withoutAll record [js "signature", js "descriptor_hash", js "capsule_hash", js "witness_hash", js "grant_hash"]

/-! ## Nodes -/

/-- A node with its keys (PEM) and its signed descriptor. -/
structure Node where
  node_id : JsString
  key_id : JsString
  publicKey : JsString
  privateKey : JsString
  trust_descriptor : Json
  public_descriptor : Json

def createSignature (unsigned : Json) (node : Node) : Except JsError Json := do
  let key_id ← requiredString (some (.str node.key_id)) (js "signer.key_id")
  let value ← signPayload P unsigned (some node.privateKey)
  return .obj [(js "alg", ed25519), (js "key_id", .str key_id), (js "value", .str value)]

/-- The object with its signature. -/
def signed (unsigned signature : Json) : Json := .obj (unsigned.fields ++ [(js "signature", signature)])

/-- The object with its hash under a field of its own. -/
def hashed (record : Json) (hashField : JsString) : Json :=
  .obj (record.fields ++ [(hashField, .str (rootFromValue P record))])

def signerObject (node : Node) : Json := .obj [(js "alg", ed25519), (js "key_id", .str node.key_id)]

/-- The node as an object. -/
def Node.toJson (node : Node) : Json :=
  .obj [(js "schema", .str NODE_SCHEMA), (js "node_id", .str node.node_id), (js "signer", signerObject node),
    (js "publicKey", .str node.publicKey), (js "privateKey", .str node.privateKey),
    (js "trust_descriptor", node.trust_descriptor), (js "public_descriptor", node.public_descriptor)]

structure NodeOptions where
  /-- The public and the private key (PEM). -/
  keyPair : JsString × JsString
  role : JsString
  capabilities : List JsString
  endpoints : List JsString
  created_at : JsString

def arrayOfStrings (value : List JsString) (field : String) : Except JsError Json := do
  failIf ([] ∈ value) (typeError (js (field ++ " must be an array of strings")))
  return .arr (value.map .str)

def nodeDescriptor (node_id key_id : JsString) (o : NodeOptions) (capabilities endpoints : Json) (created_at : JsString) : Json :=
  .obj [(js "schema", .str NODE_SCHEMA), (js "node_id", .str node_id), (js "role", .str o.role),
    (js "key", .obj [(js "alg", ed25519), (js "key_id", .str key_id), (js "public_key", .str o.keyPair.1)]),
    (js "public_key", .str o.keyPair.1), (js "capabilities", capabilities), (js "trust_roots", .arr []),
    (js "endpoints", endpoints), (js "created_at", .str created_at)]

def createMeshNode (o : NodeOptions) : Except JsError Node := do
  let node_id := js "node_" ++ (sha256Hex o.keyPair.1).take 32
  let created_at ← dateString P (some (.str o.created_at)) "created_at" (some DEFAULT_NOW)
  let capabilities ← arrayOfStrings o.capabilities "capabilities"
  let endpoints ← arrayOfStrings o.endpoints "endpoints"
  let key_id := keyIdOf o.keyPair.1
  let unsigned := nodeDescriptor node_id key_id o capabilities endpoints created_at
  let signature ← createSignature P unsigned ⟨node_id, key_id, o.keyPair.1, o.keyPair.2, .null, .null⟩
  let descriptor := hashed P (signed unsigned signature) (js "descriptor_hash")
  return ⟨node_id, key_id, o.keyPair.1, o.keyPair.2, descriptor, descriptor⟩

/-- `verifySignedRecord(record, { trustDescriptor }, errors)`. -/
def verifySignedRecord (trustDescriptor record : Json) : List JsString :=
  match record.get (js "signature") with
  | some (.obj fs) =>
    match (Json.obj fs).get (js "key_id"), (Json.obj fs).get (js "value") with
    | some (.str keyId), some (.str _) =>
      if !isStr ((Json.obj fs).get (js "alg")) (js "Ed25519") then [js "signature malformed"]
      else if !isStr (path (some trustDescriptor) ["key", "key_id"]) keyId then [js "missing public key for " ++ keyId]
      else
        match path (some trustDescriptor) ["key", "public_key"] with
        | none => [js "missing public key for " ++ keyId]
        | some (.str publicKey) =>
          errorIf (!verifySignature P (signaturePayload record) (some (.obj fs)) publicKey) "signature mismatch"
        | some _ => [js "signature mismatch"]
    | _, _ => [js "signature malformed"]
  | _ => [js "signature missing"]

/-! ## Witness checkpoints -/

/-- What the root of a checkpoint is taken over. -/
def checkpointContents (subject_node_id receipt_log_root active_set_root epoch previous_witness_hash : Option Json) : Json :=
  .obj (field (js "subject_node_id") subject_node_id ++ field (js "receipt_log_root") receipt_log_root ++
    field (js "active_set_root") active_set_root ++ field (js "epoch") epoch ++
    field (js "previous_witness_hash") previous_witness_hash)

/-- A checkpoint that is not signed yet. -/
structure Checkpoint where
  witness_node_id : JsString
  subject_node_id : JsString
  epoch : ℕ
  receipt_log_root : JsString
  active_set_root : JsString
  previous_witness_hash : JsString
  issued_at : JsString

def Checkpoint.contents (c : Checkpoint) : Json :=
  checkpointContents (some (.str c.subject_node_id)) (some (.str c.receipt_log_root)) (some (.str c.active_set_root))
    (some (.num c.epoch)) (some (.str c.previous_witness_hash))

def Checkpoint.root (c : Checkpoint) : JsString := rootFromValue P c.contents

def Checkpoint.toJson (c : Checkpoint) : Json :=
  .obj [(js "schema", .str WITNESS_SCHEMA),
    (js "witness_checkpoint_id", .str (idFromValue P "wit_" (.obj [(js "witness_node_id", .str c.witness_node_id),
      (js "subject_node_id", .str c.subject_node_id), (js "checkpoint_root", .str (c.root P))]))),
    (js "witness_node_id", .str c.witness_node_id), (js "subject_node_id", .str c.subject_node_id),
    (js "epoch", .num c.epoch), (js "checkpoint_root", .str (c.root P)), (js "receipt_log_root", .str c.receipt_log_root),
    (js "active_set_root", .str c.active_set_root), (js "previous_witness_hash", .str c.previous_witness_hash),
    (js "issued_at", .str c.issued_at)]

/-- `!Number.isInteger(epoch) || epoch < 0` is an error. -/
def readEpoch (value : Option Json) : Except JsError ℕ :=
  match natural? value with
  | some epoch => .ok epoch
  | none => .error (typeError (js "epoch must be a non-negative integer"))

/-- A root that is supplied has to be the one that is computed. -/
def checkSuppliedRoot (supplied : Option Json) (computed : JsString) : Except JsError Unit :=
  match supplied with
  | none => .ok ()
  | some supplied => do
    let root ← normalizeRoot (some supplied) "checkpoint_root"
    failIf (root ≠ computed) (plainError (js "checkpoint_root does not match checkpoint contents"))

/-- The part of `createWitnessCheckpoint` that reads and checks the options. -/
def readCheckpoint (options : Json) (node : Node) : Except JsError Checkpoint := do
  assertNoPlaintext (options.set (js "node") node.toJson) "witness checkpoint"
  let witness_node_id ← requiredString
    (firstOf [options.get (js "witness_node_id"), options.get (js "witnessNodeId"), some (.str node.node_id)]) (js "witness_node_id")
  let subject_node_id ← requiredString (firstOf [options.get (js "subject_node_id"), options.get (js "subjectNodeId"),
    options.get (js "subject"), some (.str (js "subject"))]) (js "subject_node_id")
  let receipt_log_root ← normalizeRoot (firstOf [options.get (js "receipt_log_root"), options.get (js "receiptLogRoot")])
    "receipt_log_root"
  let active_set_root ← normalizeRoot (firstOf [options.get (js "active_set_root"), options.get (js "activeSetRoot"),
    options.get (js "active_memory_root"), options.get (js "activeMemoryRoot")]) "active_set_root"
  let epoch ← readEpoch (some ((options.get (js "epoch")).getD (.num 0)))
  let previous_witness_hash ← normalizeRoot (firstOf [options.get (js "previous_witness_hash"),
    options.get (js "previousWitnessHash"), some (.str emptyMerkleRoot)]) "previous_witness_hash"
  let c : Checkpoint := ⟨witness_node_id, subject_node_id, epoch, receipt_log_root, active_set_root, previous_witness_hash, []⟩
  checkSuppliedRoot (orElse (options.get (js "checkpoint_root")) (options.get (js "checkpointRoot"))) (c.root P)
  let issued_at ← dateString P (orElse (options.get (js "issued_at")) (options.get (js "issuedAt"))) "issued_at" (some DEFAULT_NOW)
  return { c with issued_at }

/-- `createWitnessCheckpoint(options)`, for options that name no id. -/
def createWitnessCheckpoint (options : Json) (node : Node) : Except JsError Json := do
  let c ← readCheckpoint P options node
  let signature ← createSignature P (c.toJson P) node
  return hashed P (signed (c.toJson P) signature) (js "witness_hash")

/-- The options of `verifyWitnessCheckpoint`. -/
structure WitnessExpectation where
  trustDescriptor : Json
  expectedWitnessNodeId : JsString
  expectedReceiptLogRoot : Option Json
  expectedActiveSetRoot : Option Json
  expectedCheckpointRoot : Option Json
  expectedPreviousWitnessHash : JsString
  minimumEpoch : ℚ

/-- The number of a field; anything else is no epoch, which is reported on its own. -/
def numberOf (value : Option Json) : ℚ :=
  match value with
  | some (.num q) => q
  | _ => 0

/-- The errors of `verifyWitnessCheckpoint`; a checkpoint is accepted when there are none. -/
def verifyWitnessCheckpoint (checkpoint : Json) (o : WitnessExpectation) : List JsString :=
  if !checkpoint.isPlainRecord then [js "witness checkpoint must be an object"]
  else
    errorIf (hasPlaintextLeak FORBIDDEN_PLAINTEXT_KEYS checkpoint) "plaintext memory fields present"
      ++ errorIf (!isStr (checkpoint.get (js "schema")) WITNESS_SCHEMA) "schema mismatch"
      ++ (["checkpoint_root", "receipt_log_root", "active_set_root", "previous_witness_hash"].flatMap fun name =>
        errorIf (!rootTest P (checkpoint.get (js name))) (name ++ " must be a sha256 root"))
      ++ errorIf (natural? (checkpoint.get (js "epoch"))).isNone "epoch must be a non-negative integer"
      ++ errorIf (!isStr (checkpoint.get (js "checkpoint_root")) (rootFromValue P (checkpointContents
          (checkpoint.get (js "subject_node_id")) (checkpoint.get (js "receipt_log_root")) (checkpoint.get (js "active_set_root"))
          (checkpoint.get (js "epoch")) (checkpoint.get (js "previous_witness_hash"))))) "checkpoint root mismatch"
      ++ compareExpectedRoot (checkpoint.get (js "checkpoint_root")) o.expectedCheckpointRoot "expectedCheckpointRoot"
        "checkpoint root mismatch"
      ++ compareExpectedRoot (checkpoint.get (js "receipt_log_root")) o.expectedReceiptLogRoot "expectedReceiptLogRoot"
        "receipt log root mismatch"
      ++ compareExpectedRoot (checkpoint.get (js "active_set_root")) o.expectedActiveSetRoot "expectedActiveSetRoot"
        "active set root mismatch"
      ++ compareExpectedRoot (checkpoint.get (js "previous_witness_hash")) (some (.str o.expectedPreviousWitnessHash))
        "expectedPreviousWitnessHash" "previous witness hash mismatch"
      ++ errorIf (o.minimumEpoch.den != 1 || decide (numberOf (checkpoint.get (js "epoch")) < o.minimumEpoch))
        "epoch continuity mismatch"
      ++ errorIf (!isStr (checkpoint.get (js "witness_node_id")) o.expectedWitnessNodeId) "witness node mismatch"
      ++ verifySignedRecord P o.trustDescriptor checkpoint

/-! ## Relay records -/

/-- A value as a key of a `Map`; the number tells objects apart. -/
inductive RecordKey where
  | null
  | bool (b : Bool)
  | num (q : ℚ)
  | str (s : JsString)
  | object (identity : ℕ)
  deriving DecidableEq

/-- The key of a value that has just been read; `size` counts the keys before it. -/
def recordKey (size : ℕ) : Json → RecordKey
  | .null => .null
  | .bool b => .bool b
  | .num q => .num q
  | .str s => .str s
  | .arr _ | .obj _ => .object size

structure RelayStore where
  store_id : JsString
  node_id : JsString
  created_at : JsString
  records : OrdMap RecordKey Json
  node : Node

/-- `createRelayStore({ node, created_at })`, with what it reads when a field is given. -/
def createRelayStore (node : Node) (store_id node_id : Option JsString) (created_at : JsString) : Except JsError RelayStore := do
  let created ← dateString P (some (.str created_at)) "created_at" (some DEFAULT_NOW)
  return {
    store_id := store_id.getD (idFromValue P "relay_" (.obj [(js "node_id", .str node.node_id), (js "created_at", .str created_at)]))
    node_id := node_id.getD node.node_id
    created_at := created
    records := OrdMap.empty
    node }

def RELAY_INPUT_KEYS : List JsString :=
  [js "record_id", js "recordId", js "capsule_id", js "capsuleId", js "encrypted_payload_hash", js "encryptedPayloadHash",
    js "payload_hash", js "payloadHash", js "opaque_encrypted_record", js "opaqueEncryptedRecord", js "encrypted_payload",
    js "encryptedPayload", js "ciphertext", js "received_at", js "receivedAt", js "expires_at", js "expiresAt"]

def envelopePrefixes : List JsString :=
  [js "age1", js "enc:", js "encrypted:", js "ciphertext:", js "jwe:", js "xchacha20poly1305:", js "aes256gcm:", js "sealed:"]

def isEnvelopeUnit (c : CodeUnit) : Bool :=
  isLowerUnit c || isUpperUnit c || isDigitUnit c || decide (c ∈ js "+/_=:.~-")

/-- `ENCRYPTED_PAYLOAD_RE`; the letters of the prefix count in either case. -/
def isEncryptedPayload (s : JsString) : Bool :=
  envelopePrefixes.any fun start =>
    start.isPrefixOf (s.map foldCase) && s.drop start.length != [] && (s.drop start.length).all isEnvelopeUnit

/-- `COMMITMENT_RE`, in either case. -/
def isCommitment (s : JsString) : Bool :=
  [js "sha256:", js "hmac-sha256:", js "commitment:sha256:"].any fun start =>
    start.isPrefixOf (s.map foldCase) && isHash ((s.map foldCase).drop start.length)

def assertEncryptedEnvelopeOrCommitment (value : Json) : Except JsError JsString :=
  match value with
  | .str s =>
    if s = [] then .error (typeError (js "encrypted_payload must be an encrypted envelope or commitment"))
    else if !isEncryptedPayload s && !isCommitment s then
      .error (plainError (js "encrypted_payload must be an explicit encrypted envelope or commitment"))
    else .ok s
  | _ => .error (typeError (js "encrypted_payload must be an encrypted envelope or commitment"))

/-- The first of the fields that is there, `null` included. -/
def firstDefined (options : Json) (names : List String) : Option Json := names.findSome? fun name => options.get (js name)

def normalizeEncryptedPayloadHash (options : Json) : Except JsError JsString := do
  let encrypted ← (firstOf [options.get (js "encrypted_payload"), options.get (js "encryptedPayload"),
    options.get (js "opaque_encrypted_record"), options.get (js "opaqueEncryptedRecord"), options.get (js "ciphertext")]).mapM
    assertEncryptedEnvelopeOrCommitment
  match firstDefined options ["encrypted_payload_hash", "encryptedPayloadHash", "payload_hash", "payloadHash"], encrypted with
  | some explicit, _ => normalizeRoot (some explicit) "encrypted_payload_hash"
  | none, some encrypted => return rootFromValue P (.str encrypted)
  | none, none => .error (typeError (js "encrypted_payload_hash is required"))

/-- `record.record_id ?? record.recordId ?? …`. -/
def recordId (store : RelayStore) (record : Json) (encrypted_payload_hash : JsString) : Json :=
  (firstOf [record.get (js "record_id"), record.get (js "recordId"), some (.str (idFromValue P "rel_"
    (.obj [(js "store_id", .str store.store_id), (js "encrypted_payload_hash", .str encrypted_payload_hash)])))]).getD .null

def assertOnlyRelayFields (record : Json) : Except JsError Unit :=
  match record.keys.find? (· ∉ RELAY_INPUT_KEYS) with
  | some key => .error (plainError (js "relay record field " ++ key ++ js " is not opaque encrypted metadata"))
  | none => .ok ()

/-- A date, or `null` for a value that counts as false. -/
def expiryOf (supplied : Option Json) : Except JsError Json :=
  if truthy supplied then (dateString P supplied "expires_at" none).map .str else .ok .null

/-- A relay record before it is signed. -/
def unsignedRecord (store : RelayStore) (record : Json) : Except JsError Json := do
  assertNoPlaintext record "relay record"
  assertOnlyRelayFields record
  let encrypted_payload_hash ← normalizeEncryptedPayloadHash P record
  let received_at ← dateString P (orElse (record.get (js "received_at")) (record.get (js "receivedAt"))) "received_at" (some DEFAULT_NOW)
  let expires_at ← expiryOf P (orElse (record.get (js "expires_at")) (record.get (js "expiresAt")))
  return .obj [(js "schema", .str RELAY_RECORD_SCHEMA), (js "record_id", recordId P store record encrypted_payload_hash),
    (js "store_id", .str store.store_id),
    (js "capsule_id", (firstOf [record.get (js "capsule_id"), record.get (js "capsuleId"), some .null]).getD .null),
    (js "encrypted_payload_hash", .str encrypted_payload_hash), (js "payload_storage", .str (js "hash_only")),
    (js "received_at", .str received_at), (js "expires_at", expires_at)]

/-- The signed record that `pushRelayRecord(store, record)` files. -/
def relayRecord (store : RelayStore) (record : Json) : Except JsError Json := do
  let unsigned ← unsignedRecord P store record
  return signed unsigned (← createSignature P unsigned store.node)

/-- The value under which a record is filed. -/
def idOf (record : Json) : Json := (record.get (js "record_id")).getD .null

/-- `store.records.set(record.record_id, record)`. -/
def RelayStore.file (store : RelayStore) (record : Json) : RelayStore :=
  { store with records := store.records.set (recordKey store.records.size (idOf record)) record }

/-- The record with its id once more, as it is handed out. -/
def handedOut (record : Json) : Json := record.set (js "relay_record_id") (idOf record)

/-- `pullRelayRecord(store, id)`. -/
def pullRelayRecord (store : RelayStore) (id : JsString) : Except JsError (Option Json) := do
  failIf (id = []) (typeError (js "record_id is required"))
  match store.records.get (.str id) with
  | none => return none
  | some record =>
    failIf (hasPlaintextLeak FORBIDDEN_PLAINTEXT_KEYS record = true)
      (plainError (js "stored relay record contains plaintext memory fields"))
    return some (handedOut record)

end EnigmaMemory.Mesh
