import Mathlib.Algebra.Order.Ring.Unbundled.Rat
import EnigmaMemory.Spec.Receipt
import EnigmaMemory.Spec.Sanitize

/-!
# The vault

`packages/vault`: a store of encrypted memories addressed by keyed digests, with the set
of active addresses, the tombstones of deleted and superseded addresses, and a log of
events with a signed receipt for each of them. A call mutates the vault step by step and
may throw in between; what has been written by then stays (`VaultM` keeps the state of a
failed call).

Records, tombstones, events and receipts are JSON objects. The arguments of a call are
given after the choice between alternative names (`content`, `text`, `plaintext` and so
on); an address is a string. The plaintext that a record caches after its first
decryption is added in `EnigmaMemory.Spec.PlaintextCache`.
-/

namespace EnigmaMemory

open Json

variable (P : Platform)

structure SigningPair where
  key_id : Option Json
  publicKey : Option JsString
  privateKey : Option JsString

/-- An entry of the event log. -/
structure EventEntry where
  event : Json
  canonical : JsString
  hash : JsString

/-- The roots that a vault keeps of its own state. -/
structure Roots where
  active_set_root : JsString
  quarantine_set_root : JsString
  tombstone_set_root : JsString
  receipt_log_root : JsString
  lifecycle_root : JsString

structure Vault where
  vault_id : Json
  tenant_id : Json
  subject_id : Json
  actor_id : Json
  policy_id : Json
  created_at : Json
  updated_at : Json
  key_id : Json
  vaultKey : Key
  addressKey : Key
  signingKeyPair : SigningPair
  signer : Json
  memories : OrdMap JsString Json
  events : List EventEntry
  receipts : List Json
  activeAddresses : OrdSet JsString
  tombstones : OrdMap JsString Json
  quarantineAddresses : OrdSet JsString
  sequence : ℤ
  roots : Roots

/-- A call on a vault: its result or exception, and the vault it leaves behind. -/
abbrev VaultM := EStateM JsError Vault

/-- A pure step of a call. -/
def ofExcept {α : Type} (x : Except JsError α) : VaultM α := fun v =>
  match x with
  | .ok a => .ok a v
  | .error e => .error e v

/-- `if (cond) throw new Error(message)`. -/
def refuse (cond : Bool) (message : JsString) : VaultM Unit := ofExcept (if cond then .error ⟨.error, message⟩ else .ok ())

/-! ## Roots -/

def computeSetRoot (values : List JsString) : JsString := MerkleSet.root (OrdSet.ofList values)

def hashReceipt (receipt : Json) : JsString := receiptHash P receipt

def computeReceiptLogRootFrom (receipts : List Json) : JsString := computeSetRoot (receipts.map (hashReceipt P))

/-- `quarantineAddresses(vault)`, unsorted. -/
def quarantined (v : Vault) : List JsString :=
  v.quarantineAddresses.elems ++ (v.memories.entries.filter fun e =>
    Json.isStr (e.2.get (js "state")) (js "quarantine") || Json.isStr (e.2.get (js "state")) (js "quarantined")).map (·.1)

def publicTombstone (t : Json) : Option Json :=
  match t with
  | .obj _ | .arr _ => some (.obj (Json.field (js "schema") (orElse (t.get (js "schema"))
        (some (.str (js "enigma.deletion_tombstone.v1"))))
      ++ Json.field (js "memory_addr") (t.get (js "memory_addr"))
      ++ Json.field (js "operation") (t.get (js "operation"))
      ++ Json.field (js "successor_addr") (t.get (js "successor_addr"))
      ++ Json.field (js "tombstoned_at") (t.get (js "tombstoned_at"))
      ++ Json.field (js "reason_hash") (if Json.truthy (t.get (js "reason")) then
          (t.get (js "reason")).map fun r => .str (prefixedSha256 (r.toText P.toNumberFormat)) else none)))
  | _ => none

/-- `tombstoneRootItems(vault)`. The items are sorted by address there; a set root sorts
them again. -/
def tombstoneRootItems (v : Vault) : List JsString :=
  (v.tombstones.values.filterMap (publicTombstone P)).map fun t => prefixedSha256 (t.canonicalize P.toNumberFormat)

def lifecycleRoots (v : Vault) : Roots :=
  let active := computeSetRoot v.activeAddresses.elems
  let quarantine := computeSetRoot (quarantined v)
  let tombstone := computeSetRoot (tombstoneRootItems P v)
  let log := computeReceiptLogRootFrom P v.receipts
  ⟨active, quarantine, tombstone, log, computeSetRoot [active, quarantine, tombstone, log]⟩

/-! ## Events and receipts -/

/-- The argument of `appendEvent`. -/
structure EventFields where
  operation : Json
  tenant_id : Option Json := none
  subject_id : Option Json := none
  actor_id : Option Json := none
  memory_addr : Option Json := none
  source_addr : Option Json := none
  provider : Option Json := none
  model : Option Json := none
  purpose : Option Json := none
  now : Now := .absent
  policy_id : Option Json := none
  decision : Option Json := none
  metadata : Option Json := none

def eventJson (v : Vault) (uuid timestamp : JsString) (f : EventFields) : Json :=
  .obj ([(js "schema", .str (js "enigma.memory_event.v1")), (js "event_id", .str (js "evt_" ++ uuid)),
      (js "operation", f.operation)]
    ++ Json.field (js "tenant_id") (orElse f.tenant_id (some v.tenant_id))
    ++ Json.field (js "subject_id") (orElse f.subject_id (some v.subject_id))
    ++ Json.field (js "actor_id") (orElse f.actor_id (some v.actor_id))
    ++ Json.field (js "memory_addr") f.memory_addr ++ Json.field (js "source_addr") f.source_addr
    ++ Json.field (js "provider") f.provider ++ Json.field (js "model") f.model ++ Json.field (js "purpose") f.purpose
    ++ [(js "timestamp", .str timestamp), (js "sequence", .num v.sequence)]
    ++ Json.field (js "policy_id") (orElse f.policy_id (some v.policy_id))
    ++ Json.field (js "decision") f.decision
    ++ [(js "metadata", metadata P.toNumberFormat f.metadata)])

def receiptArgs (v : Vault) (event : Json) (eventHash previous activeSetRoot receiptLogRoot : JsString) : Json :=
  .obj ([(js "event", event), (js "event_hash", .str eventHash)]
    ++ Json.field (js "operation") (event.get (js "operation"))
    ++ Json.field (js "tenant_id") (event.get (js "tenant_id"))
    ++ Json.field (js "subject_id") (event.get (js "subject_id"))
    ++ Json.field (js "memory_addr") (event.get (js "memory_addr"))
    ++ Json.field (js "source_addr") (event.get (js "source_addr"))
    ++ Json.field (js "provider") (event.get (js "provider"))
    ++ Json.field (js "model") (event.get (js "model"))
    ++ Json.field (js "policy_id") (event.get (js "policy_id"))
    ++ Json.field (js "sequence") (event.get (js "sequence"))
    ++ [(js "previous_receipt_hash", .str previous), (js "active_set_root", .str activeSetRoot),
      (js "receipt_log_root", .str receiptLogRoot)]
    ++ Json.field (js "timestamp") (event.get (js "timestamp"))
    ++ [(js "signer", v.signer)])

def buildReceipt (time : ℤ) (v : Vault) (event : Json) (eventHash previous activeSetRoot receiptLogRoot : JsString) :
    Except JsError Json := do
  let receipt ← createReceipt P time (receiptArgs v event eventHash previous activeSetRoot receiptLogRoot)
    v.signingKeyPair.privateKey
  if containsPlaintextMarker P.toNumberFormat receipt then
    .error ⟨.error, js "receipt must not contain plaintext memory content"⟩
  else .ok receipt

/-- The hash that the next receipt names. -/
def previousReceiptHash (receipts : List Json) : JsString := (receipts.getLast?.map (hashReceipt P)).getD genesis

/-- The event and the receipt that `appendEvent` is about to append. -/
structure Entry where
  event : EventEntry
  timestamp : JsString
  receipt : Json

/-- `appendEvent` up to its first write. -/
def nextEntry (env : Ambient) (v : Vault) (f : EventFields) : Except JsError Entry := do
  let timestamp ← nowIso P (env.clock 0) f.now
  let event := eventJson P v (env.uuid 0) timestamp f
  let eventCanonical := event.canonicalize P.toNumberFormat
  let eventHash := prefixedSha256 eventCanonical
  let receipt ← buildReceipt P (env.clock 0) v event eventHash (previousReceiptHash P v.receipts)
    (computeSetRoot v.activeAddresses.elems) (computeReceiptLogRootFrom P v.receipts)
  return ⟨⟨event, eventCanonical, eventHash⟩, timestamp, receipt⟩

/-- `Object.assign(vault, lifecycleRoots(vault))`. -/
def applyLifecycleRoots (v : Vault) : Vault := { v with roots := lifecycleRoots P v }

/-- The writes of `appendEvent`. -/
def pushEntry (v : Vault) (e : Entry) : Vault :=
  applyLifecycleRoots P { v with
    events := v.events ++ [e.event]
    receipts := v.receipts ++ [e.receipt]
    sequence := v.sequence + 1
    updated_at := .str e.timestamp }

def appendEvent (env : Ambient) (f : EventFields) : VaultM Entry := fun v =>
  match nextEntry P env v f with
  | .ok e => .ok e (pushEntry P v e)
  | .error e => .error e v

/-! ## Addresses and contents -/

/-- `memoryAddress(vault, …)`, through `createMemoryAddress` of `packages/core`. -/
def memoryAddress (v : Vault) (subjectId memoryId : Json) (contentHash : JsString) : JsString :=
  let payload := (Json.obj [(js "domain", .str (js "enigma.memory.v1")), (js "subject_id", subjectId),
    (js "memory_id", memoryId), (js "content_hash", .str contentHash)]).canonicalize P.toNumberFormat
  js "mem:hmac-sha256:" ++ hmacSha256Hex v.addressKey.1 ((Json.obj [(js "namespace", .str (js "memory")),
    (js "tenant_id", .null), (js "subject_id", subjectId), (js "value", .str payload)]).canonicalize P.toNumberFormat)

def encryptContent (v : Vault) (iv : Bytes) (memoryAddr plaintext : JsString) : Json :=
  let sealed := P.encrypt v.vaultKey iv (utf8 memoryAddr) (utf8 plaintext)
  .obj [(js "alg", .str (js "AES-256-GCM")), (js "iv", .str (P.base64 iv)), (js "aad", .str memoryAddr),
    (js "ciphertext", .str (P.base64 sealed.1)), (js "tag", .str (P.base64 sealed.2))]

/-- The string of a field that a buffer is made from; a missing one throws. -/
def bufferField (value : Option Json) : Except JsError JsString :=
  match value with
  | some (.str s) => .ok s
  | _ => .error (typeError (js "The first argument must be of type string or an instance of Buffer"))

/-- `decryptContent(vault, record)`. -/
def decryptContent (v : Vault) (record : Json) : Except JsError JsString := do
  let encrypted := (record.get (js "content_ciphertext")).getD .null
  let iv ← bufferField (encrypted.get (js "iv"))
  let aad ← bufferField (orElse (encrypted.get (js "aad")) (record.get (js "memory_addr")))
  let tag ← bufferField (encrypted.get (js "tag"))
  let ciphertext ← bufferField (encrypted.get (js "ciphertext"))
  let plaintext ← P.decrypt v.vaultKey (P.ofBase64 iv) (utf8 aad) (P.ofBase64 ciphertext) (P.ofBase64 tag)
  return P.ofUtf8 plaintext

def contentCommitment (v : Vault) (contentHash : JsString) : JsString :=
  js "hmac-sha256:" ++ hmacSha256Hex v.addressKey.1 contentHash

/-! ## `createVault` -/

/-- A key argument: a buffer, base64 text, nothing, or something else. -/
inductive KeyArg where
  | absent
  | buffer (b : Bytes)
  | text (s : JsString)
  | other

/-- `keyBytes(key, label)`, `random` being the bytes drawn for a missing key. -/
def keyBytes (random : Key) (key : KeyArg) (label : String) : Except JsError Key :=
  match key with
  | .absent => .ok random
  | .buffer b => if h : b.length = 32 then .ok ⟨b, h⟩ else .error ⟨.error, js label ++ js " must be 32 bytes"⟩
  | .text s =>
    if h : (P.ofBase64 s).length = 32 then .ok ⟨P.ofBase64 s, h⟩
    else .error ⟨.error, js label ++ js " must decode to 32 bytes"⟩
  | .other => .error ⟨.error, js label ++ js " must be a Buffer or base64 string"⟩

structure CreateArgs where
  now : Now := .absent
  passphrase : Option JsString := none
  salt : Option JsString := none
  vault_key : KeyArg := .absent
  address_key : KeyArg := .absent
  signingKeyPair : Option SigningPair := none
  signer : Option Json := none
  vault_id : Option Json := none
  tenant_id : Option Json := none
  subject_id : Option Json := none
  actor_id : Option Json := none
  policy_id : Option Json := none
  key_id : Option Json := none

/-- `a ?? b`. -/
def withDefault (a : Option Json) (b : Json) : Json := (orElse a (some b)).getD b

/-- `deriveKeysFromPassphrase(passphrase, salt)`. -/
def deriveKeysFromPassphrase (passphrase salt : JsString) : Except JsError DerivedKeys :=
  if (P.ofBase64 salt).length < 8 then .error ⟨.error, js "Salt must be at least 8 bytes"⟩
  else .ok (P.stretch (utf8 passphrase) (P.ofBase64 salt))

/-- A pair of PEM texts with the key identifier of the public key. -/
def pairOf (pair : JsString × JsString) : SigningPair := ⟨some (.str (keyIdOf pair.1)), some pair.1, some pair.2⟩

/-- The vault key, the address key and the seed of the signing key. -/
def vaultKeys (env : Ambient) (args : CreateArgs) : Except JsError (Key × Key × Option Key) :=
  match args.passphrase with
  | some (c :: rest) => do
    let derived ← deriveKeysFromPassphrase P (c :: rest) (args.salt.getD (P.base64 (env.random 0 16)))
    return (derived.vaultKey, derived.addressKey, some derived.signingSeed)
  | _ => do
    let vaultKey ← keyBytes P ⟨env.random 1 32, env.random_length 1 32⟩ args.vault_key "vault key"
    let addressKey ← keyBytes P ⟨env.random 2 32, env.random_length 2 32⟩ args.address_key "address key"
    return (vaultKey, addressKey, none)

def signingPair (env : Ambient) (seed : Option Key) : SigningPair :=
  match seed with
  | some seed => pairOf (P.pairOfSeed seed)
  | none => pairOf env.keyPair

def signerFor (uuid : JsString) (pair : SigningPair) : Json :=
  .obj [(js "key_id", withDefault pair.key_id (.str (js "local-ed25519-" ++ uuid))), (js "alg", ed25519)]

def zeroRoots : Roots := ⟨emptyMerkleRoot, emptyMerkleRoot, emptyMerkleRoot, emptyMerkleRoot, emptyMerkleRoot⟩

def createVault (env : Ambient) (args : CreateArgs) : Except JsError Vault := do
  let createdAt ← nowIso P (env.clock 0) args.now
  let (vaultKey, addressKey, seed) ← vaultKeys P env args
  let signingKeyPair := args.signingKeyPair.getD (signingPair P env seed)
  return applyLifecycleRoots P {
    vault_id := withDefault args.vault_id (.str (js "vault_" ++ env.uuid 0))
    tenant_id := withDefault args.tenant_id (.str (js "local"))
    subject_id := withDefault args.subject_id (.str (js "local-subject"))
    actor_id := withDefault args.actor_id (.str (js "local-user"))
    policy_id := withDefault args.policy_id (.str (js "local-default"))
    created_at := .str createdAt
    updated_at := .str createdAt
    key_id := withDefault args.key_id (.str (js "vault-key-" ++ env.uuid 1))
    vaultKey, addressKey, signingKeyPair
    signer := withDefault args.signer (signerFor (env.uuid 2) signingKeyPair)
    memories := OrdMap.empty
    events := []
    receipts := []
    activeAddresses := OrdSet.empty
    tombstones := OrdMap.empty
    quarantineAddresses := OrdSet.empty
    sequence := 0
    roots := zeroRoots }

/-! ## `remember` -/

/-- A required argument: `undefined` and `null` are refused. -/
def required (value : Option Json) (message : String) : Except JsError Json :=
  match value with
  | none | some .null => .error ⟨.error, js message⟩
  | some v => .ok v

structure RememberArgs where
  content : Option Json
  memory_id : Option Json := none
  subject_id : Option Json := none
  now : Now := .absent
  kind : Option Json := none
  source_refs : Option Json := none
  confidence : Option Json := none
  sensitivity : Option Json := none
  purpose_tags : Option Json := none
  retention : Option Json := none
  importance : Option Json := none
  metadata : Option Json := none
  actor_id : Option Json := none
  policy_id : Option Json := none

/-- `normalizeImportance(value)`. -/
def normalizeImportance (value : Option Json) : Option Json :=
  match value with
  | none | some .null => none
  | some v => (P.toNumber v).map fun q => .num (max 0 (min 1 q))

/-- The record that `remember` stores. -/
def memoryRecord (v : Vault) (iv : Bytes) (args : RememberArgs) (plaintext memoryId subjectId : Json)
    (createdAt contentHash memoryAddr : JsString) : Json :=
  .obj ([(js "schema", .str (js "enigma.memory_object.v1")), (js "memory_id", memoryId),
      (js "memory_addr", .str memoryAddr), (js "subject_id", subjectId),
      (js "kind", withDefault args.kind (.str (js "fact"))),
      (js "content_ciphertext", encryptContent P v iv memoryAddr (plaintext.toText P.toNumberFormat)),
      (js "content_hash", .str contentHash), (js "content_commitment", .str (contentCommitment v contentHash)),
      (js "source_refs", .arr (sanitizeSourceRefs P.toNumberFormat publicPlaintextKeys args.source_refs)),
      (js "confidence", withDefault args.confidence (.str (js "user_confirmed"))),
      (js "sensitivity", withDefault args.sensitivity (.str (js "normal"))),
      (js "purpose_tags", match args.purpose_tags with | some (.arr xs) => .arr xs | _ => .arr []),
      (js "retention", withDefault args.retention (.str (js "durable")))]
    ++ Json.field (js "importance") (normalizeImportance P args.importance)
    ++ [(js "state", .str (js "active")), (js "metadata", metadata P.toNumberFormat args.metadata),
      (js "created_at", .str createdAt), (js "updated_at", .str createdAt)])

/-- What `remember` and `updateMemory` return of a stored memory. -/
structure Stored where
  memory : Json
  memory_addr : JsString
  event : Json
  receipt : Json

def remember (env : Ambient) (args : RememberArgs) : VaultM Stored := do
  let vault ← get
  let plaintext ← ofExcept (required args.content "remember requires content")
  let memoryId := withDefault args.memory_id (.str (js "mem_" ++ env.uuid 0))
  let subjectId := withDefault args.subject_id vault.subject_id
  let createdAt ← ofExcept (nowIso P (env.clock 0) args.now)
  let contentHash := prefixedSha256 (plaintext.toText P.toNumberFormat)
  let memoryAddr := memoryAddress P vault subjectId memoryId contentHash
  refuse (vault.tombstones.has memoryAddr) (js "memory address is tombstoned: " ++ memoryAddr)
  let record := memoryRecord P vault (env.random 0 12) args plaintext memoryId subjectId createdAt contentHash memoryAddr
  modify fun v => { v with
    memories := v.memories.set memoryAddr record
    activeAddresses := v.activeAddresses.add memoryAddr }
  let entry ← appendEvent P (env.drop 1) {
    operation := .str (js "create")
    memory_addr := some (.str memoryAddr)
    subject_id := some subjectId
    actor_id := args.actor_id
    policy_id := args.policy_id
    now := args.now
    metadata := some (.obj ([(js "memory_id", memoryId)] ++ Json.field (js "kind") (record.get (js "kind"))
      ++ Json.field (js "sensitivity") (record.get (js "sensitivity"))
      ++ Json.field (js "importance") (record.get (js "importance"))
      ++ Json.field (js "content_commitment") (record.get (js "content_commitment")))) }
  return ⟨publicRecord P.toNumberFormat record, memoryAddr, entry.event.event, entry.receipt⟩

/-! ## `recall` -/

/-- `if (!memoryAddr) throw …`: an address that is missing or empty is refused. -/
def requiredAddr (addr : Option JsString) (message : String) : Except JsError JsString :=
  match addr with
  | some (c :: rest) => .ok (c :: rest)
  | _ => .error ⟨.error, js message⟩

structure RecallArgs where
  memory_addr : Option JsString
  operation : Option Json := none
  provider : Option Json := none
  model : Option Json := none
  purpose : Option Json := none
  actor_id : Option Json := none
  policy_id : Option Json := none
  now : Now := .absent

structure Recalled where
  memory : Json
  memory_addr : JsString
  content : JsString
  event : Json
  receipt : Json

def isActive (record : Option Json) : Bool := Json.isStr (record.bind (·.get (js "state"))) (js "active")

/-- `recall(vault, …)`. -/
def recallMemory (env : Ambient) (args : RecallArgs) : VaultM Recalled := do
  let vault ← get
  let memoryAddr ← ofExcept (requiredAddr args.memory_addr "recall requires memory_addr")
  refuse (vault.tombstones.has memoryAddr) (js "memory is tombstoned: " ++ memoryAddr)
  refuse (!vault.activeAddresses.has memoryAddr) (js "memory is not active: " ++ memoryAddr)
  refuse (!isActive (vault.memories.get memoryAddr)) (js "memory is not active: " ++ memoryAddr)
  let record := (vault.memories.get memoryAddr).getD .null
  let plaintext ← ofExcept (decryptContent P vault record)
  let entry ← appendEvent P env {
    operation := withDefault args.operation (.str (js "read"))
    memory_addr := some (.str memoryAddr)
    provider := args.provider
    model := args.model
    purpose := args.purpose
    actor_id := args.actor_id
    policy_id := args.policy_id
    now := args.now
    metadata := some (.obj (Json.field (js "kind") (record.get (js "kind"))
      ++ Json.field (js "sensitivity") (record.get (js "sensitivity")))) }
  return ⟨(publicRecord P.toNumberFormat record).set (js "content") (.str plaintext), memoryAddr, plaintext,
    entry.event.event, entry.receipt⟩

/-! ## `updateMemory` -/

structure UpdateArgs where
  memory_addr : Option JsString
  content : Option Json
  reason : Option Json := none
  actor_id : Option Json := none
  policy_id : Option Json := none
  now : Now := .absent

structure Updated where
  old_memory_addr : JsString
  stored : Stored
  tombstone : Json

/-- The address of a record's memory under new content. -/
def updatedAddr (v : Vault) (oldRecord : Json) (contentHash : JsString) : JsString :=
  memoryAddress P v ((oldRecord.get (js "subject_id")).getD .null) ((oldRecord.get (js "memory_id")).getD .null) contentHash

def updatedRecord (v : Vault) (iv : Bytes) (oldRecord : Json) (newAddr plaintext contentHash updatedAt : JsString) : Json :=
  (publicRecord P.toNumberFormat oldRecord).spread (.obj [(js "memory_addr", .str newAddr),
    (js "content_ciphertext", encryptContent P v iv newAddr plaintext), (js "content_hash", .str contentHash),
    (js "content_commitment", .str (contentCommitment v contentHash)), (js "state", .str (js "active")),
    (js "updated_at", .str updatedAt)])

def updateTombstone (oldAddr newAddr updatedAt : JsString) (reason : Option Json) : Json :=
  .obj [(js "schema", .str (js "enigma.deletion_tombstone.v1")), (js "memory_addr", .str oldAddr),
    (js "operation", .str (js "update")), (js "successor_addr", .str newAddr), (js "tombstoned_at", .str updatedAt),
    (js "reason", withDefault reason (.str (js "updated")))]

def updateMemory (env : Ambient) (args : UpdateArgs) : VaultM Updated := do
  let vault ← get
  let oldAddr ← ofExcept (requiredAddr args.memory_addr "updateMemory requires memory_addr")
  let plaintext ← ofExcept (required args.content "updateMemory requires content")
  refuse (vault.tombstones.has oldAddr || !vault.activeAddresses.has oldAddr) (js "memory is not active: " ++ oldAddr)
  refuse (!vault.memories.has oldAddr) (js "unknown memory: " ++ oldAddr)
  let oldRecord := ((vault.memories.get oldAddr).getD .null).set (js "state") (.str (js "superseded"))
  modify fun v => { v with memories := v.memories.set oldAddr oldRecord }
  let firstNow ← ofExcept (nowIso P (env.clock 0) args.now)
  let oldRecord := oldRecord.set (js "updated_at") (.str firstNow)
  modify fun v => { v with
    memories := v.memories.set oldAddr oldRecord
    activeAddresses := v.activeAddresses.delete oldAddr }
  let plaintext := plaintext.toText P.toNumberFormat
  let contentHash := prefixedSha256 plaintext
  let newAddr := updatedAddr P vault oldRecord contentHash
  let updatedAt ← ofExcept (nowIso P (env.clock 1) args.now)
  let newRecord := updatedRecord P vault (env.random 0 12) oldRecord newAddr plaintext contentHash updatedAt
  let tombstone := updateTombstone oldAddr newAddr updatedAt args.reason
  modify fun v => { v with
    memories := v.memories.set newAddr newRecord
    activeAddresses := v.activeAddresses.add newAddr
    tombstones := v.tombstones.set oldAddr tombstone }
  let entry ← appendEvent P (env.drop 2) {
    operation := .str (js "update")
    memory_addr := some (.str newAddr)
    source_addr := some (.str oldAddr)
    actor_id := args.actor_id
    policy_id := args.policy_id
    now := args.now
    metadata := some (.obj (Json.field (js "memory_id") (oldRecord.get (js "memory_id"))
      ++ [(js "old_memory_addr", .str oldAddr)]
      ++ Json.field (js "content_commitment") (newRecord.get (js "content_commitment")))) }
  return ⟨oldAddr, ⟨publicRecord P.toNumberFormat newRecord, newAddr, entry.event.event, entry.receipt⟩, tombstone⟩

/-! ## `deleteMemory` -/

structure DeleteArgs where
  memory_addr : Option JsString
  reason : Option Json := none
  actor_id : Option Json := none
  policy_id : Option Json := none
  now : Now := .absent

structure Deleted where
  memory_addr : JsString
  tombstone : Json
  event : Json
  receipt : Json

def deleteTombstone (addr tombstonedAt : JsString) (reason : Option Json) : Json :=
  .obj [(js "schema", .str (js "enigma.deletion_tombstone.v1")), (js "memory_addr", .str addr),
    (js "operation", .str (js "delete")), (js "tombstoned_at", .str tombstonedAt),
    (js "reason", withDefault reason (.str (js "user_deleted")))]

/-- The writes to the record of a deleted memory, if there is one. -/
def retireRecord (time : ℤ) (now : Now) (addr : JsString) : VaultM Unit := do
  match (← get).memories.get addr with
  | none => return ()
  | some record =>
    let record := record.set (js "state") (.str (js "tombstoned"))
    modify fun v => { v with memories := v.memories.set addr record }
    let updatedAt ← ofExcept (nowIso P time now)
    modify fun v => { v with memories := v.memories.set addr (record.set (js "updated_at") (.str updatedAt)) }

def deleteMemory (env : Ambient) (args : DeleteArgs) : VaultM Deleted := do
  let vault ← get
  let memoryAddr ← ofExcept (requiredAddr args.memory_addr "deleteMemory requires memory_addr")
  refuse (vault.tombstones.has memoryAddr) (js "memory is already tombstoned: " ++ memoryAddr)
  refuse (!vault.activeAddresses.has memoryAddr) (js "memory is not active: " ++ memoryAddr)
  retireRecord P (env.clock 0) args.now memoryAddr
  modify fun v => { v with activeAddresses := v.activeAddresses.delete memoryAddr }
  let tombstonedAt ← ofExcept (nowIso P (env.clock 1) args.now)
  let tombstone := deleteTombstone memoryAddr tombstonedAt args.reason
  modify fun v => { v with tombstones := v.tombstones.set memoryAddr tombstone }
  let entry ← appendEvent P (env.drop 2) {
    operation := .str (js "delete")
    memory_addr := some (.str memoryAddr)
    actor_id := args.actor_id
    policy_id := args.policy_id
    now := args.now
    metadata := some (.obj (Json.field (js "reason") (tombstone.get (js "reason")))) }
  return ⟨memoryAddr, tombstone, entry.event.event, entry.receipt⟩

end EnigmaMemory
