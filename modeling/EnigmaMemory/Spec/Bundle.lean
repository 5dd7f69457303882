import EnigmaMemory.Spec.Vault

/-!
# Export and import

`exportBundle` writes a vault out, `importBundle` builds a vault from a bundle. The import
does not trust the declared state: it replays the receipts (`deriveReceiptLifecycle`) and
refuses a bundle whose declared active addresses and tombstones differ from what the
receipts say (`reconcileImportedLifecycle`).

The contents of a bundle are arbitrary JSON; its lists are there, the active addresses are
strings, and so are the addresses in its receipts, tombstones and records.
-/

namespace EnigmaMemory

open Json

variable (P : Platform)

structure Bundle where
  exported_at : JsString
  vault : Json
  keyring : Json
  memory_objects : List Json
  active_memory_addresses : List JsString
  tombstones : List Json
  events : List EventEntry
  receipts : List Json
  export_receipt : Json

/-! ## Export -/

/-- A string that is not `undefined`, `null` or empty, such as a usable passphrase. -/
def nonEmpty (s : Option JsString) : Option JsString :=
  match s with
  | some (c :: rest) => some (c :: rest)
  | _ => none

def buildKeyring (env : Ambient) (v : Vault) (passphrase : Option JsString) : Except JsError Json :=
  match nonEmpty passphrase with
  | some passphrase => do
    let salt := P.base64 (env.random 0 16)
    let derived ← deriveKeysFromPassphrase P passphrase salt
    let iv := env.random 1 12
    let plaintext := (Json.obj ([(js "vault_key_b64", .str (P.base64 v.vaultKey.1)),
        (js "address_key_b64", .str (P.base64 v.addressKey.1))]
      ++ Json.field (js "privateKey") (v.signingKeyPair.privateKey.map .str))).stringify P.toNumberFormat
    let sealed := P.encrypt derived.kek iv [] (utf8 plaintext)
    return .obj ([(js "type", .str (js "local_secret_encrypted")),
        (js "warning", .str (js "Keyring is encrypted with AES-256-GCM; passphrase required on import.")),
        (js "salt", .str salt), (js "iv", .str (P.base64 iv)), (js "tag", .str (P.base64 sealed.2)),
        (js "ciphertext", .str (P.base64 sealed.1)), (js "signer", v.signer)]
      ++ Json.field (js "publicKey") (v.signingKeyPair.publicKey.map .str))
  | none =>
    return .obj ([(js "type", .str (js "local_secret")), (js "unencrypted", .bool true),
        (js "warning", .str (js "WARNING: This bundle stores vault keys in plaintext. Anyone with file access can decrypt memory contents. Use --passphrase to encrypt the keyring.")),
        (js "vault_key_b64", .str (P.base64 v.vaultKey.1)), (js "address_key_b64", .str (P.base64 v.addressKey.1)),
        (js "signer", v.signer)]
      ++ Json.field (js "publicKey") (v.signingKeyPair.publicKey.map .str)
      ++ Json.field (js "privateKey") (v.signingKeyPair.privateKey.map .str))

structure ExportArgs where
  actor_id : Option Json := none
  policy_id : Option Json := none
  now : Now := .absent
  passphrase : Option JsString := none

/-- The string of a field, empty when it is no string. -/
def text (value : Option Json) : JsString :=
  match value with
  | some (.str s) => s
  | _ => []

/-- The tombstones by address. -/
def sortedTombstones (v : Vault) : List Json :=
  v.tombstones.values.insertionSort fun a b => P.localeLe (text (a.get (js "memory_addr"))) (text (b.get (js "memory_addr")))

/-- The `vault` part of a bundle. -/
def bundleVault (v : Vault) : Json :=
  .obj [(js "schema", .str (js "enigma.vault.local.v1")), (js "vault_id", v.vault_id), (js "tenant_id", v.tenant_id),
    (js "subject_id", v.subject_id), (js "actor_id", v.actor_id), (js "policy_id", v.policy_id),
    (js "created_at", v.created_at), (js "updated_at", v.updated_at), (js "encryption", .str (js "local_aead")),
    (js "key_id", v.key_id), (js "active_set_root", .str (lifecycleRoots P v).active_set_root),
    (js "receipt_log_root", .str (lifecycleRoots P v).receipt_log_root), (js "sequence", .num v.sequence)]

def exportBundle (env : Ambient) (args : ExportArgs) : VaultM Bundle := do
  let before ← get
  let entry ← appendEvent P env {
    operation := .str (js "export")
    actor_id := args.actor_id
    policy_id := args.policy_id
    now := args.now
    metadata := some (.obj [(js "memory_count", .num before.memories.size),
      (js "active_count", .num before.activeAddresses.size), (js "tombstone_count", .num before.tombstones.size)]) }
  let vault ← get
  let exportedAt ← ofExcept (nowIso P (env.clock 1) args.now)
  let keyring ← ofExcept (buildKeyring P env vault args.passphrase)
  return {
    exported_at := exportedAt
    vault := bundleVault P vault
    keyring := keyring
    memory_objects := vault.memories.values.map (publicRecord P.toNumberFormat)
    active_memory_addresses := sortStrings vault.activeAddresses.elems
    tombstones := sortedTombstones P vault
    events := vault.events
    receipts := vault.receipts
    export_receipt := entry.receipt }

/-! ## The replay of receipts -/

/-- The address in a field, if it is not `undefined` or empty. -/
def addrOf (value : Option Json) : Option JsString :=
  match value with
  | some (.str (c :: rest)) => some (c :: rest)
  | _ => none

/-- `receiptEvent(receipt)`. -/
def receiptEvent (receipt : Json) : Option Json :=
  match receipt with
  | .obj _ | .arr _ =>
    match receipt.get (js "event") with
    | some (.obj fs) => some (.obj fs)
    | some (.arr xs) => some (.arr xs)
    | _ => some receipt
  | _ => none

/-- The active addresses and the tombstones of a vault. -/
structure Lifecycle where
  active : OrdSet JsString
  tombstones : OrdMap JsString Json

def replayedUpdate (source successor : JsString) (timestamp : Option Json) : Json :=
  .obj ([(js "schema", .str (js "enigma.deletion_tombstone.v1")), (js "memory_addr", .str source),
      (js "operation", .str (js "update")), (js "successor_addr", .str successor)]
    ++ Json.field (js "tombstoned_at") timestamp ++ [(js "reason", .str (js "updated"))])

def replayedDelete (addr : JsString) (timestamp : Option Json) : Json :=
  .obj ([(js "schema", .str (js "enigma.deletion_tombstone.v1")), (js "memory_addr", .str addr),
      (js "operation", .str (js "delete"))]
    ++ Json.field (js "tombstoned_at") timestamp ++ [(js "reason", .str (js "deleted"))])

/-- What one event does to the replayed state. -/
def replayEvent (s : Lifecycle) (event : Json) : Lifecycle :=
  match addrOf (event.get (js "memory_addr")) with
  | none => s
  | some addr =>
    if Json.isStr (event.get (js "operation")) (js "create") then ⟨s.active.add addr, s.tombstones.delete addr⟩
    else if Json.isStr (event.get (js "operation")) (js "update") then
      match addrOf (event.get (js "source_addr")) with
      | some source =>
        ⟨(s.active.delete source).add addr, (s.tombstones.set source
          (replayedUpdate source addr (event.get (js "timestamp")))).delete addr⟩
      | none => ⟨s.active.add addr, s.tombstones.delete addr⟩
    else if Json.isStr (event.get (js "operation")) (js "delete") then
      ⟨s.active.delete addr, s.tombstones.set addr (replayedDelete addr (event.get (js "timestamp")))⟩
    else s

/-- One receipt: its event is replayed, then its `active_set_root` is compared. -/
def replayReceipt (s : Lifecycle) (receipt : Json) : Except JsError Lifecycle :=
  match receiptEvent receipt with
  | none => .ok s
  | some event =>
    match receipt.get (js "active_set_root") with
    | some (.str root) =>
      if root = computeSetRoot (replayEvent s event).active.elems then .ok (replayEvent s event)
      else .error ⟨.error, js "importBundle receipt active_set_root mismatch"⟩
    | _ => .ok (replayEvent s event)

def deriveReceiptLifecycle (receipts : List Json) : Except JsError Lifecycle :=
  receipts.foldlM replayReceipt ⟨OrdSet.empty, OrdMap.empty⟩

/-! ## Import -/

def sameStringSet (left right : List JsString) : Bool := decide (sortStrings left = sortStrings right)

def importedTombstonesByAddress (tombstones : List Json) : OrdMap JsString Json :=
  tombstones.foldl (fun out t =>
    match addrOf (t.get (js "memory_addr")) with
    | some addr => out.set addr (sanitizePublicValue P.toNumberFormat t)
    | none => out) OrdMap.empty

/-- `{ ...derived, ...imported, memory_addr, operation }`. -/
def mergedTombstone (addr : JsString) (derived imported : Json) : Json :=
  ((derived.spread imported).set (js "memory_addr") (.str addr)).set (js "operation")
    ((derived.get (js "operation")).getD .null)

/-- `imported?.operation && imported.operation !== derived.operation`. -/
def operationClash (derived : Json) (imported : Option Json) : Bool :=
  match imported.bind (·.get (js "operation")) with
  | some (.str op) => op != [] && !Json.isStr (derived.get (js "operation")) op
  | other => Json.truthy other

/-- The state of a record after the replay, or none where the import is refused. -/
def reconciledRecord (s : Lifecycle) (addr : JsString) (record : Json) : Option Json :=
  if s.active.has addr then some (record.set (js "state") (.str (js "active")))
  else
    match s.tombstones.get addr with
    | some t => some (record.set (js "state") (.str
        (if Json.isStr (t.get (js "operation")) (js "update") then js "superseded" else js "tombstoned")))
    | none => if Json.isStr (record.get (js "state")) (js "active") then none else some record

/-- `bundle.vault?.active_set_root && bundle.vault.active_set_root !== …`. -/
def rootClash (declared : Option Json) (root : JsString) : Bool := Json.truthy declared && !Json.isStr declared root

/-- The checks of `reconcileImportedLifecycle` before it touches the records. -/
def reconcileLifecycle (bundle : Bundle) (receipts : List Json) : Except JsError Lifecycle := do
  let derived ← deriveReceiptLifecycle receipts
  if !sameStringSet (OrdSet.ofList bundle.active_memory_addresses).elems derived.active.elems then
    .error ⟨.error, js "importBundle active_memory_addresses do not match receipt-derived state"⟩
  else if rootClash (bundle.vault.get (js "active_set_root")) (computeSetRoot derived.active.elems) then
    .error ⟨.error, js "importBundle vault active_set_root does not match receipt-derived state"⟩
  else
    let imported := importedTombstonesByAddress P bundle.tombstones
    if !sameStringSet imported.keys derived.tombstones.keys then
      .error ⟨.error, js "importBundle tombstones do not match receipt-derived state"⟩
    else if derived.tombstones.entries.any fun e => operationClash e.2 (imported.get e.1) then
      .error ⟨.error, js "importBundle tombstone operation does not match receipt-derived state"⟩
    else .ok ⟨derived.active, derived.tombstones.mapValues fun addr t => mergedTombstone addr t ((imported.get addr).getD (.obj []))⟩

def reconcileRecords (s : Lifecycle) (records : OrdMap JsString Json) : Except JsError (OrdMap JsString Json) :=
  if records.entries.any fun e => (reconciledRecord s e.1 e.2).isNone then
    .error ⟨.error, js "importBundle memory object active state is not receipt-derived"⟩
  else .ok (records.mapValues fun addr record => (reconciledRecord s addr record).getD record)

/-- `{ ...value }`. -/
def spreadCopy (F : NumberFormat) : Json → Json
  | .str s => .obj (s.zipIdx.map fun x => (F.numberText x.2, .str [x.1]))
  | j => .obj (entries F j)

/-- `{ ...out, [key]: value ? { ...sanitizePublicValue(value) } : value }`. -/
def spreadPublic (F : NumberFormat) (out : Json) (key : JsString) (value : Option Json) : Json :=
  match value with
  | none => out.without key
  | some v => out.set key (if Json.truthy (some v) then spreadCopy F (sanitizePublicValue F v) else v)

/-- A receipt of a bundle as the imported vault keeps it. -/
def importedReceipt (receipt : Json) : Except JsError Json :=
  match receipt with
  | .null => .error (typeError (js "Cannot read properties of null (reading 'signer')"))
  | _ =>
    let out := spreadCopy P.toNumberFormat (sanitizePublicValue P.toNumberFormat receipt)
    .ok (spreadPublic P.toNumberFormat (spreadPublic P.toNumberFormat out (js "signer") (receipt.get (js "signer")))
      (js "signature") (receipt.get (js "signature")))

def sanitizeImportedEventEntry (entry : EventEntry) : EventEntry :=
  let event := sanitizePublicValue P.toNumberFormat entry.event
  let canonical := event.canonicalize P.toNumberFormat
  ⟨event, canonical, if isRoot entry.hash then entry.hash else prefixedSha256 canonical⟩

def importedRecords (objects : List Json) : OrdMap JsString Json :=
  objects.foldl (fun out record => out.set (text (record.get (js "memory_addr"))) (publicRecord P.toNumberFormat record))
    OrdMap.empty

structure ImportArgs where
  passphrase : Option JsString := none
  actor_id : Option Json := none
  policy_id : Option Json := none
  now : Now := .absent

/-- The values that `importBundle` reads from the keyring. -/
structure KeyringSecrets where
  vault_key : Option Json
  address_key : Option Json
  privateKey : Option Json
  warnings : List JsString

/-- `decryptKeyring(keyring, passphrase)`. -/
def decryptKeyring (keyring : Json) (passphrase : JsString) : Except JsError Json := do
  let salt ← bufferField (keyring.get (js "salt"))
  let derived ← deriveKeysFromPassphrase P passphrase salt
  let iv ← bufferField (keyring.get (js "iv"))
  let tag ← bufferField (keyring.get (js "tag"))
  let ciphertext ← bufferField (keyring.get (js "ciphertext"))
  let plaintext ← P.decrypt derived.kek (P.ofBase64 iv) [] (P.ofBase64 ciphertext) (P.ofBase64 tag)
  P.parseJson (P.ofUtf8 plaintext)

def keyringSecrets (keyring : Json) (passphrase : Option JsString) : Except JsError KeyringSecrets :=
  if Json.isStr (keyring.get (js "type")) (js "local_secret_encrypted") then
    match nonEmpty passphrase with
    | none => .error ⟨.error, js "Encrypted keyring requires passphrase"⟩
    | some passphrase => do
      let secrets ← decryptKeyring P keyring passphrase
      return ⟨secrets.get (js "vault_key_b64"), secrets.get (js "address_key_b64"), secrets.get (js "privateKey"), []⟩
  else
    .ok ⟨keyring.get (js "vault_key_b64"), keyring.get (js "address_key_b64"), keyring.get (js "privateKey"),
      if Json.isStr (keyring.get (js "type")) (js "local_secret") then
        [js "Plaintext keyrings are deprecated; use --passphrase to encrypt new bundles."] else []⟩

def keyArg (value : Option Json) : KeyArg :=
  match value with
  | none | some .null => .absent
  | some (.str s) => .text s
  | _ => .other

/-- `nowIso` reads only strings among JSON values. -/
def nowArg (value : Option Json) : Now :=
  match value with
  | some (.str s) => .text s
  | _ => .absent

def restoredSigningKeyPair (keyring : Json) (privateKey : Option Json) : Option SigningPair :=
  match addrOf privateKey with
  | some sk => some ⟨(keyring.get (js "signer")).bind (·.get (js "key_id")),
      addrOf (keyring.get (js "publicKey")), some sk⟩
  | none => none

/-- `Number.isInteger(value) ? value : 0`. -/
def integerOr0 (value : Option Json) : ℤ :=
  match value with
  | some (.num q) => if q.den = 1 then q.num else 0
  | _ => 0

/-- The arguments of the vault that `importBundle` creates. -/
def importCreateArgs (args : ImportArgs) (bundle : Bundle) (secrets : KeyringSecrets) : CreateArgs where
  vault_id := bundle.vault.get (js "vault_id")
  tenant_id := bundle.vault.get (js "tenant_id")
  subject_id := bundle.vault.get (js "subject_id")
  actor_id := orElse args.actor_id (bundle.vault.get (js "actor_id"))
  policy_id := bundle.vault.get (js "policy_id")
  vault_key := keyArg secrets.vault_key
  address_key := keyArg secrets.address_key
  signingKeyPair := restoredSigningKeyPair bundle.keyring secrets.privateKey
  signer := bundle.keyring.get (js "signer")
  now := nowArg (bundle.vault.get (js "created_at"))

/-- The vault that `importBundle` creates before it takes over the log and the memories. -/
def importedVault (env : Ambient) (args : ImportArgs) (bundle : Bundle) (secrets : KeyringSecrets) :
    Except JsError Vault := do
  let created ← createVault P env (importCreateArgs args bundle secrets)
  return { created with
    created_at := withDefault (bundle.vault.get (js "created_at")) created.created_at
    updated_at := withDefault (bundle.vault.get (js "updated_at")) created.updated_at
    sequence := integerOr0 (bundle.vault.get (js "sequence")) }

/-- What `importBundle` returns. -/
structure Imported where
  vault : Vault
  active_memory_addresses : List JsString
  tombstones : List Json
  warnings : List JsString

/-- `importBundle` before its own event. -/
def restoreVault (env : Ambient) (args : ImportArgs) (bundle : Bundle) (secrets : KeyringSecrets) : Except JsError Vault := do
  let created ← importedVault P env args bundle secrets
  let receipts ← bundle.receipts.mapM (importedReceipt P)
  let lifecycle ← reconcileLifecycle P bundle receipts
  let memories ← reconcileRecords lifecycle (importedRecords P bundle.memory_objects)
  return applyLifecycleRoots P { created with
    events := bundle.events.map (sanitizeImportedEventEntry P)
    receipts, memories
    activeAddresses := lifecycle.active
    tombstones := lifecycle.tombstones }

/-- The event that `importBundle` appends. -/
def importEvent (args : ImportArgs) (restored : Vault) : EventFields where
  operation := .str (js "import")
  actor_id := args.actor_id
  policy_id := args.policy_id
  now := args.now
  metadata := some (.obj [(js "imported_memory_count", .num restored.memories.size),
    (js "imported_active_count", .num restored.activeAddresses.size),
    (js "imported_tombstone_count", .num restored.tombstones.size)])

def importBundle (env : Ambient) (args : ImportArgs) (bundle : Bundle) : Except JsError Imported := do
  let secrets ← keyringSecrets P bundle.keyring args.passphrase
  let restored ← restoreVault P env args bundle secrets
  let entry ← nextEntry P (env.drop 3) restored (importEvent args restored)
  let vault := pushEntry P restored entry
  return ⟨vault, sortStrings vault.activeAddresses.elems, vault.tombstones.values, secrets.warnings⟩

end EnigmaMemory
