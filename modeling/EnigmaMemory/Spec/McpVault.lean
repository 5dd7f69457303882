import EnigmaMemory.Spec.VerifyBundle

/-!
# The vault of the MCP server

`packages/mcp-server` reads the bundle file with a loader of its own: `reviveVault` creates a vault
from the keyring and takes the lists over as they stand in the file. The file is any JSON value, so
an address in a `Set` or `Map` is any JSON value as well, or missing, and an event is whatever the
file has there.
-/

namespace EnigmaMemory

open Json

variable (P : Platform)

/-! ## Sets and maps of JSON values -/

/-- What `new Set(value ?? [])` iterates over. -/
def iterated (value : Option Json) : Except JsError (List Json) :=
  match value with
  | none | some .null => .ok []
  | some (.arr xs) => .ok xs
  | some (.str s) => .ok (characters s)
  | _ => .error (typeError (js "object is not iterable (cannot read property Symbol(Symbol.iterator))"))

/-- What `(value ?? []).map` runs over. -/
def mapped (value : Option Json) : Except JsError (List Json) :=
  match value with
  | none | some .null => .ok []
  | some (.arr xs) => .ok xs
  | _ => .error (typeError (js "map is not a function"))

/-- `map.set(key, value)`. -/
def setKey (key : Option Json) (value : Json) : List (Option Json × Json) → List (Option Json × Json)
  | [] => [(key, value)]
  | e :: rest => if strictEq e.1 key then (e.1, value) :: rest else e :: setKey key value rest

/-- `[value.memory_addr, f(value)]`. -/
def addressed (f : Json → Json) (value : Json) : Except JsError (Option Json × Json) :=
  match value with
  | .null => .error (typeError (js "Cannot read properties of null (reading 'memory_addr')"))
  | v => .ok (v.get (js "memory_addr"), f v)

/-- `new Map((values ?? []).map((value) => [value.memory_addr, f(value)]))`. -/
def mapByAddress (f : Json → Json) (values : Option Json) : Except JsError (List (Option Json × Json)) := do
  let items ← mapped values
  let pairs ← items.mapM (addressed f)
  return pairs.foldl (fun out e => setKey e.1 e.2 out) []

/-! ## `reviveVault` -/

/-- A revived vault: what `createVault` made of it, and the lists taken over from the file. -/
structure Revived where
  created : Vault
  events : List Json
  receipts : List Json
  memories : List (Option Json × Json)
  activeAddresses : List Json
  tombstones : List (Option Json × Json)
  active_set_root : JsString
  receipt_log_root : JsString

def checkBundleSchema (stored : Json) : Except JsError Unit :=
  match stored with
  | .null => .error (typeError (js "Cannot read properties of null (reading 'schema')"))
  | stored =>
    if Json.isStr (stored.get (js "schema")) BUNDLE_SCHEMA then .ok ()
    else .error ⟨.error, js "Unsupported Enigma bundle schema: " ++
      (withDefault (stored.get (js "schema")) (.str (js "<missing>"))).toText P.toNumberFormat⟩

/-- The arguments of the vault that `reviveVault` creates. -/
def reviveCreateArgs (stored : Json) : CreateArgs where
  vault_id := path (some stored) ["vault", "vault_id"]
  tenant_id := path (some stored) ["vault", "tenant_id"]
  subject_id := path (some stored) ["vault", "subject_id"]
  actor_id := path (some stored) ["vault", "actor_id"]
  policy_id := path (some stored) ["vault", "policy_id"]
  vault_key := keyArg (path (some stored) ["keyring", "vault_key_b64"])
  address_key := keyArg (path (some stored) ["keyring", "address_key_b64"])
  signingKeyPair := (stored.get (js "keyring")).bind fun keyring => restoredSigningKeyPair keyring (keyring.get (js "privateKey"))
  now := nowArg (path (some stored) ["vault", "created_at"])

/-- The created vault with the fields that the file overrides. -/
def revivedCreated (env : Ambient) (stored : Json) : Except JsError Vault := do
  let created ← createVault P env (reviveCreateArgs stored)
  let signer := path (some stored) ["keyring", "signer"]
  return { created with
    signer := if truthy signer then signer.getD created.signer else created.signer
    created_at := withDefault (path (some stored) ["vault", "created_at"]) created.created_at
    updated_at := withDefault (path (some stored) ["vault", "updated_at"]) created.updated_at
    sequence := integerOr0 (path (some stored) ["vault", "sequence"]) }

/-- `computeSetRoot(sortedStrings(addresses))`. -/
def addressSetRoot (addresses : List Json) : JsString := computeSetRoot (addresses.map (·.toText P.toNumberFormat))

def reviveVault (env : Ambient) (stored : Json) : Except JsError Revived := do
  checkBundleSchema P stored
  let created ← revivedCreated P env stored
  let memories ← mapByAddress (spreadCopy P.toNumberFormat) (stored.get (js "memory_objects"))
  let addresses ← iterated (stored.get (js "active_memory_addresses"))
  let tombstones ← mapByAddress id (stored.get (js "tombstones"))
  return {
    created, memories, tombstones
    events := asArray (stored.get (js "events"))
    receipts := asArray (stored.get (js "receipts"))
    activeAddresses := distinctValues addresses
    active_set_root := addressSetRoot P (distinctValues addresses)
    receipt_log_root := computeReceiptLogRootFrom P (asArray (stored.get (js "receipts"))) }

/-! ## Revived vaults as vaults -/

def textKey : Option Json → Option JsString
  | some (.str s) => some s
  | _ => none

/-- An entry of the event log, as `appendEvent` builds it. -/
def readEventEntry : Json → Option EventEntry
  | .obj [(k, event), (k', .str canonical), (k'', .str hash)] =>
    if [k, k', k''] = [js "event", js "canonical", js "hash"] then some ⟨event, canonical, hash⟩ else none
  | _ => none

/-- A map all of whose keys are strings. -/
def textMap (entries : List (Option Json × Json)) : Option (OrdMap JsString Json) := do
  let pairs ← entries.mapM fun e => (textKey e.1).map (·, e.2)
  return pairs.foldl (fun out e => out.set e.1 e.2) OrdMap.empty

/-- The revived vault, where its addresses are strings and its events entries of a log, as in every
file that a vault was written to. -/
def Revived.toVault (r : Revived) : Option Vault := do
  let events ← r.events.mapM readEventEntry
  let memories ← textMap r.memories
  let addresses ← r.activeAddresses.mapM fun addr => textKey (some addr)
  let tombstones ← textMap r.tombstones
  return { r.created with
    events, memories, tombstones
    receipts := r.receipts
    activeAddresses := OrdSet.ofList addresses
    roots := { r.created.roots with active_set_root := r.active_set_root, receipt_log_root := r.receipt_log_root } }

end EnigmaMemory
