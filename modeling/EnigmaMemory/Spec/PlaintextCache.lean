import EnigmaMemory.Spec.Calls

/-!
# Cached plaintexts

`decryptContent` leaves the plaintext in a hidden property of the record (`setPlaintextCache`)
and takes it from there the next time. The property belongs to the record object: a record
that replaces another one does not have it, `deleteMemory` removes it, and neither
`publicRecord` nor an export copies it. A `CachedVault` is a vault with the plaintexts that
the records under its addresses hold.

`History` is a run of successful operations on such a vault, with the list of the addresses
that `remember` and `updateMemory` produced on the way and the contents they were given.
-/

namespace EnigmaMemory

open Json

variable (P : Platform)

structure CachedVault where
  vault : Vault
  plaintexts : OrdMap JsString JsString

/-- A call on a vault with cached plaintexts. -/
abbrev CachedM := EStateM JsError CachedVault

/-- A call that reads and writes no cached plaintext. -/
def onVault {α : Type} (m : VaultM α) : CachedM α := fun s =>
  match m s.vault with
  | .ok a v => .ok a { s with vault := v }
  | .error e v => .error e { s with vault := v }

/-- The record at an address has been replaced, or its plaintext deleted. -/
def forgetPlaintext (addr : JsString) : CachedM Unit := modify fun s => { s with plaintexts := s.plaintexts.delete addr }

/-- `decryptContent(vault, record)` for the record at an address. -/
def readContent (addr : JsString) (record : Json) : CachedM JsString := fun s =>
  match s.plaintexts.get addr with
  | some plaintext => .ok plaintext s
  | none =>
    match decryptContent P s.vault record with
    | .ok plaintext => .ok plaintext { s with plaintexts := s.plaintexts.set addr plaintext }
    | .error e => .error e s

/-- The event of a recall. -/
def recallEvent (args : RecallArgs) (memoryAddr : JsString) (record : Json) : EventFields where
  operation := withDefault args.operation (.str (js "read"))
  memory_addr := some (.str memoryAddr)
  provider := args.provider
  model := args.model
  purpose := args.purpose
  actor_id := args.actor_id
  policy_id := args.policy_id
  now := args.now
  metadata := some (.obj (Json.field (js "kind") (record.get (js "kind"))
    ++ Json.field (js "sensitivity") (record.get (js "sensitivity"))))

/-- `recall(vault, …)` with the cache. -/
def recallCached (env : Ambient) (args : RecallArgs) : CachedM Recalled := do
  let vault := (← get).vault
  let memoryAddr ← onVault (ofExcept (requiredAddr args.memory_addr "recall requires memory_addr"))
  onVault (refuse (vault.tombstones.has memoryAddr) (js "memory is tombstoned: " ++ memoryAddr))
  onVault (refuse (!vault.activeAddresses.has memoryAddr) (js "memory is not active: " ++ memoryAddr))
  onVault (refuse (!isActive (vault.memories.get memoryAddr)) (js "memory is not active: " ++ memoryAddr))
  let record := (vault.memories.get memoryAddr).getD .null
  let plaintext ← readContent P memoryAddr record
  let entry ← onVault (appendEvent P env (recallEvent args memoryAddr record))
  return ⟨(publicRecord P.toNumberFormat record).set (js "content") (.str plaintext), memoryAddr, plaintext,
    entry.event.event, entry.receipt⟩

/-- The loop over the addresses of a context pack, with the cache. -/
def packMemoriesCached (args : PackArgs) (packId : Json) : Ambient → List JsString → CachedM (List Packed)
  | _, [] => return []
  | env, addr :: rest => do
    let vault := (← get).vault
    let record := (vault.memories.get addr).getD .null
    let content ← readContent P addr record
    let retrieval ← onVault (appendEvent P env (packEvent args "retrieve" packId addr record))
    let injection ← onVault (appendEvent P (env.drop 1) (packEvent args "inject" packId addr record))
    let packed ← packMemoriesCached args packId (env.drop 2) rest
    return ⟨publicMemory P record content, retrieval.receipt, injection.receipt⟩ :: packed

/-- `compileContextPack` with the cache, as far as it changes the vault. -/
def compileContextPackCached (env : Ambient) (args : PackArgs) : CachedM (List Packed) := do
  let vault := (← get).vault
  let _ ← onVault (ofExcept (passportId P env args))
  let limit ← onVault (ofExcept (packLimit P args))
  let selection ← onVault (ofExcept (packSelection args vault limit))
  onVault (rejectInvalid (selection.1.flatMap (selectionErrors vault)))
  let packId := withDefault args.context_pack_id (.str (js "ctx_" ++ env.uuid 1))
  let generatedAt ← onVault (ofExcept (nowIso P (env.clock 1) args.now))
  let packed ← packMemoriesCached P args packId (env.drop 2) selection.1
  let _ ← onVault (ofExcept (optimizationReceipts args selection.2 generatedAt))
  return packed

/-- What a call does when it succeeds. -/
def Call.execCached : Call → CachedM Unit
  | .remember env args => do
    let stored ← onVault (EnigmaMemory.remember P env args)
    forgetPlaintext stored.memory_addr
  | .recallMemory env args => discard (recallCached P env args)
  | .updateMemory env args => do
    let updated ← onVault (EnigmaMemory.updateMemory P env args)
    forgetPlaintext updated.stored.memory_addr
  | .deleteMemory env args => do
    let deleted ← onVault (EnigmaMemory.deleteMemory P env args)
    forgetPlaintext deleted.memory_addr
  | .compileContextPack env args => discard (compileContextPackCached P env args)
  | .exportBundle env args => discard (onVault (EnigmaMemory.exportBundle P env args))

def stepCached (s : CachedVault) (c : Call) : Option CachedVault :=
  match c.execCached P s with
  | .ok _ s' => some s'
  | .error _ _ => none

/-! ## Productions -/

/-- An address with the call that produced it: the identity of the memory and the content. -/
structure Production where
  memory_addr : JsString
  subject_id : Json
  memory_id : Json
  content : Json

/-- `String(content)`. -/
def Production.text (p : Production) : JsString := p.content.toText P.toNumberFormat

/-- The addresses that a successful call produces. -/
def productions (v : Vault) : Call → List Production
  | .remember env args =>
    match args.content with
    | some content => [⟨rememberTarget P v env args content, withDefault args.subject_id v.subject_id,
        withDefault args.memory_id (.str (js "mem_" ++ env.uuid 0)), content⟩]
    | none => []
  | .updateMemory _ args =>
    match args.memory_addr.bind v.memories.get, args.content with
    | some record, some content => [⟨updatedAddr P v record (prefixedSha256 (content.toText P.toNumberFormat)),
        (record.get (js "subject_id")).getD .null, (record.get (js "memory_id")).getD .null, content⟩]
    | _, _ => []
  | _ => []

/-- The vaults that successful operations lead to: calls, and imports of the vault's own
export, with or without passphrases. -/
inductive History : CachedVault → List Production → Prop
  | create {env : Ambient} {args : CreateArgs} {v : Vault} : createVault P env args = .ok v →
      History ⟨v, OrdMap.empty⟩ []
  | call {s s' : CachedVault} {log : List Production} {c : Call} : History s log → stepCached P s c = some s' →
      History s' (log ++ productions P s.vault c)
  | transfer {s : CachedVault} {v' : Vault} {log : List Production} {env env' : Ambient} {args : ExportArgs}
      {args' : ImportArgs} {bundle : Bundle} {imported : Imported} : History s log →
      exportBundle P env args s.vault = .ok bundle v' → importBundle P env' args' bundle = .ok imported →
      History ⟨imported.vault, OrdMap.empty⟩ log

end EnigmaMemory
