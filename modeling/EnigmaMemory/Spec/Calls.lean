import Mathlib.Logic.Relation
import EnigmaMemory.Spec.Bundle
import EnigmaMemory.Spec.ContextPack

/-!
# Calls on a vault

The operations of the library on one vault as one type, each call with what it sees of
the clock and of the random generator. `stepCall` is a call that succeeds. A vault may
also go on as the import of its own export (`Move`).
-/

namespace EnigmaMemory

variable (P : Platform)

inductive Call where
  | remember (env : Ambient) (args : RememberArgs)
  | recallMemory (env : Ambient) (args : RecallArgs)
  | updateMemory (env : Ambient) (args : UpdateArgs)
  | deleteMemory (env : Ambient) (args : DeleteArgs)
  | compileContextPack (env : Ambient) (args : PackArgs)
  | exportBundle (env : Ambient) (args : ExportArgs)

/-- The call without its result. -/
def Call.exec : Call → VaultM Unit
  | .remember env args => discard (EnigmaMemory.remember P env args)
  | .recallMemory env args => discard (EnigmaMemory.recallMemory P env args)
  | .updateMemory env args => discard (EnigmaMemory.updateMemory P env args)
  | .deleteMemory env args => discard (EnigmaMemory.deleteMemory P env args)
  | .compileContextPack env args => discard (EnigmaMemory.compileContextPack P env args)
  | .exportBundle env args => discard (EnigmaMemory.exportBundle P env args)

/-- The vault after a call that succeeds. -/
def stepCall (v : Vault) (c : Call) : Option Vault :=
  match c.exec P v with
  | .ok _ v' => some v'
  | .error _ _ => none

/-- The address that `remember` would store a content under. -/
def rememberTarget (v : Vault) (env : Ambient) (args : RememberArgs) (content : Json) : JsString :=
  memoryAddress P v (withDefault args.subject_id v.subject_id)
    (withDefault args.memory_id (.str (js "mem_" ++ env.uuid 0))) (prefixedSha256 (content.toText P.toNumberFormat))

/-- The address that an update would move a memory to. -/
def updateTarget (v : Vault) (args : UpdateArgs) : Option JsString :=
  match args.memory_addr, args.content with
  | some addr, some content => (v.memories.get addr).map fun record =>
      updatedAddr P v record (prefixedSha256 (content.toText P.toNumberFormat))
  | _, _ => none

/-- An update moves its memory to an address that is neither the current one nor
tombstoned. -/
def Call.Fresh (v : Vault) : Call → Prop
  | .updateMemory _ args => ∀ target, updateTarget P v args = some target →
      args.memory_addr ≠ some target ∧ v.tombstones.has target = false
  | _ => True

/-- A recall does not name its own event a deletion. -/
def Call.Plain : Call → Prop
  | .recallMemory _ args => args.operation ≠ some (.str (js "delete"))
  | _ => True

/-! ## Reachable vaults -/

/-- A successful operation: a call, or the import of the vault's own export. -/
inductive Move : Vault → Vault → Prop
  | call {v v' : Vault} {c : Call} : stepCall P v c = some v' → Move v v'
  | transfer {v v' : Vault} {env env' : Ambient} {args : ExportArgs} {args' : ImportArgs} {bundle : Bundle}
      {imported : Imported} : EnigmaMemory.exportBundle P env args v = .ok bundle v' →
      importBundle P env' args' bundle = .ok imported → Move v imported.vault

/-- A vault that successful operations lead to. -/
def Reachable (v : Vault) : Prop :=
  ∃ env args v₀, createVault P env args = .ok v₀ ∧ Relation.ReflTransGen (Move P) v₀ v

/-! ## Operations -/

/-- A call, or the import of the vault's own export in its place. -/
inductive Operation where
  | call (c : Call)
  | transfer (env : Ambient) (args : ExportArgs) (env' : Ambient) (args' : ImportArgs)

/-- The vault after an operation that succeeds. -/
def stepOperation (v : Vault) : Operation → Option Vault
  | .call c => stepCall P v c
  | .transfer env args env' args' =>
    match EnigmaMemory.exportBundle P env args v with
    | .ok bundle _ =>
      match importBundle P env' args' bundle with
      | .ok imported => some imported.vault
      | .error _ => none
    | .error _ _ => none

end EnigmaMemory
