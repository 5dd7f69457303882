import EnigmaMemory.Spec.Vault

/-!
# Context packs

`compileContextPack` of `packages/passport`: the memories selected for a model, with two
receipts for each of them. The optimizer that may choose the memories is a parameter:
whatever it selects is checked against the vault afterwards.
-/

namespace EnigmaMemory

open Json

variable (P : Platform)

/-- The names of plaintext keys of `packages/passport`. -/
def passportPlaintextKeys : List JsString :=
  [js "body", js "content", js "context", js "contexttext", js "memory", js "memories", js "plain", js "plaintext",
    js "prompt", js "raw", js "rawmemory", js "rawmemories", js "response", js "text"]

/-- The optimizer: a selection from the candidates with its plan, and the access receipts
of a plan. -/
structure Optimizer where
  select : List JsString → ℕ → Except JsError (List JsString × Json)
  accessReceipts : Json → JsString → Except JsError (List Json)

structure PackArgs where
  /-- `passport.passport_id` of a given passport. -/
  passport : Option Json := none
  memory_addresses : Option (List JsString) := none
  limit : Option Json := none
  optimizer : Option Optimizer := none
  context_pack_id : Option Json := none
  provider : Option Json := none
  model : Option Json := none
  purpose : Option Json := none
  query : Option Json := none
  actor_id : Option Json := none
  policy_id : Option Json := none
  now : Now := .absent

structure ContextPack where
  context_pack_id : Json
  passport_id : Json
  generated_at : JsString
  provider : Json
  model : Json
  purpose : Json
  query : Json
  memory_addresses : List JsString
  memories : List Json
  retrieval_receipts : List Json
  injection_receipts : List Json
  active_set_root : JsString
  receipt_log_root : JsString
  receipt_hashes : List JsString
  optimization_plan : Json
  optimization_receipts : List Json

def publicMemory (record : Json) (content : JsString) : Json :=
  .obj (Json.field (js "memory_addr") (record.get (js "memory_addr"))
    ++ Json.field (js "memory_id") (record.get (js "memory_id"))
    ++ Json.field (js "subject_id") (record.get (js "subject_id"))
    ++ Json.field (js "kind") (record.get (js "kind"))
    ++ Json.field (js "sensitivity") (record.get (js "sensitivity"))
    ++ [(js "purpose_tags", withDefault (record.get (js "purpose_tags")) (.arr [])),
      (js "source_refs", .arr (sanitizeSourceRefs P.toNumberFormat passportPlaintextKeys (record.get (js "source_refs"))))]
    ++ Json.field (js "confidence") (record.get (js "confidence"))
    ++ [(js "content", .str content)])

/-- The `limit` of a pack. -/
def packLimit (args : PackArgs) : Except JsError ℕ :=
  match Json.natural? ((P.toNumber (withDefault args.limit (.num 12))).map Json.num) with
  | some n => .ok n
  | none => .error ⟨.error, js "compileContextPack limit must be a non-negative integer"⟩

/-- The addresses chosen for the pack, and the plan of the optimizer. -/
def packSelection (args : PackArgs) (vault : Vault) (limit : ℕ) : Except JsError (List JsString × Json) :=
  let candidates := args.memory_addresses.getD vault.activeAddresses.elems
  match args.optimizer with
  | none => .ok (candidates.take limit, .null)
  | some optimizer => optimizer.select candidates limit

/-- What is wrong with a selected address. -/
def selectionErrors (vault : Vault) (addr : JsString) : List JsString :=
  (if vault.tombstones.has addr then [js "memory is tombstoned: " ++ addr] else [])
    ++ (if vault.activeAddresses.has addr then [] else [js "memory is absent from active state: " ++ addr])
    ++ (if isActive (vault.memories.get addr) then [] else [js "memory record is not active: " ++ addr])

/-- `errors.join('; ')`. -/
def joinErrors : List JsString → JsString
  | [] => []
  | [e] => e
  | e :: rest => e ++ js "; " ++ joinErrors rest

def rejectInvalid (errors : List JsString) : VaultM Unit :=
  refuse (!errors.isEmpty) (js "context pack verification failed: " ++ joinErrors errors)

/-- The event of one access to a memory of the pack. -/
def packEvent (args : PackArgs) (operation : String) (packId : Json) (addr : JsString) (record : Json) : EventFields where
  operation := .str (js operation)
  memory_addr := some (.str addr)
  provider := args.provider
  model := args.model
  purpose := args.purpose
  actor_id := args.actor_id
  policy_id := args.policy_id
  now := args.now
  metadata := some (.obj ([(js "context_pack_id", packId)] ++ Json.field (js "kind") (record.get (js "kind"))
    ++ Json.field (js "sensitivity") (record.get (js "sensitivity"))))

/-- A memory of the pack with its retrieval and its injection receipt. -/
structure Packed where
  memory : Json
  retrieval : Json
  injection : Json

/-- The loop over the selected addresses. -/
def packMemories (args : PackArgs) (packId : Json) : Ambient → List JsString → VaultM (List Packed)
  | _, [] => return []
  | env, addr :: rest => do
    let vault ← get
    let record := (vault.memories.get addr).getD .null
    let content ← ofExcept (decryptContent P vault record)
    let retrieval ← appendEvent P env (packEvent args "retrieve" packId addr record)
    let injection ← appendEvent P (env.drop 1) (packEvent args "inject" packId addr record)
    let packed ← packMemories args packId (env.drop 2) rest
    return ⟨publicMemory P record content, retrieval.receipt, injection.receipt⟩ :: packed

def passportId (env : Ambient) (args : PackArgs) : Except JsError Json :=
  match args.passport with
  | some id => .ok id
  | none => do
    -- `createPassport` reads the clock for its own dates
    let _ ← nowIso P (env.clock 0) args.now
    return .str (js "passport_" ++ env.uuid 0)

def optimizationReceipts (args : PackArgs) (plan : Json) (generatedAt : JsString) : Except JsError (List Json) :=
  match args.optimizer with
  | none => .ok []
  | some optimizer => optimizer.accessReceipts plan generatedAt

def compileContextPack (env : Ambient) (args : PackArgs) : VaultM ContextPack := do
  let vault ← get
  let passport ← ofExcept (passportId P env args)
  let limit ← ofExcept (packLimit P args)
  let selection ← ofExcept (packSelection args vault limit)
  rejectInvalid (selection.1.flatMap (selectionErrors vault))
  let packId := withDefault args.context_pack_id (.str (js "ctx_" ++ env.uuid 1))
  let generatedAt ← ofExcept (nowIso P (env.clock 1) args.now)
  let packed ← packMemories P args packId (env.drop 2) selection.1
  let accessReceipts ← ofExcept (optimizationReceipts args selection.2 generatedAt)
  let roots := lifecycleRoots P (← get)
  let receipts := packed.map Packed.retrieval ++ packed.map Packed.injection
  return {
    context_pack_id := packId
    passport_id := passport
    generated_at := generatedAt
    provider := withDefault args.provider (.str (js "local"))
    model := withDefault args.model (.str (js "local"))
    purpose := withDefault args.purpose (.str (js "context_injection"))
    query := withDefault args.query (.str [])
    memory_addresses := selection.1
    memories := packed.map Packed.memory
    retrieval_receipts := packed.map Packed.retrieval
    injection_receipts := packed.map Packed.injection
    active_set_root := roots.active_set_root
    receipt_log_root := roots.receipt_log_root
    receipt_hashes := receipts.map (receiptHash P)
    optimization_plan := selection.2
    optimization_receipts := accessReceipts }

end EnigmaMemory
