import EnigmaMemory.Spec.NodeServer
import EnigmaMemory.Spec.UserStore

/-!
# The node's MCP server

`handle` (`mcp-server.mjs`): requests for tools and resources over the store of the process or one store
for each user. A request writes what it writes and then may fail; embeddings are asked for and arrive
later (`pending`).

Parameters (`Server`) are the chain, the environment, what opening a store finds in its file and what SQLite
makes of a parameter that is no text. A user id that is no text stands for its text, amounts are exact, and a
tool whose name `TOOL_SCOPES` inherits is like any other tool that does not exist.
-/

namespace EnigmaMemory.McpServer

open Cortex (SolanaClaim verifyOnChainSession plainError)

structure Auth where
  userId : Option Json
  scopes : Option Json
  solana : Option SolanaClaim

/-- `options.auth ?? { userId: undefined, scopes: ["*"] }`. -/
def authOf (auth : Option Auth) : Auth := auth.getD ⟨none, some (.arr [.str (js "*")]), none⟩

structure Request where
  method : Option Json
  params : Option Json

structure Server (V : Type) where
  platform : Platform
  chain : Cortex.Runtime Cortex.Pubkey
  web3 : Cortex.Web3
  encoding : Cortex.Encoding
  skipSessionVerification : Bool
  /-- `options.store` is given: it is the store of every user. -/
  shared : Bool
  options : UserStore.Options
  /-- `createStore({ path, dek })`, with what is in the file. -/
  createStore : JsString → Option Bytes → Except JsError (EncryptedStore V)
  /-- The key that SQLite looks for, given a parameter that is no text. -/
  bound : Option Json → Except JsError (Option JsString)
  /-- `Number(process.env.CORTEX_INITIAL_BUDGET || 0)`. -/
  initialBudget : Numeric
  capabilityKey : Bytes

/-- An embedding that has been asked for: the store and the id it is for, and the text. -/
structure Pending where
  store : Option JsString
  id : Json
  text : Option Json

structure State (V : Type) where
  /-- `options.store`, or else the store of the process. -/
  system : EncryptedStore V
  /-- `options.stores`. -/
  owners : OrdMap JsString (EncryptedStore V)
  pending : List Pending

structure Failure where
  error : JsError
  /-- `err.code`, where the server sets it. -/
  code : Option ℤ

abbrev McpM (V : Type) := EStateM Failure (State V)

variable {V : Type}

def ofExcept {α : Type} (x : Except JsError α) : McpM V α := fun s =>
  match x with
  | .ok a => .ok a s
  | .error e => .error ⟨e, none⟩ s

def failWith {α : Type} (message : JsString) (code : Option ℤ) : McpM V α := throw ⟨⟨.error, message⟩, code⟩

/-- A property of `null` or `undefined`, or a method that a value lacks. -/
def typeError : JsError := ⟨.typeError, []⟩

/-! ## Scopes -/

def TOOL_SCOPES : List (JsString × JsString) :=
  [(js "store_memory", js "memory:write"), (js "retrieve_memory", js "memory:read"), (js "search_memory", js "memory:read"),
    (js "add_memory", js "memory:write"), (js "update_memory", js "memory:write"), (js "delete_memory", js "memory:write"),
    (js "spend_budget", js "budget:spend"), (js "prove_capability", js "capability:grant")]

def memoryTemplate : JsString := js "cortex://memory/\x7buser_id\x7d"

def budgetTemplate : JsString := js "cortex://budget/\x7buser_id\x7d"

def capabilityTemplate : JsString := js "cortex://capability/\x7bmodel_id\x7d"

/-- The `uriTemplate` and `name` of `RESOURCE_TEMPLATES`. -/
def RESOURCE_TEMPLATES : List (JsString × JsString) :=
  [(memoryTemplate, js "User memories"), (budgetTemplate, js "User budget"),
    (capabilityTemplate, js "Model capability attestation")]

def RESOURCE_SCOPES : List (JsString × JsString) :=
  [(memoryTemplate, js "memory:read"), (budgetTemplate, js "budget:spend"), (capabilityTemplate, js "capability:grant")]

def hasScope (scopes : Option Json) : Option JsString → Bool
  | none => true
  | some required =>
    match scopes with
    | some (.arr xs) => xs.any (fun x => Json.isStr (some x) (js "*")) || xs.any (fun x => Json.isStr (some x) required)
    | _ => false

def authorize (auth : Auth) (required : Option JsString) : McpM V Unit :=
  if hasScope auth.scopes required then return ()
  else failWith (js "Insufficient scope: " ++ required.getD []) (some (-32002))

/-- A value as a property name or in a template string. -/
def textOf (F : NumberFormat) (value : Option Json) : JsString := (value.map (Json.toText F)).getD (js "undefined")

def authorizeTool (F : NumberFormat) (auth : Auth) (name : Option Json) : McpM V Unit :=
  authorize auth (TOOL_SCOPES.lookup (textOf F name))

def authorizeResource (auth : Auth) (template : Option JsString) : McpM V Unit :=
  authorize auth (template.bind fun t => RESOURCE_SCOPES.lookup t)

/-- `template.replace(/\{[^}]+\}/g, "")` for a template whose braces enclose names. -/
def withoutNames (inside : Bool) : JsString → JsString
  | [] => []
  | c :: rest =>
    if c = 123 then withoutNames true rest
    else if c = 125 then withoutNames false rest
    else if inside then withoutNames true rest
    else c :: withoutNames false rest

/-- `text.split("//")[0]`. -/
def beforeSlashes : JsString → JsString
  | c :: d :: rest => if c = 47 ∧ d = 47 then [] else c :: beforeSlashes (d :: rest)
  | s => s

/-- The template by which a URI is authorized. -/
def templateFor (uri : JsString) : Option JsString :=
  (RESOURCE_TEMPLATES.map Prod.fst).find? fun t =>
    let start := withoutNames false t
    decide (beforeSlashes start <+: uri ∨ start <+: uri)

/-! ## Stores -/

section

variable (S : Server V)

def openStore (owner : JsString) : Except JsError (EncryptedStore V) := do
  let dek ← UserStore.deriveDekForOwner owner S.options
  let path ← UserStore.storeFileNameForOwner owner
  S.createStore path dek

/-- `getStoreForUser`: the name of a user's store, or `none` for `options.store` and the store of the process. -/
def getStoreForUser (userId : Option Json) : McpM V (Option JsString) := fun s =>
  if S.shared || !Json.truthy userId then .ok none s
  else
    let owner := textOf S.platform.toNumberFormat userId
    if s.owners.has owner then .ok (some owner) s
    else
      match openStore S owner with
      | .ok store => .ok (some owner) { s with owners := s.owners.set owner store }
      | .error e => .error ⟨e, none⟩ s

def State.storeAt (s : State V) : Option JsString → EncryptedStore V
  | none => s.system
  | some owner => (s.owners.get owner).getD .empty

def State.setStore (s : State V) (store : EncryptedStore V) : Option JsString → State V
  | none => { s with system := store }
  | some owner => { s with owners := s.owners.set owner store }

def readStore (place : Option JsString) : McpM V (EncryptedStore V) := return (← get).storeAt place

def updateStore (place : Option JsString) (f : EncryptedStore V → Except JsError (EncryptedStore V)) : McpM V Unit := do
  let store ← ofExcept (f (← readStore place))
  modify fun s => s.setStore store place

/-- The key of `get(key)` and of a `DELETE`. -/
def keyOf : Option Json → Except JsError (Option JsString)
  | some (.str s) => .ok (some s)
  | key => S.bound key

/-! ## Tools -/

def toolReply (result : Json) : Json :=
  .obj [(js "content", .arr [.obj [(js "type", .str (js "text")), (js "text", .str (result.stringify S.platform.toNumberFormat))]])]

def okReply (id : Option Json) : Json := .obj ([(js "ok", .bool true)] ++ Json.field (js "id") id)

def storeMemory (env : Ambient) (store : Option JsString) (args : Json) : McpM V Json := do
  let id := args.get (js "id")
  updateStore store (·.put id (Node.memoryOf id (args.get (js "text")) (args.get (js "owner")) (env.clock 1)))
  return okReply id

def retrieveMemory (store : Option JsString) (args : Json) : McpM V Json := do
  let key ← ofExcept (keyOf S (args.get (js "id")))
  let memory := key.bind (← readStore store).find
  return if Json.truthy memory then memory.getD .null else .null

def rowJson (row : JsString × Json) : Json := .obj [(js "key", .str row.1), (js "value", row.2)]

def searchMemory (store : Option JsString) (args : Json) : McpM V Json := do
  let start := Json.orElse (args.get (js "prefix")) (some (.str []))
  let rows := (← readStore store).search (textOf S.platform.toNumberFormat start)
  let owner := args.get (js "owner")
  return .arr ((if Json.truthy owner then rows.filter fun row => strictEq (row.2.get (js "owner")) owner else rows).map rowJson)

def upsertMemory (env : Ambient) (store : Option JsString) (args : Json) : McpM V Json := do
  let id := args.get (js "id")
  let text := args.get (js "text")
  updateStore store (·.put id (Node.memoryOf id text (args.get (js "owner")) (env.clock 1)))
  modify fun s => { s with pending := s.pending ++ [⟨store, id.getD .null, text⟩] }
  return okReply id

def deleteMemory (store : Option JsString) (args : Json) : McpM V Json := do
  let id := args.get (js "id")
  let key ← ofExcept (keyOf S id)
  match key with
  | some key => updateStore store fun s => .ok { s.erase key with embeddings := s.embeddings.delete (toWellFormed key) }
  | none => pure ()
  return okReply id

def budgetKey (userId : JsString) : JsString := js "budget:" ++ userId

def capabilityKeyOf (modelId : JsString) : JsString := js "capability:" ++ modelId

/-- A number in JSON. -/
def numericJson : Numeric → Json
  | .finite q => .num q
  | _ => .null

/-- The record `budget:${userId}`, if it is neither missing nor `null`. -/
def storedBudget (store : EncryptedStore V) (userId : JsString) : Option Json :=
  Json.orElse (store.find (budgetKey userId)) none

def initialRecord (userId : Option Json) : Json :=
  .obj ([(js "balance", numericJson S.initialBudget), (js "spent", .num 0)] ++ Json.field (js "userId") userId)

/-- `getBudget`, as JSON. -/
def getBudget (store : EncryptedStore V) (userId : Option Json) : Json :=
  (storedBudget store (textOf S.platform.toNumberFormat userId)).getD (initialRecord S userId)

/-- `record.balance` as a number. -/
def balanceOf (store : EncryptedStore V) (userId : Option Json) : Numeric :=
  match storedBudget store (textOf S.platform.toNumberFormat userId) with
  | some record => toNumeric S.platform.toNumberFormat (record.get (js "balance"))
  | none => S.initialBudget

/-- `balance - amount`. -/
def minus : Numeric → ℚ → Numeric
  | .finite b, amount => .finite (b - amount)
  | b, _ => b

/-- `value + amount`, in JSON. -/
def plus (F : NumberFormat) (value : Option Json) (amount : ℚ) : Json :=
  match value.map (toPrimitive F) with
  | some (.str s) => .str (s ++ (Json.num amount).toText F)
  | v =>
    match toNumeric F v with
    | .finite q => .num (q + amount)
    | _ => .null

/-- A property of a record set; on an array it is not kept, and a primitive value has none. -/
def setProperty (record : Json) (key : JsString) (value : Json) : Except JsError Json :=
  match record with
  | .obj _ => .ok (record.set key value)
  | .arr _ => .ok record
  | _ => .error typeError

def amountError : JsError := ⟨.typeError, js "amount must be a positive number"⟩

def positiveAmount : Option Json → Except JsError ℚ
  | some (.num q) => if 0 < q then .ok q else .error amountError
  | _ => .error amountError

def spendBudget (store : Option JsString) (args : Json) : McpM V Json := do
  let F := S.platform.toNumberFormat
  let userId := args.get (js "user_id")
  let amount ← ofExcept (positiveAmount (args.get (js "amount")))
  let content ← readStore store
  let balance := balanceOf S content userId
  if balance.lt (.finite amount) then failWith (js "insufficient budget") (some (-32003))
  else
    let remaining := numericJson (minus balance amount)
    let record := getBudget S content userId
    let spent := plus F (record.get (js "spent")) amount
    let paid ← ofExcept (setProperty record (js "balance") remaining)
    let record ← ofExcept (setProperty paid (js "spent") spent)
    updateStore store fun s => .ok (s.write (budgetKey (textOf F userId)) record)
    return .obj [(js "ok", .bool true), (js "remaining", remaining), (js "spent", spent)]

def scopeList (F : NumberFormat) (scopes : Option Json) : Json :=
  match scopes with
  | some (.arr xs) => .arr xs
  | scopes => .arr ((words (textOf F scopes)).map .str)

def proveCapability (env : Ambient) (store : Option JsString) (args : Json) : McpM V Json := do
  let F := S.platform.toNumberFormat
  let modelId := args.get (js "model_id")
  let payload := Json.field (js "modelId") modelId ++
    [(js "scopes", scopeList F (args.get (js "scopes"))), (js "issuedAt", .num (env.clock 1))]
  let proof := S.platform.base64 (Sha256.bytes (Sha256.hmac S.capabilityKey (utf8 ((Json.obj payload).stringify F))))
  updateStore store fun s => .ok (s.write (capabilityKeyOf (textOf F modelId)) (.obj (payload ++ [(js "proof", .str proof)])))
  return .obj ([(js "ok", .bool true)] ++ Json.field (js "modelId") modelId ++ [(js "proof", .str proof)])

/-- What the tool of a name does with its arguments. -/
def toolNamed (env : Ambient) (store : Option JsString) (name : JsString) : Option (Json → McpM V Json) :=
  if name = js "store_memory" then some (storeMemory env store)
  else if name = js "retrieve_memory" then some (retrieveMemory S store)
  else if name = js "search_memory" then some (searchMemory S store)
  else if name = js "add_memory" ∨ name = js "update_memory" then some (upsertMemory env store)
  else if name = js "delete_memory" then some (deleteMemory S store)
  else if name = js "spend_budget" then some (spendBudget S store)
  else if name = js "prove_capability" then some (proveCapability S env store)
  else none

def toolOf (env : Ambient) (store : Option JsString) : Option Json → Option (Json → McpM V Json)
  | some (.str name) => toolNamed S env store name
  | _ => none

def callTool (env : Ambient) (store : Option JsString) (name : Option Json) (args : Json) : McpM V Json :=
  match toolOf S env store name, args with
  | none, _ => failWith (js "Unknown tool: " ++ textOf S.platform.toNumberFormat name) none
  | some _, .null => ofExcept (.error typeError)
  | some tool, args => do return toolReply S (← tool args)

/-! ## Resources -/

def contentOf (uri : JsString) (content : Json) : Json :=
  .obj [(js "uri", .str uri), (js "mimeType", .str (js "application/json")),
    (js "text", .str (content.stringify S.platform.toNumberFormat))]

def memoryUri : JsString := js "cortex://memory/"

def budgetUri : JsString := js "cortex://budget/"

def capabilityUri : JsString := js "cortex://capability/"

/-- What a URI has behind its start. -/
def behind (start uri : JsString) : Option JsString := if start <+: uri then some (uri.drop start.length) else none

def memoriesOf (store : EncryptedStore V) (userId : JsString) : Json :=
  .arr ((store.search []).filterMap fun row =>
    if Json.isStr (row.2.get (js "owner")) userId then some ((Json.obj [(js "id", .str row.1)]).spread row.2) else none)

def readResource (store : EncryptedStore V) (uri : JsString) : McpM V Json :=
  match behind memoryUri uri, behind budgetUri uri, behind capabilityUri uri with
  | some userId, _, _ => return contentOf S uri (memoriesOf store userId)
  | none, some userId, _ => return contentOf S uri (getBudget S store (some (.str userId)))
  | none, none, some modelId =>
    let capability := store.find (capabilityKeyOf modelId)
    if Json.truthy capability then return contentOf S uri (capability.getD .null)
    else failWith (js "capability not found") (some (-32001))
  | none, none, none => failWith (js "Unknown resource URI: " ++ uri) none

/-- The user whose store a URI is read from. -/
def resourceUser (auth : Auth) (uri : JsString) : Option Json :=
  match behind memoryUri uri, behind budgetUri uri with
  | some userId, _ => some (.str userId)
  | none, some userId => some (.str userId)
  | none, none => auth.userId

/-! ## Requests -/

def initializeReply : Json :=
  .obj [(js "protocolVersion", .str (js "2024-11-05")), (js "capabilities", .obj [(js "tools", .obj []), (js "resources", .obj [])]),
    (js "serverInfo", .obj [(js "name", .str (js "cortex-memory-node")), (js "version", .str (js "0.0.1"))])]

def typed (type : String) : Json := .obj [(js "type", .str (js type))]

def toolEntry (name description : String) (properties : List (JsString × Json)) (required : List String) : Json :=
  .obj [(js "name", .str (js name)), (js "description", .str (js description)),
    (js "inputSchema", .obj ([(js "type", .str (js "object")), (js "properties", .obj properties)] ++
      if required = [] then [] else [(js "required", .arr (required.map fun name => .str (js name)))]))]

def memoryProperties : List (JsString × Json) :=
  [(js "id", typed "string"), (js "text", typed "string"), (js "owner", typed "string")]

def TOOLS : List Json :=
  [toolEntry "store_memory" "Store a memory in the Cortex vault" memoryProperties ["id", "text", "owner"],
    toolEntry "retrieve_memory" "Retrieve a memory from the Cortex vault" [(js "id", typed "string")] ["id"],
    toolEntry "search_memory" "Search memories by key prefix or across all memories"
      [(js "prefix", typed "string"), (js "owner", typed "string")] [],
    toolEntry "add_memory" "Add a memory to the Cortex vault and index it for search" memoryProperties ["id", "text", "owner"],
    toolEntry "update_memory" "Update an existing memory in the Cortex vault" memoryProperties ["id", "text", "owner"],
    toolEntry "delete_memory" "Delete a memory from the Cortex vault" [(js "id", typed "string")] ["id"],
    toolEntry "spend_budget" "Spend budget on behalf of a user"
      [(js "user_id", typed "string"), (js "amount", typed "number")] ["user_id", "amount"],
    toolEntry "prove_capability" "Issue a capability attestation for a model"
      [(js "model_id", typed "string"), (js "scopes", .obj [(js "oneOf", .arr [typed "string",
        .obj [(js "type", .str (js "array")), (js "items", typed "string")]])])] ["model_id", "scopes"]]

def resourceList : Json :=
  .obj [(js "resources", .arr []), (js "resourceTemplates", .arr (RESOURCE_TEMPLATES.map fun t =>
    .obj [(js "uriTemplate", .str t.1), (js "name", .str t.2), (js "mimeType", .str (js "application/json"))]))]

/-- `request.params`, of which properties are read. -/
def readParams (request : Request) : Except JsError Json :=
  match request.params with
  | none | some .null => .error typeError
  | some params => .ok params

/-- `ledger` is the chain at the time of the request. -/
def verifySession (ledger : Cortex.Ledger Cortex.Pubkey) (env : Ambient) (auth : Auth) (name : Option Json) : McpM V Unit :=
  match S.skipSessionVerification, auth.solana with
  | false, some solana =>
    let action :=
      match name with
      | some (.str name) => name
      | _ => []
    ofExcept (verifyOnChainSession S.platform.toNumberFormat S.chain S.web3 S.encoding ledger solana action (env.clock 0 / 1000))
  | _, _ => return ()

def toolsCall (ledger : Cortex.Ledger Cortex.Pubkey) (env : Ambient) (auth : Auth) (request : Request) : McpM V Json := do
  let params ← ofExcept (readParams request)
  let name := params.get (js "name")
  let args := (params.get (js "arguments")).getD (.obj [])
  authorizeTool S.platform.toNumberFormat auth name
  verifySession S ledger env auth name
  let store ← getStoreForUser S auth.userId
  callTool S env store name args

def readUri (auth : Auth) (uri : JsString) : McpM V Json := do
  authorizeResource auth (templateFor uri)
  let store ← getStoreForUser S (resourceUser auth uri)
  let content ← readResource S (← readStore store) uri
  return .obj [(js "contents", .arr [content])]

/-- A value on which the methods of a text are called. -/
def readText : Option Json → Except JsError JsString
  | some (.str s) => .ok s
  | _ => .error typeError

def resourcesRead (auth : Auth) (request : Request) : McpM V Json := do
  let params ← ofExcept (readParams request)
  let uri ← ofExcept (readText (params.get (js "uri")))
  readUri S auth uri

/-- `handle(request, options)`; `none` is `undefined`. -/
def handle (ledger : Cortex.Ledger Cortex.Pubkey) (env : Ambient) (auth : Option Auth) (request : Request) : McpM V (Option Json) :=
  if Json.isStr request.method (js "initialize") then return some initializeReply
  else if Json.isStr request.method (js "notifications/initialized") then return none
  else if Json.isStr request.method (js "tools/list") then return some (.obj [(js "tools", .arr TOOLS)])
  else if Json.isStr request.method (js "tools/call") then some <$> toolsCall S ledger env (authOf auth) request
  else if Json.isStr request.method (js "resources/list") then return some resourceList
  else if Json.isStr request.method (js "resources/read") then some <$> resourcesRead S (authOf auth) request
  else failWith (js "Unknown method: " ++ textOf S.platform.toNumberFormat request.method) none

end

end EnigmaMemory.McpServer
