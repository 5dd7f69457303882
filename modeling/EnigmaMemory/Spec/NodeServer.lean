import EnigmaMemory.Lib.Result
import EnigmaMemory.Spec.NodeSession
import EnigmaMemory.Spec.OAuthServer

/-!
# The node's HTTP server

`startServer` (`server.mjs`): the OAuth endpoints and the endpoints for memories, over a system store
and one store for each owner that a request names. A request is handled step by step and may fail in
between; what has been written by then stays. What it reads and writes is recorded (`Access`).

Parameters (`Server`) are the chain, the embedder with the ranking of results, what an owner's store
holds when it is opened, and which memories the auto-save engine takes from a turn. Two owner texts
with one file, and their keys, are not seen here.
-/

namespace EnigmaMemory.Node

open Cortex (SolanaClaim verifyOnChainSession)

/-! ## Requests -/

structure HttpRequest where
  method : JsString
  pathname : JsString
  /-- `url.searchParams`. -/
  params : Params
  /-- `req.headers[name]`. -/
  header : String → Option JsString
  /-- What `readBody` gives; `none` is an error. -/
  body : Option JsString
  baseUrl : JsString

structure OwnerAuth where
  userId : JsString
  solana : SolanaClaim

def authFromRequest (req : HttpRequest) : Option OwnerAuth :=
  let owner := req.header "x-cortex-owner"
  let sessionKey := req.header "x-cortex-session-key"
  if !present owner || !present sessionKey then none
  else some
    { userId := owner.getD []
      solana :=
        { owner := owner.map .str
          sessionKey := sessionKey.map .str
          nonce := (req.header "x-cortex-nonce").map .str
          capabilityScope := (req.header "x-cortex-capability-scope").map .str
          grantedTo := (req.header "x-cortex-granted-to").map .str
          capabilityPda := (req.header "x-cortex-capability-pda").map .str
          sessionPda := (req.header "x-cortex-session-pda").map .str } }

def actionForEndpoint (method pathname : JsString) : Option JsString :=
  if method = js "POST" ∧ (pathname = js "/ingest" ∨ pathname = js "/auto-save") then some (js "store_memory")
  else if method = js "GET" ∧ js "/retrieve/" <+: pathname ∨ pathname = js "/search" ∨
      method = js "POST" ∧ pathname = js "/search" then some (js "retrieve_memory")
  else none

def isOAuthRoute (pathname : JsString) : Bool :=
  decide (pathname ∈ [js "/.well-known/oauth-authorization-server", js "/.well-known/oauth-protected-resource",
    js "/oauth/authorize", js "/oauth/token", js "/oauth/introspect"])

/-! ## The server -/

structure Server (V : Type) where
  platform : Platform
  chain : Cortex.Runtime Cortex.Pubkey
  web3 : Cortex.Web3
  encoding : Cortex.Encoding
  skipSessionVerification : Bool
  /-- `options.store` is given: it is the system store and the store of every owner. -/
  shared : Bool
  isUrl : JsString → Bool
  /-- `new URLSearchParams(body)`. -/
  formOf : JsString → Params
  embedder : Json → Except JsError V
  /-- The scores and keys of the best embeddings for a query. -/
  rank : V → List (JsString × V) → List (Json × JsString)
  /-- The memories, with their ids, that the auto-save engine takes from a turn, and its report. -/
  saves : Json → List (JsString × Json)
  report : Json → Json
  /-- What the store of an owner holds when it is opened. -/
  disk : JsString → EncryptedStore V

structure NodeState (V : Type) where
  system : EncryptedStore V
  /-- `options.stores`. -/
  owners : OrdMap JsString (EncryptedStore V)

/-- What a request did: a session that was found valid, or a use of a store (that of an owner, or the
system store). -/
inductive Access where
  | verified (solana : SolanaClaim) (action : JsString)
  | store (owner : Option JsString)

structure Handling (V : Type) where
  node : NodeState V
  log : List Access

abbrev NodeM (V : Type) := EStateM JsError (Handling V)

variable {V : Type}

def ofExcept {α : Type} (x : Except JsError α) : NodeM V α := fun s =>
  match x with
  | .ok a => .ok a s
  | .error e => .error e s

def record (a : Access) : NodeM V Unit := modify fun s => { s with log := s.log ++ [a] }

section

variable (S : Server V)

/-- The store behind what a handler holds: an owner's, or with `none` the system store. -/
def NodeState.storeAt (n : NodeState V) : Option JsString → EncryptedStore V
  | none => n.system
  | some owner => if S.shared then n.system else (n.owners.get owner).getD (S.disk owner)

def NodeState.setStore (n : NodeState V) (store : EncryptedStore V) : Option JsString → NodeState V
  | none => { n with system := store }
  | some owner => if S.shared then { n with system := store } else { n with owners := n.owners.set owner store }

def readStore (owner : Option JsString) : NodeM V (EncryptedStore V) := do
  record (.store owner)
  return (← get).node.storeAt S owner

def updateStore (owner : Option JsString) (f : EncryptedStore V → Except JsError (EncryptedStore V)) : NodeM V Unit := do
  let store ← ofExcept (f ((← get).node.storeAt S owner))
  record (.store owner)
  modify fun s => { s with node := s.node.setStore S store owner }

/-- `storeFileNameForOwner(owner)` finds a name. -/
def hasStoreFile (owner : JsString) : Bool := decide ((trim owner).length ≠ 0 ∧ (trim owner).length ≤ 256)

def ownerError : JsError := ⟨.typeError, js "owner must be between 1 and 256 characters"⟩

def getStoreForOwner (owner : JsString) : NodeM V (Option JsString) := fun s =>
  if S.shared ∨ s.node.owners.has owner then .ok (some owner) s
  else if hasStoreFile owner then
    .ok (some owner) { s with node := { s.node with owners := s.node.owners.set owner (S.disk owner) } }
  else .error ownerError s

/-- `auth?.userId ? getStoreForOwner(auth.userId, options) : systemStore`. -/
def storeFor (auth : Option OwnerAuth) : NodeM V (Option JsString) :=
  match auth with
  | some a => getStoreForOwner S a.userId
  | none => pure none

/-- `ledger` is the chain at the time of the request. -/
def maybeVerifySession (ledger : Cortex.Ledger Cortex.Pubkey) (env : Ambient) (req : HttpRequest) : NodeM V Unit :=
  if S.skipSessionVerification then pure ()
  else
    match authFromRequest req, actionForEndpoint req.method req.pathname with
    | some auth, some action => do
      ofExcept (verifyOnChainSession S.platform.toNumberFormat S.chain S.web3 S.encoding ledger auth.solana action (env.clock 0 / 1000))
      record (.verified auth.solana action)
    | _, _ => pure ()

/-! ## Bodies -/

def nodeError : JsError := ⟨.typeError, []⟩

/-- `const { … } = JSON.parse(await readBody(req))`. -/
def readFields (req : HttpRequest) : NodeM V Json := do
  let body ← ofExcept (Cortex.orThrow req.body nodeError)
  let value ← ofExcept (S.platform.parseJson body)
  match value with
  | .null => throw nodeError
  | value => return value

def missing (what : String) : Reply := .json 400 (.obj [(js "error", .str (js what))])

/-- What is done in a `try` whose exception is only logged. -/
def attempt (x : NodeM V Unit) : NodeM V Unit := fun s => .ok () (EStateM.after x s)

/-- The embedding of a text that has been stored. -/
def embedStored (owner : Option JsString) (key text : Json) : NodeM V Unit :=
  attempt do
    let vector ← ofExcept (S.embedder text)
    updateStore S owner (·.putEmbedding (some key) vector)

/-! ## Endpoints -/

def memoryOf (id text owner : Option Json) (createdAt : ℤ) : Json :=
  .obj (Json.field (js "id") id ++ Json.field (js "text") text ++ Json.field (js "owner") owner ++
    [(js "createdAt", .num createdAt)])

def ingest (ledger : Cortex.Ledger Cortex.Pubkey) (env : Ambient) (req : HttpRequest) : NodeM V Reply := do
  maybeVerifySession S ledger env req
  let fields ← readFields S req
  let id := fields.get (js "id")
  let text := fields.get (js "text")
  let owner := fields.get (js "owner")
  if !Json.truthy id || !Json.truthy text || !Json.truthy owner then return missing "missing fields"
  else
    let store ← storeFor S (authFromRequest req)
    updateStore S store (·.put id (memoryOf id text owner (env.clock 1)))
    embedStored S store (id.getD .null) (text.getD .null)
    return .json 201 (.obj ([(js "ok", .bool true)] ++ Json.field (js "id") id))

def retrieve (ledger : Cortex.Ledger Cortex.Pubkey) (env : Ambient) (req : HttpRequest) : NodeM V Reply := do
  maybeVerifySession S ledger env req
  let store ← storeFor S (authFromRequest req)
  match (← readStore S store).find (req.pathname.drop (js "/retrieve/").length) with
  | some memory =>
    if Json.truthy (some memory) then return .json 200 memory
    else return .json 404 (.obj [(js "error", .str (js "not found"))])
  | none => return .json 404 (.obj [(js "error", .str (js "not found"))])

def semanticSearch (store : Option JsString) (query : Json) : NodeM V Json := do
  let queryVector ← ofExcept (S.embedder query)
  let content ← readStore S store
  return .arr ((S.rank queryVector content.embeddings.entries).map fun r =>
    .obj ([(js "score", r.1)] ++ Json.field (js "memory") (content.find r.2)))

/-- The part of the two searches after the query has been read. -/
def searchFor (req : HttpRequest) (query : Option Json) : NodeM V Reply := do
  if !Json.truthy query then return missing "missing query"
  else
    let store ← storeFor S (authFromRequest req)
    let results ← semanticSearch S store (query.getD .null)
    return .json 200 (.obj (Json.field (js "query") query ++ [(js "results", results)]))

def searchQuery (ledger : Cortex.Ledger Cortex.Pubkey) (env : Ambient) (req : HttpRequest) : NodeM V Reply := do
  maybeVerifySession S ledger env req
  let query := req.params.get "query"
  searchFor S req ((if present query then query else req.params.get "q").map .str)

def searchBody (ledger : Cortex.Ledger Cortex.Pubkey) (env : Ambient) (req : HttpRequest) : NodeM V Reply := do
  maybeVerifySession S ledger env req
  let fields ← readFields S req
  searchFor S req (fields.get (js "query"))

def memoryKey (owner id : JsString) : JsString := js "memory:" ++ owner ++ 58 :: id

/-- `addMemory`, for a memory that the engine takes. -/
def addMemory (store : Option JsString) (owner : JsString) (memory : JsString × Json) : NodeM V Unit := do
  let key := memoryKey owner memory.1
  updateStore S store (·.put (some (.str key)) memory.2)
  embedStored S store (.str key) ((memory.2.get (js "text")).getD .null)

def processTurn (store : Option JsString) (turn : Json) : NodeM V Json :=
  match turn.get (js "owner") with
  | some (.str owner) => do
    (S.saves turn).forM (addMemory S store owner)
    return S.report turn
  | _ => throw ⟨.typeError, js "turn.owner is required"⟩

def autoSave (ledger : Cortex.Ledger Cortex.Pubkey) (env : Ambient) (req : HttpRequest) : NodeM V Reply := do
  maybeVerifySession S ledger env req
  let fields ← readFields S req
  let text := fields.get (js "text")
  let owner := fields.get (js "owner")
  if !Json.truthy text || !Json.truthy owner then return missing "missing fields"
  else
    let store ← storeFor S (authFromRequest req)
    let result ← processTurn S store (.obj (Json.field (js "text") text ++ Json.field (js "owner") owner ++
      Json.field (js "tags") (fields.get (js "tags")) ++ Json.field (js "turnId") (fields.get (js "turnId"))))
    return .json 200 result

/-- `GET /search/<prefix>`. -/
def searchPrefix (req : HttpRequest) : NodeM V Reply := do
  let store ← storeFor S (authFromRequest req)
  let content ← readStore S store
  return .json 200 (.arr ((content.search (req.pathname.drop (js "/search/").length)).map fun row =>
    .obj [(js "key", .str row.1), (js "value", row.2)]))

/-! ## OAuth -/

def oauthMetadata (req : HttpRequest) : Json :=
  .obj [(js "issuer", .str req.baseUrl), (js "authorization_endpoint", .str (req.baseUrl ++ js "/oauth/authorize")),
    (js "token_endpoint", .str (req.baseUrl ++ js "/oauth/token")),
    (js "introspection_endpoint", .str (req.baseUrl ++ js "/oauth/introspect")),
    (js "response_types_supported", .arr [.str (js "code")]), (js "response_modes_supported", .arr [.str (js "query")]),
    (js "grant_types_supported", .arr [.str (js "authorization_code")]),
    (js "token_endpoint_auth_methods_supported", .arr [.str (js "none")]),
    (js "code_challenge_methods_supported", .arr [.str (js "S256"), .str (js "plain")]),
    (js "scopes_supported", .arr (OAuth.ALLOWED_SCOPES.map .str))]

def resourceMetadata (req : HttpRequest) : Json :=
  .obj [(js "resource", .str req.baseUrl), (js "authorization_servers", .arr [.str req.baseUrl]),
    (js "scopes_supported", .arr (OAuth.ALLOWED_SCOPES.map .str)), (js "bearer_methods_supported", .arr [.str (js "header")])]

/-- A handler of `oauth-server.mjs` on the system store. -/
def onSystem (f : EncryptedStore V → Reply × EncryptedStore V) : NodeM V Reply := do
  record (.store none)
  let (reply, store) := f (← get).node.system
  modify fun s => { s with node := { s.node with system := store } }
  return reply

def notFound : Reply := .json 404 (.obj [(js "error", .str (js "not found"))])

def handleOAuthRequest (env : Ambient) (req : HttpRequest) : NodeM V Reply :=
  if req.method = js "GET" ∧ req.pathname = js "/.well-known/oauth-authorization-server" then
    return .json 200 (oauthMetadata req)
  else if req.method = js "GET" ∧ req.pathname = js "/.well-known/oauth-protected-resource" then
    return .json 200 (resourceMetadata req)
  else if req.method = js "GET" ∧ req.pathname = js "/oauth/authorize" then
    onSystem fun store => OAuth.handleAuthorize S.isUrl env store req.params
  else if req.method = js "POST" ∧ req.pathname = js "/oauth/token" then
    match req.body with
    | some body => onSystem fun store => OAuth.handleToken S.platform.toNumberFormat env store (S.formOf body)
    | none => return .thrown
  else if req.method = js "GET" ∧ req.pathname = js "/oauth/introspect" then
    onSystem fun store => (OAuth.handleIntrospect S.platform.toNumberFormat env store req.params, store)
  else return notFound

/-! ## Routing -/

/-- A handler in its `try`. -/
def caught (x : NodeM V Reply) : NodeM V Reply := fun s =>
  match x s with
  | .ok reply t => .ok reply t
  | .error e t => .ok (.json 400 (.obj [(js "error", .str e.message)])) t

def route (ledger : Cortex.Ledger Cortex.Pubkey) (env : Ambient) (req : HttpRequest) : NodeM V Reply :=
  if isOAuthRoute req.pathname then handleOAuthRequest S env req
  else if req.method = js "GET" ∧ req.pathname = js "/health" then return .json 200 (.obj [(js "status", .str (js "ok"))])
  else if req.method = js "POST" ∧ req.pathname = js "/ingest" then caught (ingest S ledger env req)
  else if req.method = js "GET" ∧ js "/retrieve/" <+: req.pathname then caught (retrieve S ledger env req)
  else if req.method = js "GET" ∧ req.pathname = js "/search" then caught (searchQuery S ledger env req)
  else if req.method = js "POST" ∧ req.pathname = js "/search" then caught (searchBody S ledger env req)
  else if req.method = js "POST" ∧ req.pathname = js "/auto-save" then caught (autoSave S ledger env req)
  else if req.method = js "GET" ∧ js "/search/" <+: req.pathname then searchPrefix S req
  else return notFound

/-- The reply to a request (`thrown` after an exception that nobody catches), the node it leaves behind,
and what it did. -/
def serve (ledger : Cortex.Ledger Cortex.Pubkey) (env : Ambient) (req : HttpRequest) (n : NodeState V) :
    Reply × NodeState V × List Access :=
  match route S ledger env req ⟨n, []⟩ with
  | .ok reply t => (reply, t.node, t.log)
  | .error _ t => (.thrown, t.node, t.log)

end

end EnigmaMemory.Node
