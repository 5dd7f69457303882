import EnigmaMemory.Spec.Numeric
import EnigmaMemory.Spec.Sanitize

/-!
# The JSON-RPC server

The request handler of the MCP server (`packages/mcp-server`): one request or a batch of them in,
one response, a batch of responses or nothing out. What a tool does is a parameter: a tool acts on
a state of its own (the files) and returns or throws as it likes, and so do the check of its
arguments and the reader of the passport summary.
-/

namespace EnigmaMemory.JsonRpc

open Json

def JSONRPC_VERSION : JsString := js "2.0"

def MCP_PROTOCOL_VERSION : JsString := js "2024-11-05"

def PASSPORT_SUMMARY_RESOURCE_URI : JsString := js "enigma://passport/summary"

def STANDARD_MEMORY_PROMPT_NAME : JsString := js "enigma_standard_memory_prompt"

def INVALID_REQUEST : ℤ := -32600

def METHOD_NOT_FOUND : ℤ := -32601

def INVALID_PARAMS : ℤ := -32602

def INTERNAL_ERROR : ℤ := -32603

/-! ## What a request may throw -/

inductive Failure where
  /-- A `JsonRpcProtocolError`. -/
  | protocol (code : ℤ) (message : JsString) (data : Option Json)
  /-- Any other error, known by its name. -/
  | other (name : JsString)

def invalidParams (message : String) (data : Option Json) : Failure := .protocol INVALID_PARAMS (js message) data

/-- `if (p) throw invalidParams(message)`. -/
def rejectIf (p : Prop) [Decidable p] (message : String) : Except Failure Unit :=
  if p then .error (invalidParams message none) else .ok ()

/-! ## Ids -/

/-- `[A-Za-z0-9._:-]`. -/
def isIdUnit (c : CodeUnit) : Bool :=
  isLowerUnit c || isUpperUnit c || isDigitUnit c || c == 46 || c == 95 || c == 58 || c == 45

def MAX_SAFE_INTEGER : ℤ := 9007199254740991

def isValidJsonRpcId : Json → Bool
  | .null => true
  | .str s => decide (1 ≤ s.length ∧ s.length ≤ 128) && s.all isIdUnit
  | .num q => decide (q.den = 1 ∧ -MAX_SAFE_INTEGER ≤ q.num ∧ q.num ≤ MAX_SAFE_INTEGER)
  | _ => false

/-! ## Responses -/

def jsonRpcResult (id result : Json) : Json :=
  .obj [(js "jsonrpc", .str JSONRPC_VERSION), (js "id", id), (js "result", result)]

def jsonRpcError (id : Json) (code : ℤ) (message : JsString) (data : Option Json) : Json :=
  .obj [(js "jsonrpc", .str JSONRPC_VERSION), (js "id", id),
    (js "error", .obj ([(js "code", .num code), (js "message", .str message)] ++ field (js "data") data))]

/-! ## Checks of the parameters -/

def ensureParamsObject (params : Option Json) (method : String) : Except Failure Json :=
  match params with
  | none => .ok (.obj [])
  | some (.obj fs) => .ok (.obj fs)
  | some _ => .error (invalidParams (method ++ " params must be an object.") none)

def rejectAdditionalProperties (object : Json) (allowed : List JsString) (context : String) : Except Failure Unit :=
  rejectIf (∃ key ∈ object.keys, key ∉ allowed) (context ++ " contains unsupported properties.")

def isString : Option Json → Bool
  | some (.str _) => true
  | _ => false

def requireString (object : Json) (key context : String) : Except Failure Unit :=
  rejectIf (isString (object.get (js key)) = false) (context ++ " requires " ++ key ++ " as a string.")

def optionalString (object : Json) (key context : String) : Except Failure Unit :=
  rejectIf ((object.get (js key)).isSome = true ∧ isString (object.get (js key)) = false)
    (context ++ " " ++ key ++ " must be a string.")

def optionalPlainObject (object : Json) (key context : String) : Except Failure Unit :=
  rejectIf ((object.get (js key)).any (fun value => !isPlainRecord value) = true)
    (context ++ " " ++ key ++ " must be an object.")

def validateInitializeParams (params : Option Json) : Except Failure Unit := do
  let input ← ensureParamsObject params "initialize"
  rejectAdditionalProperties input [js "protocolVersion", js "capabilities", js "clientInfo"] "initialize params"
  optionalString input "protocolVersion" "initialize params"
  optionalPlainObject input "capabilities" "initialize params"
  optionalPlainObject input "clientInfo" "initialize params"
  if (input.get (js "protocolVersion")).isSome ∧ isStr (input.get (js "protocolVersion")) MCP_PROTOCOL_VERSION = false then
    .error (invalidParams "Unsupported MCP protocol version."
      (some (.obj [(js "supportedProtocolVersions", .arr [.str MCP_PROTOCOL_VERSION])])))
  else .ok ()

def validateNoParams (params : Option Json) (method : String) : Except Failure Unit := do
  let input ← ensureParamsObject params method
  rejectAdditionalProperties input [] (method ++ " params")

def validatePromptArguments (args : Option Json) : Except Failure Unit :=
  match args with
  | none => .ok ()
  | some args => do
    rejectIf (isPlainRecord args = false) "prompts/get arguments must be an object."
    rejectAdditionalProperties args [js "question", js "purpose"] "prompts/get arguments"
    optionalString args "question" "prompts/get arguments"
    optionalString args "purpose" "prompts/get arguments"

/-! ## Descriptors -/

def resourceDescriptors : Json :=
  .arr [.obj [(js "uri", .str PASSPORT_SUMMARY_RESOURCE_URI), (js "name", .str (js "Enigma Passport Summary")),
    (js "description", .str (js ("MCP-safe Passport and Vault metadata for the local Enigma bundle. " ++
      "Raw memory plaintext is never exposed."))),
    (js "mimeType", .str (js "application/json"))]]

def promptArgument (name description : String) : Json :=
  .obj [(js "name", .str (js name)), (js "description", .str (js description)), (js "required", .bool false)]

def promptDescriptors : Json :=
  .arr [.obj [(js "name", .str STANDARD_MEMORY_PROMPT_NAME),
    (js "description", .str (js "Standard Enigma memory prompt for provider-neutral, receipt-aware user-specific answers.")),
    (js "arguments", .arr [promptArgument "question" "Optional user question the assistant is preparing to answer.",
      promptArgument "purpose" "Optional retrieval purpose to pass when requesting Enigma context."])]]

def CORE_TOOL_NAMES : List JsString :=
  [js "enigma_init", js "enigma_next_action", js "enigma_support_summary", js "enigma_remember", js "enigma_import_preview",
    js "enigma_import_approve", js "enigma_search", js "enigma_context_pack", js "enigma_visual_context", js "enigma_delete",
    js "enigma_verify_receipts"]

/-- The names of `toolDescriptors`, each with a handler of its own. -/
def toolNames : List JsString :=
  CORE_TOOL_NAMES ++
    [js "enigma_immune_ingress", js "enigma_memory_weather", js "enigma_recall_veto", js "enigma_consent_grant",
      js "enigma_private_bubble", js "enigma_meter_usage", js "enigma_settlement_job", js "enigma_settlement_capacity",
      js "enigma_settlement_quote", js "enigma_settlement_receipt", js "enigma_settlement_verify", js "enigma_settlement_batch"]

/-- What a profile names: tools, or a value that every object inherits, which is no list. -/
inductive Descriptors where
  | tools (names : List JsString)
  | inherited (value : Option Json)

def toolDescriptorProfiles (profile : JsString) : Option Descriptors :=
  if profile = js "core" then some (.tools CORE_TOOL_NAMES)
  else if profile = js "full" then some (.tools toolNames)
  else if profile = js "__proto__" then some (.inherited (some (.obj [])))
  else if profile = js "constructor" then some (.inherited none)
  else none

def toolDescriptorsForProfile (F : NumberFormat) (profile : Option Json) : Except Failure Descriptors :=
  let normalized := toLowerCase (trim (((Json.orElse profile none).getD (.str (js "full"))).toText F))
  match toolDescriptorProfiles normalized with
  | some descriptors => .ok descriptors
  | none => .error (.other (js "TypeError"))

/-! ## The prompt -/

/-- `typeof value === 'string' && value.trim() ? value.trim() : otherwise`. -/
def trimmedOr (value : Option Json) (otherwise : String) : JsString :=
  match value with
  | some (.str s) => if trim s = [] then js otherwise else trim s
  | _ => js otherwise

def promptText (question purpose : JsString) : JsString :=
  js ("Before answering user-specific questions, request relevant context through Enigma instead of relying on " ++
    "provider-native memory.\nUse the Enigma MCP tools with purpose \"") ++ purpose ++
  js "\" to retrieve a context pack or search result for: " ++ question ++
  js ("\nTreat provider-native memory as a cache only; Enigma receipts and active Vault state are the source of truth." ++
    "\nBe honest: if Enigma has no relevant context, receipts, or permission for a claim, say you do not know or need " ++
    "more context rather than guessing.\nDo not put raw memory plaintext into receipts, relay records, witness " ++
    "artifacts, SIEM events, or public proof artifacts.")

def enigma_standard_memory_prompt (input : Json) : Json :=
  let args : Json := match input.get (js "arguments") with
    | some (.obj fs) => .obj fs
    | _ => input
  let question := trimmedOr (args.get (js "question")) "the user-specific question"
  let purpose := trimmedOr (args.get (js "purpose")) "answer_user_specific_question"
  .obj [(js "description", .str (js "Use Enigma as the canonical memory and proof layer before making user-specific claims.")),
    (js "messages", .arr [.obj [(js "role", .str (js "user")),
      (js "content", .obj [(js "type", .str (js "text")), (js "text", .str (promptText question purpose))])]])]

/-! ## The tools -/

/-- What a tool returns: its result and, for a visual context, the manifest instead and its pages
as base64 texts. -/
structure ToolResult where
  value : Json
  pages : List JsString

/-- The code behind the requests, over a state of type `σ`. -/
structure Server (σ : Type) where
  numberFormat : NumberFormat
  /-- The whole descriptor of a tool, under a profile. -/
  descriptor : Option Json → JsString → Json
  version : JsString
  normalizeResourceUri : JsString → JsString
  /-- `enigma_passport_summary_resource(inputWithBundlePath(params))`. -/
  passportSummary : Json → σ → Except Failure Json × σ
  validateToolArguments : JsString → Json → Except Failure Json
  tool : JsString → Json → σ → Except Failure ToolResult × σ

variable {σ : Type} (S : Server σ)

def pageContent (page : JsString) : Json :=
  .obj [(js "type", .str (js "image")), (js "data", .str page), (js "mimeType", .str (js "image/png"))]

def toolCallContent (result : ToolResult) (toolName : JsString) : Json :=
  let verificationFailed : Bool :=
    decide (toolName = js "enigma_verify_receipts" ∨ toolName = js "enigma_settlement_verify") &&
      match result.value.get (js "ok") with
      | some (.bool false) => true
      | _ => false
  .obj [(js "content", .arr (.obj [(js "type", .str (js "text")), (js "text", .str (result.value.stringify S.numberFormat))] ::
      result.pages.map pageContent)),
    (js "structuredContent", result.value), (js "isError", .bool verificationFailed)]

def errorName : Failure → JsString
  | .protocol .. => js "JsonRpcProtocolError"
  | .other name => name

def toolCallError (error : Failure) : Json :=
  let result : Json := .obj [(js "ok", .bool false), (js "error", .str (js "Tool execution failed.")),
    (js "error_name", .str (errorName error))]
  .obj [(js "content", .arr [.obj [(js "type", .str (js "text")), (js "text", .str (result.stringify S.numberFormat))]]),
    (js "structuredContent", result), (js "isError", .bool true)]

/-! ## Methods -/

/-- `options.toolProfile ?? options.tool_profile ?? 'full'`. -/
def profileOf (options : Json) : Option Json :=
  firstOf [options.get (js "toolProfile"), options.get (js "tool_profile"), some (.str (js "full"))]

def toolsList (options : Json) : Except Failure Json := do
  match ← toolDescriptorsForProfile S.numberFormat (profileOf options) with
  | .tools names => return .obj [(js "tools", .arr (names.map (S.descriptor (profileOf options))))]
  | .inherited value => return .obj (field (js "tools") value)

/-- `exposedTools.some(...)` on what is no list is a call of `undefined`. -/
def isExposed (descriptors : Descriptors) (name : JsString) : Except Failure Bool :=
  match descriptors with
  | .tools names => .ok (decide (name ∈ names))
  | .inherited _ => .error (.other (js "TypeError"))

/-- The name and the arguments of a `tools/call`, after every check on them. -/
def toolCall (options : Json) (params : Option Json) : Except Failure (JsString × Json) := do
  let params ← ensureParamsObject params "tools/call"
  rejectAdditionalProperties params [js "name", js "arguments"] "tools/call params"
  requireString params "name" "tools/call params"
  let name := ((params.get (js "name")).getD .null).toText S.numberFormat
  let exposedTools ← toolDescriptorsForProfile S.numberFormat (profileOf options)
  let exposed ← isExposed exposedTools name
  rejectIf (exposed = false) "Unknown tool."
  rejectIf (name ∉ toolNames) "Unknown tool."
  let args ← S.validateToolArguments name ((Json.orElse (params.get (js "arguments")) none).getD (.obj []))
  return (name, args)

/-- The checked parameters of a `resources/read`. -/
def resourceParams (params : Option Json) : Except Failure Json := do
  let params ← ensureParamsObject params "resources/read"
  rejectAdditionalProperties params [js "uri", js "bundlePath"] "resources/read params"
  requireString params "uri" "resources/read params"
  optionalString params "bundlePath" "resources/read params"
  let uri := ((params.get (js "uri")).getD .null).toText S.numberFormat
  rejectIf (S.normalizeResourceUri uri ≠ PASSPORT_SUMMARY_RESOURCE_URI) "Unknown resource."
  return params

def promptsGet (params : Option Json) : Except Failure Json := do
  let params ← ensureParamsObject params "prompts/get"
  rejectAdditionalProperties params [js "name", js "arguments"] "prompts/get params"
  requireString params "name" "prompts/get params"
  rejectIf (isStr (params.get (js "name")) STANDARD_MEMORY_PROMPT_NAME = false) "Unknown prompt."
  validatePromptArguments (params.get (js "arguments"))
  return enigma_standard_memory_prompt params

def initializeResult : Json :=
  let unchanging : Json := .obj [(js "listChanged", .bool false)]
  .obj [(js "protocolVersion", .str MCP_PROTOCOL_VERSION),
    (js "capabilities", .obj [(js "tools", unchanging), (js "resources", unchanging), (js "prompts", unchanging)]),
    (js "serverInfo", .obj [(js "name", .str (js "enigma-mcp-server")), (js "version", .str S.version)])]

/-- How the `switch` over the method ends, before it is known whether to reply. -/
inductive Outcome where
  /-- `return notification ? undefined : jsonRpcResult(id, result)`. -/
  | result (value : Json)
  /-- `return undefined`. -/
  | silent
  /-- `return notification ? undefined : jsonRpcError(id, …, 'Method not found')`. -/
  | methodNotFound
  | thrown (error : Failure)

def Outcome.ofExcept : Except Failure Json → Outcome
  | .ok value => .result value
  | .error error => .thrown error

/-- `validateNoParams(request.params, method); return …(value)`. -/
def withoutParams (params : Option Json) (method : String) (value : Except Failure Json) : Outcome :=
  .ofExcept (do validateNoParams params method; value)

def runMethod (options : Json) (method : JsString) (params : Option Json) (s : σ) : Outcome × σ :=
  if method = js "initialize" then
    (.ofExcept (do validateInitializeParams params; return initializeResult S), s)
  else if method = js "notifications/initialized" then
    (match validateNoParams params "notifications/initialized" with
      | .ok () => .silent
      | .error error => .thrown error, s)
  else if method = js "ping" then (withoutParams params "ping" (.ok (.obj [])), s)
  else if method = js "tools/list" then (withoutParams params "tools/list" (toolsList S options), s)
  else if method = js "resources/list" then
    (withoutParams params "resources/list" (.ok (.obj [(js "resources", resourceDescriptors)])), s)
  else if method = js "resources/templates/list" then
    (withoutParams params "resources/templates/list" (.ok (.obj [(js "resourceTemplates", .arr [])])), s)
  else if method = js "resources/read" then
    match resourceParams S params with
    | .ok params =>
      let (result, s') := S.passportSummary params s
      (.ofExcept result, s')
    | .error error => (.thrown error, s)
  else if method = js "prompts/list" then
    (withoutParams params "prompts/list" (.ok (.obj [(js "prompts", promptDescriptors)])), s)
  else if method = js "prompts/get" then (.ofExcept (promptsGet params), s)
  else if method = js "tools/call" then
    match toolCall S options params with
    | .ok (name, args) =>
      -- the handler has a `catch` of its own: what it throws becomes a result
      match S.tool name args s with
      | (.ok result, s') => (.result (toolCallContent S result name), s')
      | (.error error, s') => (.result (toolCallError S error), s')
    | .error error => (.thrown error, s)
  else (.methodNotFound, s)

/-! ## Requests -/

/-- The reply that an outcome comes to; `id` is missing for a notification. -/
def Outcome.reply (id : Option Json) : Outcome → Option Json
  | .result value => id.map (jsonRpcResult · value)
  | .silent => none
  | .methodNotFound => id.map (jsonRpcError · METHOD_NOT_FOUND (js "Method not found") none)
  | .thrown (.protocol code message data) => id.map (jsonRpcError · code message data)
  | .thrown (.other name) =>
    id.map (jsonRpcError · INTERNAL_ERROR (js "Internal error") (some (.obj [(js "name", .str name)])))

def invalidRequest (id : Json) : Json := jsonRpcError id INVALID_REQUEST (js "Invalid Request") none

def handleSingleJsonRpcRequest (options request : Json) (s : σ) : Option Json × σ :=
  if isPlainRecord request = false then (some (invalidRequest .null), s)
  else if (request.get (js "id")).any (fun id => !isValidJsonRpcId id) = true then (some (invalidRequest .null), s)
  else
    match isStr (request.get (js "jsonrpc")) JSONRPC_VERSION, request.get (js "method") with
    | true, some (.str method) =>
      let (outcome, s') := runMethod S options method (request.get (js "params")) s
      (outcome.reply (request.get (js "id")), s')
    | _, _ => (some (invalidRequest ((request.get (js "id")).getD .null)), s)

/-- The responses to the items of a batch, one after the other. -/
def handleBatch (options : Json) : List Json → σ → List Json × σ
  | [], s => ([], s)
  | item :: rest, s =>
    let (response, s') := handleSingleJsonRpcRequest S options item s
    let (responses, s'') := handleBatch options rest s'
    (response.toList ++ responses, s'')

def handleJsonRpcRequest (options request : Json) (s : σ) : Option Json × σ :=
  match request with
  | .arr [] => (some (invalidRequest .null), s)
  | .arr items =>
    let (responses, s') := handleBatch S options items s
    (if responses = [] then none else some (.arr responses), s')
  | request => handleSingleJsonRpcRequest S options request s

end EnigmaMemory.JsonRpc
