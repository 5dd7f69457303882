import EnigmaMemory.Lib.Ordered
import EnigmaMemory.Spec.Platform
import EnigmaMemory.Spec.Sha256

/-!
# Boundary manifests and the boundary simulation

`packages/boundary`: a manifest declares the paths by which a fact can leave a system; the simulation sends
facts along paths and reports, for every scenario and for the whole, whether the boundary holds. The texts of
errors that the language throws are left out.
-/

namespace EnigmaMemory.Boundary

variable (P : Platform)

/-! ## Words -/

inductive Verdict where
  | pass
  | narrowGo
  | fail
  deriving DecidableEq

inductive Canp where
  | committedPath
  | blockedPath
  | outOfScope
  | brokenPath
  | unknownBoundary
  | falseAssurance
  | blocked
  | crossed
  | neverCrossedCommittedChannel
  deriving DecidableEq

inductive Classification where
  | committed
  | blocked
  | declaredOutOfScope
  | broken
  | failClosed
  deriving DecidableEq

def Classification.text : Classification → JsString
  | committed => js "committed"
  | blocked => js "blocked"
  | declaredOutOfScope => js "declared_out_of_scope"
  | broken => js "broken"
  | failClosed => js "fail_closed"

def CLASSIFICATIONS : List Classification := [.committed, .blocked, .declaredOutOfScope, .broken, .failClosed]

/-- The classification that a value names. -/
def classificationOf (value : Option Json) : Option Classification := CLASSIFICATIONS.find? fun c => Json.isStr value c.text

def SURFACES : List JsString :=
  [js "model_input", js "model_output", js "tool_args", js "tool_result", js "scratchpad", js "clipboard", js "memory_write",
    js "memory_read", js "rag_ingest", js "rag_retrieve", js "file_write", js "log", js "telemetry", js "browser_dom",
    js "mcp_resource", js "network", js "inter_agent", js "cache", js "human_approval"]

def surfaceOf (value : Option Json) : Option JsString := SURFACES.find? fun s => Json.isStr value s

def MANIFEST_SCHEMA : JsString := js "enigma.boundary_manifest.v1"

def DEFAULT_ACTION : JsString := js "fail_unknown"

def DEFAULT_CREATED_AT : JsString := js "1970-01-01T00:00:00.000Z"

def DEFAULT_HMAC_KEY : JsString := js "enigma-boundary-local-proof-key"

def FACT_DOMAIN : JsString := js "enigma.boundary.fact.v1"

/-- `String(value ?? fallback)`. -/
def textOr (value : Option Json) (fallback : JsString) : JsString :=
  ((Json.orElse value none).map (Json.toText P.toNumberFormat)).getD fallback

/-- `${value ?? index}`. -/
def labelOf (value : Option Json) (index : ℕ) : JsString := textOr P value (P.numberText index)

def recordError (name : String) : JsError := ⟨.typeError, js name ++ js " must be an object"⟩

/-- A property of `null`, a call of what is no function, or `undefined` where a value is hashed. -/
def platformError : JsError := ⟨.typeError, []⟩

def assertPlainRecord (value : Json) (name : String) : Except JsError Unit :=
  if value.isPlainRecord then .ok () else .error (recordError name)

/-- A value with `map`. -/
def items : Option Json → Except JsError (List Json)
  | some (.arr xs) => .ok xs
  | _ => .error platformError

/-! ## Manifests -/

/-- A path of the default manifest that needs a receipt for coverage. -/
def covered (surface : String) : Json :=
  .obj [(js "path_id", .str (js surface ++ js ":committed")), (js "surface", .str (js surface)),
    (js "classification", .str Classification.committed.text), (js "coverage_receipt_required", .bool true)]

/-- Another path of the default manifest. -/
def declared (surface name : String) (classification : Classification) (reason : String) : Json :=
  .obj [(js "path_id", .str (js surface ++ 58 :: js name)), (js "surface", .str (js surface)),
    (js "classification", .str classification.text), (js "reason", .str (js reason))]

def defaultBoundaryPaths : List Json :=
  [covered "model_input", covered "model_output", covered "tool_args",
    declared "tool_result" "raw" .broken "Uninstrumented tool result can move exact facts without an Enigma receipt.",
    covered "tool_result",
    declared "scratchpad" "raw" .broken "Uninstrumented scratchpad can carry exact facts outside the committed channel.",
    covered "scratchpad",
    declared "clipboard" "raw" .broken "Uninstrumented clipboard can carry exact facts outside the committed channel.",
    covered "clipboard", covered "memory_write", covered "memory_read",
    declared "rag_ingest" "blocked" .blocked "Semantic/vector ingestion is not admitted by the exact boundary harness.",
    declared "rag_retrieve" "semantic" .declaredOutOfScope "Semantic/RAG paraphrase equivalence is outside exact CANP claims.",
    declared "file_write" "raw" .broken "File artifacts can leak exact facts unless routed through committed receipts.",
    declared "log" "raw" .broken "Logs can leak exact facts unless blocked or committed.",
    declared "telemetry" "blocked" .blocked "Telemetry egress is denied for boundary canaries.",
    declared "browser_dom" "blocked" .blocked "Browser DOM injection is denied in the local harness.",
    covered "mcp_resource",
    declared "network" "callback" .broken "Network callbacks can leak exact facts unless blocked or committed.",
    covered "inter_agent",
    declared "cache" "blocked" .blocked "Cache side paths are denied in the local harness.",
    covered "human_approval"]

/-- A field in a text, if it is there. -/
def textField (key : String) (value : Option Json) : List (JsString × Json) :=
  Json.field (js key) (value.map fun v => .str (v.toText P.toNumberFormat))

def normalizePath (path : Json) : Except JsError Json := do
  assertPlainRecord path "boundary path"
  return .obj ([(js "path_id", .str (textOr P (path.get (js "path_id")) [])),
    (js "surface", .str (textOr P (path.get (js "surface")) [])),
    (js "classification", .str (textOr P (path.get (js "classification")) []))] ++
    textField P "adapter" (path.get (js "adapter")) ++ textField P "reason" (path.get (js "reason")) ++
    Json.field (js "coverage_receipt_required")
      ((path.get (js "coverage_receipt_required")).map fun v => .bool (Json.truthy (some v))))

def manifestFields (manifestId systemId createdAt : JsString) (paths : List Json) : Json :=
  .obj [(js "schema", .str MANIFEST_SCHEMA), (js "manifest_id", .str manifestId), (js "system_id", .str systemId),
    (js "created_at", .str createdAt), (js "paths", .arr paths), (js "default_action", .str DEFAULT_ACTION)]

def createBoundaryManifest (options : Json) : Except JsError Json := do
  assertPlainRecord options "options"
  let systemId := textOr P (firstOf [options.get (js "systemId"), options.get (js "system_id")]) (js "local-boundary-sim")
  let createdAt := textOr P (firstOf [options.get (js "createdAt"), options.get (js "created_at")]) DEFAULT_CREATED_AT
  let given ← items (Json.orElse (options.get (js "paths")) (some (.arr defaultBoundaryPaths)))
  let paths ← given.mapM (normalizePath P)
  let manifestId := textOr P (firstOf [options.get (js "manifestId"), options.get (js "manifest_id")])
    ((sha256Hex ((manifestFields [] systemId createdAt paths).canonicalize P.toNumberFormat)).take 24)
  return manifestFields manifestId systemId createdAt paths

/-! ## Verification -/

structure Verification where
  ok : Bool
  status : Verdict
  errors : List JsString
  warnings : List JsString
  manifestHash : Option JsString

def errorIf (p : Bool) (error : JsString) : List JsString := if p then [error] else []

/-- The keys of an object that are not among the given ones. -/
def unknownKeys (j : Json) (allowed : List String) : List JsString :=
  j.keys.filter fun key => decide (key ∉ allowed.map js)

/-- `typeof value !== 'string' || value.length < n`. -/
def shorterThan (n : ℕ) : Option Json → Bool
  | some (.str s) => decide (s.length < n)
  | _ => true

def badDate : Option Json → Bool
  | some (.str s) => (P.parseDate s).isNone
  | _ => true

/-- `manifest.paths`, if it is an array. -/
def pathsOf (manifest : Json) : List Json :=
  match manifest.get (js "paths") with
  | some (.arr paths) => paths
  | _ => []

def rootErrors (manifest : Json) : List JsString :=
  (unknownKeys manifest ["schema", "manifest_id", "system_id", "created_at", "paths", "default_action"]).map
      (js "UNKNOWN_ROOT_PROPERTY:" ++ ·) ++
    errorIf (!Json.isStr (manifest.get (js "schema")) MANIFEST_SCHEMA) (js "BAD_SCHEMA") ++
    errorIf (shorterThan 8 (manifest.get (js "manifest_id"))) (js "BAD_MANIFEST_ID") ++
    errorIf (shorterThan 1 (manifest.get (js "system_id"))) (js "BAD_SYSTEM_ID") ++
    errorIf (badDate P (manifest.get (js "created_at"))) (js "BAD_CREATED_AT") ++
    errorIf (!Json.isStr (manifest.get (js "default_action")) DEFAULT_ACTION) (js "DEFAULT_ACTION_MUST_FAIL_UNKNOWN") ++
    errorIf (pathsOf manifest).isEmpty (js "PATHS_REQUIRED")

/-- What the loop over the paths has seen. -/
structure Scan where
  errors : List JsString
  seenIds : List JsString
  coveredSurfaces : List JsString
  hasBroken : Bool
  hasOutOfScope : Bool

def isBroken (path : Json) : Bool :=
  let classification := path.get (js "classification")
  Json.isStr classification Classification.broken.text || Json.isStr classification Classification.failClosed.text

def isOutOfScope (path : Json) : Bool := Json.isStr (path.get (js "classification")) Classification.declaredOutOfScope.text

def pathIdErrors (seenIds : List JsString) (index : ℕ) (pathId : Option Json) : List JsString :=
  match pathId with
  | some (.str s) =>
    if s = [] then [js "BAD_PATH_ID:" ++ P.numberText index]
    else if s ∈ seenIds then [js "DUPLICATE_PATH_ID:" ++ s]
    else []
  | _ => [js "BAD_PATH_ID:" ++ P.numberText index]

def badReceiptFlag : Option Json → Bool
  | none | some (.bool _) => false
  | _ => true

def pathErrors (seenIds : List JsString) (index : ℕ) (path : Json) : List JsString :=
  let pathId := path.get (js "path_id")
  (unknownKeys path ["path_id", "surface", "classification", "adapter", "reason", "coverage_receipt_required"]).map
      (js "UNKNOWN_PATH_PROPERTY:" ++ P.numberText index ++ 58 :: ·) ++
    pathIdErrors P seenIds index pathId ++
    errorIf (surfaceOf (path.get (js "surface"))).isNone (js "UNKNOWN_SURFACE:" ++ labelOf P pathId index) ++
    errorIf (classificationOf (path.get (js "classification"))).isNone (js "UNKNOWN_CLASSIFICATION:" ++ labelOf P pathId index) ++
    errorIf (badReceiptFlag (path.get (js "coverage_receipt_required")))
      (js "BAD_COVERAGE_RECEIPT_REQUIRED:" ++ labelOf P pathId index)

def scanPath (scan : Scan) (entry : Json × ℕ) : Scan :=
  let (path, index) := entry
  if path.isPlainRecord then
    { errors := scan.errors ++ pathErrors P scan.seenIds index path
      seenIds := (match path.get (js "path_id") with
        | some (.str s) => [s]
        | _ => []) ++ scan.seenIds
      coveredSurfaces := (surfaceOf (path.get (js "surface"))).toList ++ scan.coveredSurfaces
      hasBroken := scan.hasBroken || isBroken path
      hasOutOfScope := scan.hasOutOfScope || isOutOfScope path }
  else { scan with errors := scan.errors ++ [js "PATH_NOT_OBJECT:" ++ P.numberText index] }

def scanPaths (manifest : Json) : Scan := (pathsOf manifest).zipIdx.foldl (scanPath P) ⟨[], [], [], false, false⟩

def missingSurfaces (scan : Scan) : List JsString :=
  (SURFACES.filter fun s => decide (s ∉ scan.coveredSurfaces)).map (js "MISSING_SURFACE:" ++ ·)

/-- All errors of a manifest that is an object. -/
def manifestErrors (manifest : Json) : List JsString :=
  rootErrors P manifest ++ (scanPaths P manifest).errors ++ missingSurfaces (scanPaths P manifest)

def verifyBoundaryManifest (manifest : Option Json) : Verification :=
  match manifest with
  | some (.obj fs) =>
    let errors := manifestErrors P (.obj fs)
    let scan := scanPaths P (.obj fs)
    { ok := errors.isEmpty
      status := if !errors.isEmpty || scan.hasBroken then .fail else if scan.hasOutOfScope then .narrowGo else .pass
      errors := errors
      warnings := errorIf scan.hasBroken (js "BROKEN_PATH_DECLARED") ++
        errorIf scan.hasOutOfScope (js "OUT_OF_SCOPE_PATH_DECLARED")
      manifestHash := if errors.isEmpty then some (sha256Hex ((Json.obj fs).canonicalize P.toNumberFormat)) else none }
  | _ => ⟨false, .fail, [js "MANIFEST_NOT_OBJECT"], [], none⟩

/-! ## Paths -/

/-- `matches.length === 1`, or why not. -/
def single (found : List Json) : Except JsString Json :=
  match found with
  | [] => .error (js "UNCLASSIFIED_PATH")
  | [path] => .ok path
  | _ => .error (js "AMBIGUOUS_PATH")

/-- A field that is a non-empty text. -/
def textIn (ref : Json) (key : String) : Option JsString :=
  match ref.get (js key) with
  | some (.str s) => if s = [] then none else some s
  | _ => none

/-- `typeof pathRef === 'string' ? { path_id: pathRef } : pathRef`, if it is an object. -/
def refOf : Option Json → Option Json
  | some (.str s) => some (.obj [(js "path_id", .str s)])
  | some (.obj fs) => some (.obj fs)
  | _ => none

/-- The one path that a reference names, or the reason why there is none. -/
def findPath (manifest : Json) (pathRef : Option Json) : Except JsString Json :=
  match refOf pathRef with
  | none => .error (js "BAD_PATH_REF")
  | some ref =>
    match textIn ref "path_id", textIn ref "surface" with
    | some pathId, surface => do
      let path ← single ((pathsOf manifest).filter fun path => Json.isStr (path.get (js "path_id")) pathId)
      if surface.all fun s => Json.isStr (path.get (js "surface")) s then .ok path else .error (js "AMBIGUOUS_PATH")
    | none, some surface => single ((pathsOf manifest).filter fun path => Json.isStr (path.get (js "surface")) surface)
    | none, none => .error (js "BAD_PATH_REF")

structure Classified where
  known : Bool
  failClosed : Bool
  path : Option Json
  /-- `none` is a word that is no classification, which no verified manifest has. -/
  classification : Option Classification
  canp : Option Canp
  verdict : Option Verdict
  reason : Json
  manifestErrors : List JsString

def unknownPath (reason : JsString) (manifestErrors : List JsString) : Classified :=
  ⟨false, true, none, some .failClosed, some .unknownBoundary, some .fail, .str reason, manifestErrors⟩

def canpByClassification : Classification → Canp
  | .committed => .committedPath
  | .blocked => .blockedPath
  | .declaredOutOfScope => .outOfScope
  | .broken => .brokenPath
  | .failClosed => .unknownBoundary

def verdictByClassification : Classification → Verdict
  | .committed => .pass
  | .blocked => .pass
  | .declaredOutOfScope => .narrowGo
  | .broken => .fail
  | .failClosed => .fail

def knownPath (path : Json) : Classified :=
  let classification := classificationOf (path.get (js "classification"))
  { known := true
    failClosed := isBroken path
    path := some path
    classification := classification
    canp := classification.map canpByClassification
    verdict := classification.map verdictByClassification
    reason := (Json.orElse (path.get (js "reason")) none).getD .null
    manifestErrors := [] }

def classifyBoundaryPath (manifest : Option Json) (pathRef : Option Json) : Classified :=
  let verification := verifyBoundaryManifest P manifest
  if verification.ok then
    match findPath (manifest.getD .null) pathRef with
    | .ok path => knownPath path
    | .error reason => unknownPath reason []
  else
    unknownPath (if js "MANIFEST_NOT_OBJECT" ∈ verification.errors then js "MISSING_OR_INVALID_MANIFEST" else js "INVALID_MANIFEST")
      verification.errors

/-! ## Scenarios -/

def factAddress (fact : Json) (hmacKey runId : JsString) (scenario : Option Json) : JsString :=
  js "boundary:hmac-sha256:" ++ hmacSha256Hex (utf8 hmacKey)
    ((Json.obj [(js "namespace", .str FACT_DOMAIN), (js "tenant_id", .null),
      (js "subject_id", scenario.getD (.str (js "unspecified"))),
      (js "value", .obj [(js "fact", fact), (js "runId", .str runId)])]).canonicalize P.toNumberFormat)

/-- A fact that is missing cannot be hashed. -/
def factCommitment (fact : Option Json) (hmacKey runId : JsString) (scenario : Option Json) : Except JsError JsString :=
  match fact with
  | none => .error platformError
  | some fact => .ok (factAddress P fact hmacKey runId scenario)

structure Row where
  scenario : Option Json
  pathId : Option Json
  bGotVia : Option Json
  classification : Option Classification
  failClosed : Bool
  canp : Canp
  verdict : Verdict
  reason : Json

structure Commitment where
  scenario : Option Json
  factAddress : JsString
  pathId : Option Json

/-- `scenario.bGotVia !== 'none'`. -/
def bHasFact (scenario : Json) : Bool := !Json.isStr (scenario.get (js "bGotVia")) (js "none")

def verdictOf (classified : Classified) (bHasFact crossedCommittedChannel : Bool) : Canp × Verdict :=
  if !classified.known then (.unknownBoundary, .fail)
  else if classified.classification = some .declaredOutOfScope then (.outOfScope, .narrowGo)
  else if classified.classification = some .blocked then if bHasFact then (.falseAssurance, .fail) else (.blocked, .pass)
  else if crossedCommittedChannel then (.crossed, .pass)
  else if bHasFact then (.falseAssurance, .fail)
  else (.neverCrossedCommittedChannel, .pass)

def scenarioRef (scenario : Json) : Option Json := Json.orElse (scenario.get (js "pathRef")) (scenario.get (js "pathId"))

def rowOf (manifest : Option Json) (scenario : Json) : Row :=
  let classified := classifyBoundaryPath P manifest (scenarioRef scenario)
  -- the set of committed addresses holds this address or nothing
  let (canp, verdict) := verdictOf classified (bHasFact scenario) (Json.truthy (scenario.get (js "committed")))
  { scenario := scenario.get (js "scenario")
    pathId := scenario.get (js "pathId")
    bGotVia := scenario.get (js "bGotVia")
    classification := classified.classification
    failClosed := decide (verdict = .fail) || classified.failClosed
    canp := canp
    verdict := verdict
    reason := classified.reason }

def evaluateScenario (manifest : Option Json) (hmacKey runId : JsString) (scenario : Json) : Except JsError (Row × Commitment) := do
  let address ← factCommitment P (scenario.get (js "fact")) hmacKey runId (scenario.get (js "scenario"))
  return (rowOf P manifest scenario, ⟨scenario.get (js "scenario"), address, scenario.get (js "pathId")⟩)

/-- One of the built-in scenarios. -/
def scenarioOf (name pathId fact bGotVia : String) (committed : Bool) (more : List (JsString × Json)) : Json :=
  .obj ([(js "scenario", .str (js name)), (js "pathId", .str (js pathId)), (js "fact", .str (js fact)),
    (js "bGotVia", .str (js bGotVia)), (js "committed", .bool committed)] ++ more)

def scenarioDefinitions : List Json :=
  [scenarioOf "control never sent" "model_input:committed" "control-boundary-canary" "none" false [],
    scenarioOf "honest committed crossing" "model_input:committed" "honest-committed-canary" "committed_channel" true [],
    scenarioOf "scratchpad leak" "scratchpad:raw" "scratchpad-leak-canary" "scratchpad" false [],
    scenarioOf "tool-output leak" "tool_result:raw" "tool-output-leak-canary" "tool_result" false [],
    scenarioOf "clipboard leak" "clipboard:raw" "clipboard-leak-canary" "clipboard" false [],
    scenarioOf "log leak" "log:raw" "log-leak-canary" "log" false [],
    scenarioOf "file artifact leak" "file_write:raw" "file-artifact-leak-canary" "file_artifact" false [],
    scenarioOf "network callback leak" "network:callback" "network-callback-leak-canary" "network_callback" false [],
    scenarioOf "mitigated scratchpad route-through-channel" "scratchpad:committed" "mitigated-scratchpad-canary"
      "scratchpad_via_committed_channel" true [],
    scenarioOf "mitigated clipboard route-through-channel" "clipboard:committed" "mitigated-clipboard-canary"
      "clipboard_via_committed_channel" true [],
    scenarioOf "mitigated tool route-through-channel" "tool_result:committed" "mitigated-tool-canary"
      "tool_result_via_committed_channel" true [],
    scenarioOf "unknown provider route" "provider_native:tool_result" "unknown-provider-route-canary" "provider_native_tool" false [],
    scenarioOf "ambiguous tool surface route" "tool_result:*" "ambiguous-tool-surface-canary" "tool_surface" false
      [(js "pathRef", .obj [(js "surface", .str (js "tool_result"))])],
    scenarioOf "semantic/RAG paraphrase declared out-of-scope" "rag_retrieve:semantic" "semantic-rag-paraphrase-canary"
      "rag_paraphrase" false [(js "semantic", .bool true)]]

/-! ## The simulation -/

structure Report where
  runId : JsString
  manifestHash : Option JsString
  manifestStatus : Verdict
  rows : List Row
  /-- Also `finalStatus`. -/
  status : Verdict
  commitments : List Commitment

def finalStatus (verification : Verification) (rows : List Row) : Verdict :=
  if !verification.ok || rows.any (·.verdict = .fail) then .fail
  else if rows.any (·.verdict = .narrowGo) || verification.status = .narrowGo then .narrowGo
  else .pass

structure SimulationOptions where
  runId : Option Json
  run_id : Option Json
  hmacKey : Option Json
  hmac_key : Option Json
  systemId : Option Json
  createdAt : Option Json
  scenarios : Option Json
  /-- The property `manifest`, if the options have it; its value may be `undefined`. -/
  manifest : Option (Option Json)

/-- `options.manifest`, or the default manifest if the options have no such property. -/
def manifestFor (options : SimulationOptions) : Except JsError (Option Json) :=
  match options.manifest with
  | some manifest => .ok manifest
  | none => (createBoundaryManifest P (.obj (Json.field (js "systemId") options.systemId ++
      Json.field (js "createdAt") options.createdAt))).map some

/-- `none` is a value that is no object. -/
def runBoundarySimulation : Option SimulationOptions → Except JsError Report
  | none => .error (recordError "options")
  | some options => do
    let runId := textOr P (firstOf [options.runId, options.run_id]) (js "boundary-sim-local")
    let hmacKey := textOr P (firstOf [options.hmacKey, options.hmac_key]) DEFAULT_HMAC_KEY
    let manifest ← manifestFor P options
    let scenarios ← items (Json.orElse options.scenarios (some (.arr scenarioDefinitions)))
    let evaluated ← scenarios.mapM (evaluateScenario P manifest hmacKey runId)
    let rows := evaluated.map Prod.fst
    let verification := verifyBoundaryManifest P manifest
    return ⟨runId, verification.manifestHash, verification.status, rows, finalStatus verification rows, evaluated.map Prod.snd⟩

end EnigmaMemory.Boundary
