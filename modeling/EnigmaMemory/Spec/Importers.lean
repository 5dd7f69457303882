import EnigmaMemory.Spec.ImportReports

/-!
# The importers

`packages/importers/src/index.js`: how the importers read texts, limitations and completeness of a source, what they make of an item,
and the seven import functions. Each reads the items of its provider from a source that is JSON, or text that may be JSON. A `Draft` is
what an importer hands to `addCandidate`.
-/

namespace EnigmaMemory.Importers

open Json

variable (P : Platform)

def REPORT_SCHEMA : JsString := js "enigma.import_report.v1"

/-! ## Texts -/

def joinLines (lines : List JsString) : JsString := List.intercalate [10] lines

/-- The first of the fields that is a text, trimmed. -/
def fieldValue (fs : List (JsString × Json)) : JsString :=
  (([js "text", js "content", js "value", js "memory", js "fact", js "summary", js "message"].findSome? fun name =>
    text? (fs.lookup name)).map trim).getD []

mutual
def stringValue : Json → JsString
  | .null => []
  | .bool b => (Json.bool b).toText P.toNumberFormat
  | .num q => P.numberText q
  | .str s => trim s
  | .arr xs => trim (joinLines ((stringValues xs).filter (· ≠ [])))
  | .obj fs => (partsValue fs).getD (fieldValue fs)

def stringValues : List Json → List JsString
  | [] => []
  | x :: xs => stringValue x :: stringValues xs

/-- The text of `parts`, if that is an array. -/
def partsValue : List (JsString × Json) → Option JsString
  | [] => none
  | (key, value) :: fs =>
    if key = js "parts" then
      match value with
      | .arr xs => some (trim (joinLines ((stringValues xs).filter (· ≠ []))))
      | _ => none
    else partsValue fs
end

/-- `stringValue` of a value that may be missing. -/
def valueText (value : Option Json) : JsString := (value.map (stringValue P)).getD []

/-- `first || second`. -/
def orText (first second : JsString) : JsString := if first = [] then second else first

def firstString (record : Json) (names : List String) : JsString :=
  if isRecord record then ((names.map fun name => valueText P (record.get (js name))).find? (· ≠ [])).getD [] else []

/-- A text between the brackets of an object or an array. -/
def isBracketed (s : JsString) : Bool :=
  (s.head? == some 123 && s.getLast? == some 125) || (s.head? == some 91 && s.getLast? == some 93)

def parseMaybeJson (input : Json) : Json :=
  match input with
  | .str s =>
    if trim s = [] then .str []
    else if isBracketed (trim s) then
      match P.parseJson (trim s) with
      | .ok value => value
      | .error _ => input
    else input
  | _ => input

/-! ## Lines -/

/-- `split(/\r?\n/)`. -/
def splitLines : JsString → List JsString
  | [] => [[]]
  | 13 :: 10 :: rest => [] :: splitLines rest
  | 10 :: rest => [] :: splitLines rest
  | c :: rest =>
    match splitLines rest with
    | [] => [[c]]
    | line :: lines => (c :: line) :: lines

/-- What follows white space, if there is any. -/
def afterSpaces (s : JsString) : Option JsString := if s.head?.any isWhite then some (s.dropWhile isWhite) else none

/-- `replace(/^[-*]\s+/, '')`. -/
def stripDash (line : JsString) : JsString :=
  match line with
  | 45 :: rest | 42 :: rest => (afterSpaces rest).getD line
  | _ => line

def textLines (value : JsString) : List JsString := ((splitLines value).map fun line => trim (stripDash line)).filter (· ≠ [])

/-- What follows a mark `[-*+]`, `\d+[.)]` or `\[[ xX]\]`. -/
def afterMark (s : JsString) : Option JsString :=
  match s with
  | 45 :: rest | 42 :: rest | 43 :: rest => some rest
  | 91 :: c :: 93 :: rest => if c = 32 ∨ c = 120 ∨ c = 88 then some rest else none
  | _ =>
    if s.head?.any isDigitUnit then
      match s.dropWhile isDigitUnit with
      | 46 :: rest | 41 :: rest => some rest
      | _ => none
    else none

/-- `replace(/^\s*(?:[-*+]|\d+[.)]|\[[ xX]\])\s+/u, '')`. -/
def stripMark (line : JsString) : JsString := ((afterMark (line.dropWhile isWhite)).bind afterSpaces).getD line

/-- `replace(/^\s{0,3}#{1,6}\s+/u, '')`. -/
def stripHeading (line : JsString) : JsString :=
  let hashes := ((line.dropWhile isWhite).takeWhile (· == 35)).length
  if (line.takeWhile isWhite).length ≤ 3 ∧ 1 ≤ hashes ∧ hashes ≤ 6 then
    (afterSpaces ((line.dropWhile isWhite).drop hashes)).getD line
  else line

/-- `/^[-*_]{3,}$/u.test(line)`. -/
def isRule (line : JsString) : Bool := decide (3 ≤ line.length) && line.all fun c => c == 45 || c == 42 || c == 95

def curatedTextLines (value : JsString) : List JsString :=
  ((splitLines value).map fun line => trim (stripHeading (stripMark line))).filter fun line => line ≠ [] && !isRule line

/-! ## Limitations and completeness -/

def sourceLimitations (input : Json) : List JsString :=
  if isRecord input then
    (([js "limitations", js "limits", js "warnings", js "caveats"].flatMap fun key => asArray (input.get key)) ++
      asArray (path (some input) ["metadata", "limitations"])).map (stringValue P)
  else []

def collectLimitations (input : Json) (defaults : List JsString) : List JsString :=
  uniqueStrings P ((defaults ++ sourceLimitations P input).map .str)

def parseCompletenessFlag : Json → Option Bool
  | .bool b => some b
  | .str s =>
    let normalized := toLowerCase s
    if normalized ∈ [js "complete", js "full", js "explicit_complete"] then some true
    else if normalized ∈ [js "incomplete", js "partial", js "unknown", js "partial_or_unknown"] then some false
    else none
  | _ => none

def completenessInputs (input : Json) : List Json :=
  ([["complete"], ["is_complete"], ["export_complete"], ["exportComplete"], ["completeness"], ["metadata", "complete"],
    ["metadata", "is_complete"], ["metadata", "export_complete"], ["metadata", "completeness"]].filterMap fun names =>
      orElse (path (some input) names) none)

structure CompletenessEvidence where
  recognized_count : ℕ
  unsupported_count : ℕ
  conflicting : Bool
  explicit_assertion : Bool
  complete : Bool

def completenessEvidence (input : Json) : CompletenessEvidence :=
  let flags := (completenessInputs input).map parseCompletenessFlag
  let trueCount := flags.count (some true)
  let falseCount := flags.count (some false)
  let conflicting := decide (0 < trueCount ∧ 0 < falseCount)
  { recognized_count := trueCount + falseCount
    unsupported_count := flags.count none
    conflicting := conflicting
    explicit_assertion := decide (0 < trueCount + falseCount)
    complete := !conflicting && decide (0 < trueCount ∧ falseCount = 0) }

def CompletenessEvidence.toJson (evidence : CompletenessEvidence) : Json :=
  .obj [(js "recognized_count", .num evidence.recognized_count), (js "unsupported_count", .num evidence.unsupported_count),
    (js "conflicting", .bool evidence.conflicting), (js "explicit_assertion", .bool evidence.explicit_assertion),
    (js "complete", .bool evidence.complete)]

/-- `explicitCompleteness(input) === true`. -/
def explicitlyComplete (input : Json) : Bool := (completenessEvidence input).complete

def completenessLimitations (input : Json) : List JsString :=
  let evidence := completenessEvidence input
  if evidence.conflicting then
    [js "source completeness flags conflict; imported memories are treated as partial until the source is reconciled"]
  else if evidence.complete then []
  else if 0 < evidence.recognized_count then
    [js "source explicitly reports an incomplete export; do not treat imported memories as complete"]
  else [js "source did not include an explicit completeness flag; imported memories have unknown coverage"]

/-! ## Metadata -/

def PLAINTEXT_METADATA_KEYS : List JsString :=
  [js "body", js "content", js "memory", js "plaintext", js "prompt", js "rawmemory", js "response", js "summary", js "text", js "value"]

/-- `replace(/[^A-Za-z0-9_:-]/g, '_')`. -/
def commitmentUnit (c : CodeUnit) : CodeUnit :=
  if isLowerUnit c || isUpperUnit c || isDigitUnit c || decide (c ∈ js "_:-") then c else 95

def metadataCommitmentKey (key : JsString) : JsString := key.map commitmentUnit ++ js "_commitment"

/-- Values that are no primitives are left out, and so is what would be the prototype. -/
def assignMetadataValue (metadata : Json) (key : JsString) (item : Json) : Json :=
  match item with
  | .arr _ | .obj _ => metadata
  | .null => if isPlaintextKeyOf PLAINTEXT_METADATA_KEYS key || key == js "__proto__" then metadata else metadata.set key .null
  | item =>
    if isPlaintextKeyOf PLAINTEXT_METADATA_KEYS key then
      metadata.set (metadataCommitmentKey key) (.str (rootOf P (.str (item.toText P.toNumberFormat))))
    else if key = js "__proto__" then metadata
    else metadata.set key item

/-- `normalizeMetadata(value, extra)`. -/
def normalizeMetadata (value : Option Json) (extra : List (JsString × Json)) : Json :=
  (extra ++ ((value.map Json.fields).getD [])).foldl (fun metadata f => assignMetadataValue P metadata f.1 f.2) (.obj [])

/-! ## Candidates -/

/-- What an importer makes of an item. -/
structure Draft where
  importer : JsString
  sourceType : JsString
  /-- What the hash of the source is taken over. -/
  item : Option Json
  content : JsString
  path : JsString
  id : Option Json
  confidence : Option Json
  kind : Json
  metadata : Option Json

def sourceRef (d : Draft) : Json :=
  let id := orElse d.id none
  .obj ([(js "source_type", .str d.sourceType), (js "path", .str d.path),
    (js "source_hash", .str (rootOf P (given d.item (.str (d.sourceType ++ js ":" ++ d.path ++ js ":" ++
      ((id.map (Json.toText P.toNumberFormat)).getD []))))))] ++
    field (js "source_id") (((id.map (Json.toText P.toNumberFormat)).filter (· ≠ [])).map .str))

/-- `makeCandidate`; every importer gives it one reference. -/
def makeCandidate (limitations : List JsString) (d : Draft) : Option Json :=
  let content := trim d.content
  let refs := Json.arr [sourceRef P d]
  if content = [] then none
  else some (.obj [(js "schema", .str (js "enigma.memory_candidate.v1")),
    (js "candidate_id", .str (js "cand_" ++ shortHash P (.obj [(js "importer", .str d.importer), (js "refs", refs),
      (js "normalizedContent", .str content)]))),
    (js "kind", d.kind), (js "content", .str content), (js "source_refs", refs),
    (js "limitations", .arr ((uniqueStrings P (limitations.map .str)).map .str)),
    (js "confidence", .str (normalizeConfidence d.confidence .medium).text),
    (js "metadata", normalizeMetadata P d.metadata [(js "importer", .str d.importer)])])

/-! ## Reports -/

/-- The vault that the candidates are written to: what its `n`-th call of `remember` returns, and its public key. -/
structure ImportVault where
  remember : ℕ → Json → Except JsError Json
  publicKey : Option JsString

structure ImportOptions where
  /-- `options.complete === true`. -/
  complete : Bool := false
  confidence : Option Json := none
  now : Now := .absent
  vault : Option ImportVault := none

/-- What `remember` is called with, beside the time. -/
def rememberArgs (candidate : Json) : Json :=
  .obj (field (js "content") (candidate.get (js "content")) ++ field (js "kind") (candidate.get (js "kind")) ++
    field (js "source_refs") (candidate.get (js "source_refs")) ++ field (js "confidence") (candidate.get (js "confidence")) ++
    field (js "limitations") (candidate.get (js "limitations")) ++
    [(js "metadata", .obj (field (js "candidate_id") (candidate.get (js "candidate_id")) ++
      field (js "importer") (path (some candidate) ["metadata", "importer"]) ++
      [(js "limitations_hash", .str (rootOf P ((candidate.get (js "limitations")).getD .null)))]))])

def vaultWrite (vault : ImportVault) (candidate result : Json) : Json :=
  .obj (field (js "candidate_id") (candidate.get (js "candidate_id")) ++ field (js "memory_addr") (result.get (js "memory_addr")) ++
    [(js "receipt_hash", .str (rootOf P ((result.get (js "receipt")).getD .null)))] ++
    field (js "event_id") ((text? (path (some result) ["event", "event_id"])).map .str) ++
    field (js "receipt_public_key") (vault.publicKey.map .str) ++
    field (js "receipt") ((result.get (js "receipt")).filter isRecord))

def writeCandidatesToVault (candidates : List Json) (vault : Option ImportVault) : Except JsError (List Json) :=
  match vault with
  | none => .ok []
  | some vault => candidates.zipIdx.mapM fun x => return vaultWrite P vault x.1 (← vault.remember x.2 (rememberArgs P x.1))

/-- The references, each once. -/
def uniqueSourceRefs (refs : List Json) : List Json :=
  refs.foldl (fun out ref => if stable P ref ∈ out.map (stable P) then out else out ++ [ref]) []

/-- The place of a level among the levels; what is none is at the bottom. -/
def confidenceRank (value : Option Json) : ℕ :=
  ((CONFIDENCE_ORDER.findIdx? fun level => isStr value level.text)).getD 0

def aggregateConfidence (candidates : List Json) : Json :=
  if candidates = [] then .str (js "low")
  else candidates.foldl (fun lowest candidate =>
    if confidenceRank (candidate.get (js "confidence")) < confidenceRank (some lowest) then
      (candidate.get (js "confidence")).getD .null
    else lowest) (.str (js "user_confirmed"))

/-- The candidate with the limitations of the report. -/
def limited (limitations : List JsString) (candidate : Json) : Json :=
  candidate.set (js "limitations") (.arr ((uniqueStrings P (asArray (candidate.get (js "limitations")) ++
    limitations.map .str)).map .str))

/-- `rootOf(value)`; a value with `undefined` in it, which stands as `null` here, is written by `JSON.stringify`. -/
def hashedValue (loose : Bool) (value : Json) : JsString := if loose then value.stringify P.toNumberFormat else hashedText P value

/-- `reportFrom(importer, sourceType, input, candidates, baseLimitations, options)`. -/
def reportFrom (importer sourceType : JsString) (input : Json) (loose : Bool) (candidates : List Json) (baseLimitations : List JsString)
    (options : ImportOptions) : Except JsError Json := do
  let evidence := completenessEvidence input
  let limitations := uniqueStrings P ((baseLimitations ++ completenessLimitations input).map .str)
  let memoryCandidates := candidates.map (limited P limitations)
  let vaultWrites ← writeCandidatesToVault P memoryCandidates options.vault
  let generatedAt ← nowFrom P options.now
  let identified := Json.obj [(js "importer", .str importer), (js "source", input), (js "memoryCandidates", .arr memoryCandidates)]
  return .obj [(js "schema", .str REPORT_SCHEMA),
    (js "report_id", .str (js "imp_" ++ (sha256Hex (hashedValue P loose identified)).take 32)), (js "importer", .str importer),
    (js "source_type", .str sourceType), (js "source_fingerprint", .str (prefixedSha256 (hashedValue P loose input))),
    (js "generated_at", .str generatedAt), (js "complete", .bool evidence.complete),
    (js "completeness", .str (if evidence.complete then js "explicit_complete" else js "partial_or_unknown")),
    (js "completeness_evidence", evidence.toJson), (js "recognized_candidate_count", .num memoryCandidates.length),
    (js "unsupported_item_count", .num evidence.unsupported_count),
    (js "private_plaintext_boundary", .obj [(js "contains_private_plaintext", .bool (!memoryCandidates.isEmpty)),
      (js "private_fields", .arr [.str (js "memory_candidates.content")]),
      (js "public_artifact_policy", .str (js "hashes_and_commitments_only"))]),
    (js "source_refs", .arr (uniqueSourceRefs P (memoryCandidates.flatMap fun candidate => asArray (candidate.get (js "source_refs"))))),
    (js "limitations", .arr (limitations.map .str)), (js "confidence", aggregateConfidence memoryCandidates),
    (js "memory_candidates", .arr memoryCandidates), (js "vault_writes", .arr vaultWrites)]

/-- `${folder}/${index}`. -/
def indexed (folder : String) (index : ℕ) : JsString := js folder ++ js "/" ++ P.numberText index

def scoreConfidence : Option Json → Json
  | some (.num score) => .str (if 0.8 ≤ score then js "high" else if 0.45 ≤ score then js "medium" else js "low")
  | _ => .str (js "medium")

/-- The drafts of the lines of a text. -/
def textDrafts (importer sourceType : String) (parsed : Json) : List Draft :=
  match parsed with
  | .str s => (textLines s).zipIdx.map fun (line, index) => {
      importer := js importer
      sourceType := js sourceType
      item := some (.str line)
      content := line
      path := indexed P "text" index
      id := none
      confidence := some (.str (js "low"))
      kind := .str (js "text_line")
      metadata := some (.obj [(js "text_import", .bool true)]) }
  | _ => []

/-! ## Curated text -/

def textMemoryItems (parsed : Json) : List Json :=
  if isRecord parsed then
    asArray (parsed.get (js "memories")) ++ asArray (parsed.get (js "memory")) ++ asArray (parsed.get (js "items")) ++
      asArray (parsed.get (js "notes"))
  else []

/-- The source that is reported; `complete` is `undefined` where it is not given. -/
def completeInput (parsed : Json) (options : ImportOptions) : Json :=
  match parsed with
  | .obj fs => .obj fs
  | .str s => .obj [(js "text", .str s), (js "complete", if options.complete then .bool true else .null)]
  | _ => .obj [(js "text", .str (stringValue P parsed)), (js "complete", if options.complete then .bool true else .null)]

def textMemoryDrafts (parsed : Json) (options : ImportOptions) : List Draft :=
  match textMemoryItems parsed with
  | [] =>
    (curatedTextLines (valueText P (orElse ((completeInput P parsed options).get (js "text")) (some parsed)))).zipIdx.map
      fun (line, index) => {
        importer := js "importTextMemoryList"
        sourceType := js "curated_text"
        item := some (.str line)
        content := line
        path := indexed P "lines" index
        id := none
        confidence := orElse options.confidence (some (.str (js "user_confirmed")))
        kind := .str (js "curated_note")
        metadata := some (.obj [(js "curated_text", .bool true), (js "line_index", .num index)]) }
  | items =>
    items.zipIdx.map fun (item, index) => {
      importer := js "importTextMemoryList"
      sourceType := js "curated_text"
      item := some item
      content := orText (firstString P item ["memory", "content", "text", "value", "summary", "note"]) (stringValue P item)
      path := indexed P "items" index
      id := firstOf [item.get (js "id"), item.get (js "memory_id"), item.get (js "key")]
      confidence := firstOf [item.get (js "confidence"), options.confidence, some (.str (js "user_confirmed"))]
      kind := given (item.get (js "kind")) (.str (js "fact"))
      metadata := some ((Json.obj item.fields).set (js "curated_text") (.bool true)) }

def textMemoryLimitations (parsed : Json) (options : ImportOptions) : List JsString :=
  collectLimitations P parsed (if options.complete || (isRecord parsed && explicitlyComplete parsed) then [] else [
    js "Curated text imports are local user-provided notes with unknown completeness unless --complete or an explicit complete flag is supplied",
    js "Each non-empty line is treated as a separate memory candidate unless the file is structured JSON with memories/items"])

def importTextMemoryList (input : Json) (options : ImportOptions) : Except JsError Json :=
  let parsed := parseMaybeJson P input
  let limitations := textMemoryLimitations P parsed options
  reportFrom P (js "importTextMemoryList") (js "curated_text") (completeInput P parsed options)
    (!isRecord parsed && !options.complete) ((textMemoryDrafts P parsed options).filterMap (makeCandidate P limitations)) limitations
    options

/-! ## ChatGPT -/

def chatGptItems (parsed : Json) : List Json :=
  asArray (parsed.get (js "memories")) ++ asArray (path (some parsed) ["memory", "items"]) ++
    asArray (parsed.get (js "user_memory")) ++ asArray (parsed.get (js "memory"))

structure ChatMessage where
  key : JsString
  role : Option Json
  message : Json
  content : JsString

/-- A message of a list, which cannot be `null`. -/
def listedMessage (message : Json) (index : ℕ) : Except JsError ChatMessage :=
  match message with
  | .null => .error ⟨.typeError, js "Cannot read properties of null (reading 'role')"⟩
  | message => .ok {
      key := P.numberText index
      role := orElse (message.get (js "role")) (path (some message) ["author", "role"])
      message := message
      content := valueText P (orElse (message.get (js "content")) (some message)) }

def pathsFromMapping (mapping : Option Json) : List ChatMessage :=
  ((mapping.map Json.fields).getD []).filterMap fun (key, node) =>
    match node.get (js "message") with
    | none => none
    | some message =>
      let content := valueText P (orElse (message.get (js "content")) (some message))
      if content = [] then none
      else some ⟨key, orElse (path (some message) ["author", "role"]) (message.get (js "role")), message, content⟩

def messagesOf (conversation : Json) : Except JsError (List ChatMessage) :=
  match conversation.get (js "messages") with
  | some (.arr messages) => messages.zipIdx.mapM fun (message, index) => listedMessage P message index
  | _ => .ok (pathsFromMapping P (conversation.get (js "mapping")))

/-- `message.role && message.role !== 'user'`. -/
def isOthers (message : ChatMessage) : Bool := truthy message.role && !isStr message.role (js "user")

def conversationDrafts (conversation : Json) (index : ℕ) : Except JsError (List Draft) := do
  let messages ← messagesOf P conversation
  return (messages.filter fun message => !isOthers message).map fun message => {
    importer := js "importChatGptExport"
    sourceType := js "chatgpt_export"
    item := some message.message
    content := message.content
    path := indexed P "conversations" index ++ js "/messages/" ++ message.key
    id := conversation.get (js "id")
    confidence := some (.str (js "low"))
    kind := .str (js "conversation_observation")
    metadata := some (.obj (field (js "conversation_id") (conversation.get (js "id")) ++
      [(js "role", given message.role (.str (js "unknown")))])) }

def chatGptDrafts (parsed : Json) : Except JsError (List Draft) := do
  let memories : List Draft := (chatGptItems parsed).zipIdx.map fun (item, index) => {
    importer := js "importChatGptExport"
    sourceType := js "chatgpt_export"
    item := some item
    content := orText (firstString P item ["memory", "content", "text", "value", "summary"]) (stringValue P item)
    path := indexed P "memories" index
    id := orElse (item.get (js "id")) (item.get (js "memory_id"))
    confidence := orElse (item.get (js "confidence")) (some (.str (js "medium")))
    kind := given (item.get (js "kind")) (.str (js "preference"))
    metadata := some item }
  let conversations ← (asArray (parsed.get (js "conversations"))).zipIdx.mapM fun (conversation, index) =>
    conversationDrafts P conversation index
  return memories ++ conversations.flatten ++ textDrafts P "importChatGptExport" "chatgpt_export" parsed

def importChatGptExport (input : Json) (options : ImportOptions) : Except JsError Json := do
  let parsed := parseMaybeJson P input
  let limitations := collectLimitations P parsed [
    js "ChatGPT exports may omit deleted chats, disabled memory, workspace policy state, and server-side personalization not present in the file",
    js "conversation-derived candidates are inferred from transcript text and are not equivalent to provider-native memory assertions"]
  let drafts ← chatGptDrafts P parsed
  reportFrom P (js "importChatGptExport") (js "chatgpt_export") parsed false (drafts.filterMap (makeCandidate P limitations)) limitations
    options

/-! ## Claude -/

def claudeItems (parsed : Json) : List Json :=
  asArray (parsed.get (js "memories")) ++ asArray (parsed.get (js "memory")) ++ asArray (parsed.get (js "preferences")) ++
    asArray (parsed.get (js "facts")) ++ asArray (parsed.get (js "entries"))

def claudeDrafts (parsed : Json) : List Draft :=
  ((claudeItems parsed).zipIdx.map fun (item, index) => {
    importer := js "importClaudeMemory"
    sourceType := js "claude_memory"
    item := some item
    content := orText (firstString P item ["memory", "content", "text", "value", "fact", "preference"]) (stringValue P item)
    path := indexed P "entries" index
    id := orElse (item.get (js "id")) (item.get (js "uuid"))
    confidence := orElse (item.get (js "confidence")) (some (.str (js "medium")))
    kind := given (item.get (js "kind")) (.str (js "preference"))
    metadata := some item }) ++ textDrafts P "importClaudeMemory" "claude_memory" parsed

def importClaudeMemory (input : Json) (options : ImportOptions) : Except JsError Json :=
  let parsed := parseMaybeJson P input
  let limitations := collectLimitations P parsed [
    js "Claude memory exports may be workspace-scoped and can omit deleted, expired, or policy-hidden memories",
    js "project instructions and conversation context are not proof of durable memory unless exported as explicit memory records"]
  reportFrom P (js "importClaudeMemory") (js "claude_memory") parsed false
    ((claudeDrafts P parsed).filterMap (makeCandidate P limitations)) limitations options

/-! ## Mem0 -/

def mem0Items (parsed : Json) : List Json :=
  asArray (parsed.get (js "memories")) ++ asArray (parsed.get (js "results")) ++ asArray (parsed.get (js "items")) ++
    asArray (some parsed)

def mem0Drafts (parsed : Json) : List Draft :=
  (mem0Items parsed).zipIdx.map fun (item, index) => {
    importer := js "importMem0Export"
    sourceType := js "mem0_export"
    item := some item
    content := orText (firstString P item ["memory", "content", "text", "value"]) (stringValue P item)
    path := indexed P "memories" index
    id := orElse (item.get (js "id")) (item.get (js "memory_id"))
    confidence := orElse (item.get (js "confidence"))
      (some (if (item.get (js "score")).isNone then .str (js "medium") else scoreConfidence (item.get (js "score"))))
    kind := given (item.get (js "kind")) (.str (js "fact"))
    metadata := some ((normalizeMetadata P (some item) []).spread
      (.obj (field (js "user_id") (item.get (js "user_id")) ++ field (js "agent_id") (item.get (js "agent_id"))))) }

def importMem0Export (input : Json) (options : ImportOptions) : Except JsError Json :=
  let parsed := parseMaybeJson P input
  let limitations := collectLimitations P parsed [
    js "Mem0 exports preserve exported records only; scoring, deduplication, deletion history, and application-specific filters may not be complete",
    js "Mem0 provider-native memory remains a cache and is not canonical custody after import"]
  reportFrom P (js "importMem0Export") (js "mem0_export") parsed false ((mem0Drafts P parsed).filterMap (makeCandidate P limitations))
    limitations options

/-! ## Letta -/

def lettaBlocks (parsed : Json) : List Json :=
  asArray (path (some parsed) ["memory", "blocks"]) ++ asArray (parsed.get (js "memory_blocks")) ++
    asArray (parsed.get (js "core_memory")) ++ asArray (path (some parsed) ["agent_state", "memory", "blocks"])

def lettaArchival (parsed : Json) : List Json :=
  asArray (parsed.get (js "archival_memory")) ++ asArray (parsed.get (js "archivalMemory")) ++
    asArray (path (some parsed) ["agent_state", "archival_memory"])

def lettaDrafts (parsed : Json) : List Draft :=
  let agentId := orElse (parsed.get (js "id")) (parsed.get (js "agent_id"))
  ((lettaBlocks parsed).zipIdx.map fun (block, index) => {
    importer := js "importLettaAgentFile"
    sourceType := js "letta_agent_file"
    item := some block
    content := orText (firstString P block ["value", "content", "text", "memory"]) (stringValue P block)
    path := indexed P "memory_blocks" index
    id := orElse (block.get (js "id")) (block.get (js "label"))
    confidence := some (.str (js "medium"))
    kind := given (orElse (block.get (js "label")) (block.get (js "name"))) (.str (js "agent_memory_block"))
    metadata := some (.obj (field (js "label") (orElse (block.get (js "label")) (block.get (js "name"))) ++
      field (js "agent_id") agentId)) }) ++
  (lettaArchival parsed).zipIdx.map fun (entry, index) => {
    importer := js "importLettaAgentFile"
    sourceType := js "letta_agent_file"
    item := some entry
    content := orText (firstString P entry ["text", "content", "memory", "value"]) (stringValue P entry)
    path := indexed P "archival_memory" index
    id := entry.get (js "id")
    confidence := some (.str (js "medium"))
    kind := .str (js "archival_memory")
    metadata := some (.obj (field (js "agent_id") agentId)) }

def importLettaAgentFile (input : Json) (options : ImportOptions) : Except JsError Json :=
  let parsed := parseMaybeJson P input
  let limitations := collectLimitations P parsed [
    js "Letta agent files describe one exported agent state and may not include full external tool state, deleted archival rows, or recall history outside the file",
    js "agent memory blocks can be prompts or instructions; they are imported as candidates rather than confirmed personal facts"]
  reportFrom P (js "importLettaAgentFile") (js "letta_agent_file") parsed false
    ((lettaDrafts P parsed).filterMap (makeCandidate P limitations)) limitations options

/-! ## LangGraph -/

def langGraphItems (parsed : Json) : List Json :=
  asArray (parsed.get (js "items")) ++ asArray (parsed.get (js "store")) ++ asArray (parsed.get (js "records")) ++
    asArray (some parsed)

/-- `item?.value ?? item?.document ?? item`. -/
def langGraphValue (item : Json) : Json := (firstOf [item.get (js "value"), item.get (js "document"), some item]).getD .null

/-- The namespace of an item, an array of it joined with slashes. -/
def langGraphNamespace (item : Json) : Option Json :=
  match item.get (js "namespace") with
  | some (.arr xs) => some (.str (List.intercalate (js "/") (toTextItems P.toNumberFormat xs)))
  | namespace? => namespace?

def langGraphDrafts (parsed : Json) : List Draft :=
  (langGraphItems parsed).zipIdx.map fun (item, index) => {
    importer := js "importLangGraphStore"
    sourceType := js "langgraph_store"
    item := some item
    content := orText (firstString P (langGraphValue item) ["memory", "content", "text", "summary", "value"])
      (stringValue P (langGraphValue item))
    path := indexed P "items" index
    id := orElse (item.get (js "key")) (item.get (js "id"))
    confidence := orElse (item.get (js "confidence")) (some (.str (js "low")))
    kind := given (item.get (js "kind")) (.str (js "store_value"))
    metadata := some (.obj (field (js "namespace") (langGraphNamespace P item) ++ field (js "key") (item.get (js "key")))) }

def importLangGraphStore (input : Json) (options : ImportOptions) : Except JsError Json :=
  let parsed := parseMaybeJson P input
  let limitations := collectLimitations P parsed [
    js "LangGraph store exports reflect selected namespaces only; TTL, tombstones, checkpointer state, and application-level filters may be absent",
    js "stored values are schema-flexible, so non-memory application state is imported only as low-confidence candidates when it contains text"]
  reportFrom P (js "importLangGraphStore") (js "langgraph_store") parsed false
    ((langGraphDrafts P parsed).filterMap (makeCandidate P limitations)) limitations options

/-! ## Zep -/

def graphEdgeText (edge : Json) : JsString :=
  if isRecord edge then
    List.intercalate [32] ([valueText P (firstOf [edge.get (js "source"), edge.get (js "source_node"), edge.get (js "from")]),
      valueText P (firstOf [edge.get (js "relation"), edge.get (js "name"), edge.get (js "predicate")]),
      valueText P (firstOf [edge.get (js "target"), edge.get (js "target_node"), edge.get (js "to")])].filter (· ≠ []))
  else []

def zepNodes (parsed : Json) : List Json :=
  asArray (parsed.get (js "nodes")) ++ asArray (parsed.get (js "entities")) ++ asArray (parsed.get (js "episodes"))

def zepEdges (parsed : Json) : List Json :=
  asArray (parsed.get (js "edges")) ++ asArray (parsed.get (js "relations")) ++ asArray (parsed.get (js "facts"))

def ZEP_CONTENT_FIELDS : List String := ["fact", "summary", "description", "content", "text", "name"]

def zepDrafts (parsed : Json) : List Draft :=
  ((zepNodes parsed).zipIdx.map fun (node, index) => {
    importer := js "importZepGraphitiExport"
    sourceType := js "zep_graphiti_export"
    item := some node
    content := orText (firstString P node ZEP_CONTENT_FIELDS) (stringValue P node)
    path := indexed P "nodes" index
    id := firstOf [node.get (js "uuid"), node.get (js "id"), node.get (js "name")]
    confidence := orElse (node.get (js "confidence")) (some (scoreConfidence (node.get (js "score"))))
    kind := given (node.get (js "type")) (.str (js "graph_node"))
    metadata := some (.obj (field (js "uuid") (node.get (js "uuid")) ++ field (js "group_id") (node.get (js "group_id")) ++
      field (js "valid_at") (node.get (js "valid_at")))) }) ++
  (zepEdges parsed).zipIdx.map fun (edge, index) => {
    importer := js "importZepGraphitiExport"
    sourceType := js "zep_graphiti_export"
    item := some edge
    content := orText (firstString P edge ZEP_CONTENT_FIELDS) (graphEdgeText P edge)
    path := indexed P "edges" index
    id := orElse (edge.get (js "uuid")) (edge.get (js "id"))
    confidence := orElse (edge.get (js "confidence")) (some (scoreConfidence (edge.get (js "score"))))
    kind := given (edge.get (js "type")) (.str (js "graph_edge"))
    metadata := some (.obj (field (js "uuid") (edge.get (js "uuid")) ++ field (js "source") (edge.get (js "source")) ++
      field (js "target") (edge.get (js "target")))) }

def importZepGraphitiExport (input : Json) (options : ImportOptions) : Except JsError Json :=
  let parsed := parseMaybeJson P input
  let limitations := collectLimitations P parsed [
    js "Zep Graphiti exports are graph projections; extracted facts may omit original conversation turns, temporal invalidations, and edge provenance not included in the export",
    js "graph entities and edges are imported as candidates, not as proof that the source conversation remains complete"]
  reportFrom P (js "importZepGraphitiExport") (js "zep_graphiti_export") parsed false
    ((zepDrafts P parsed).filterMap (makeCandidate P limitations)) limitations options

end EnigmaMemory.Importers
