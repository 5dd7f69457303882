import EnigmaMemory.Lib.Ordered
import EnigmaMemory.Spec.Optimizer
import EnigmaMemory.Spec.VerifyPack

/-!
# The optimizer of context packs

The part of `compileContextPack` that chooses the memories by a plan: the candidates come from the vault, those
that have nothing to do with the query are left out, and the items of the plan are taken in their order as long
as the token budget lasts. What is chosen is planned again, for the plan that the pack carries.
-/

namespace EnigmaMemory

namespace PackOptimizer

open Json MemoryPlan

variable (P : Platform)

/-! ## Relevance -/

def queryRelevanceStopwords : List JsString :=
  ["about", "after", "again", "against", "also", "and", "any", "are", "assistant", "because", "been", "before", "being",
    "between", "can", "could", "current", "does", "from", "has", "have", "how", "into", "its", "latest", "more", "most",
    "number", "own", "owns", "please", "should", "that", "the", "their", "then", "there", "these", "they", "this", "use",
    "using", "was", "what", "when", "where", "which", "who", "whose", "why", "with", "would"].map js

def addMeaningfulToken (tokens : OrdSet JsString) (token : JsString) : OrdSet JsString :=
  if token.length < 3 ∨ token.any isLowerUnit = false ∨ token ∈ queryRelevanceStopwords then tokens else tokens.add token

/-- `-` or `_`. -/
def isJoiner (c : CodeUnit) : Bool := c == 45 || c == 95

def isAlnum (c : CodeUnit) : Bool := isLowerUnit c || isDigitUnit c

/-- The matches of `/[a-z0-9]+(?:[-_][a-z0-9]+)*/`; `word` is what has been read of one. -/
def tokenMatches : JsString → JsString → List JsString
  | word, [] => if word.isEmpty then [] else [word]
  | word, c :: rest =>
    if isAlnum c || (isJoiner c && !word.isEmpty && rest.head?.any isAlnum) then tokenMatches (word ++ [c]) rest
    else if word.isEmpty then tokenMatches [] rest else word :: tokenMatches [] rest

/-- The parts between joiners. -/
def tokenParts (token : JsString) : List JsString := token.splitOnP isJoiner

def addToken (tokens : OrdSet JsString) (token : JsString) : OrdSet JsString :=
  if token.any isJoiner then (tokenParts token).foldl addMeaningfulToken (addMeaningfulToken tokens token)
  else addMeaningfulToken tokens token

/-- `meaningfulTokensFrom(value)`, added to a set. -/
def addTokensFromValue (tokens : OrdSet JsString) (value : Option Json) : OrdSet JsString :=
  match value with
  | none | some .null => tokens
  | some v => (tokenMatches [] (toLowerCase (v.toText P.toNumberFormat))).foldl addToken tokens

/-- A memory that may go into a pack. -/
structure PackCandidate where
  address : JsString
  content : JsString
  importance : Option ℚ
  last_accessed_at : Option Json
  kind : Option Json
  sensitivity : Option Json
  purpose_tags : Json
  source_refs : List Json

def PackCandidate.toJson (c : PackCandidate) : Json :=
  .obj ([(js "address", .str c.address), (js "content", .str c.content)]
    ++ Json.field (js "importance") (c.importance.map .num)
    ++ Json.field (js "last_accessed_at") c.last_accessed_at
    ++ [(js "metadata", .obj (Json.field (js "kind") c.kind ++ Json.field (js "sensitivity") c.sensitivity
      ++ [(js "purpose_tags", c.purpose_tags), (js "source_refs", .arr c.source_refs)]))])

def candidateRelevanceTokens (candidate : PackCandidate) : Except JsError (OrdSet JsString) := do
  let tags ← iterate (some candidate.purpose_tags)
  let tokens := addTokensFromValue P (addTokensFromValue P .empty (some (.str candidate.content))) candidate.kind
  return tags.foldl (fun tokens tag => addTokensFromValue P tokens (some tag)) tokens

def tokenOverlapScore (queryTokens memoryTokens : OrdSet JsString) : ℚ :=
  if queryTokens.size = 0 then 0
  else Double.round ((queryTokens.elems.countP memoryTokens.has : ℚ) / queryTokens.size)

/-- `args.a === value || args.b === value`. -/
def isSet (options : Json) (names : List String) (value : Json) : Bool :=
  names.any fun name => strictEq (options.get (js name)) (some value)

/-- The query without the white space around it. -/
def trimmedQuery (query : Option Json) : JsString := trim ((withDefault query (.str [])).toText P.toNumberFormat)

def strictQueryRelevance (options : Json) (query : Option Json) : Bool :=
  if isSet options ["include_unrelated", "includeUnrelated"] (.bool true) then false
  else if isSet options ["no_strict_relevance", "noStrictRelevance"] (.bool true) then false
  else if isSet options ["strict_relevance", "strictRelevance"] (.bool false) then false
  else if isSet options ["require_relevance", "requireRelevance"] (.bool false) then false
  else if isSet options ["query_relevance", "queryRelevance"] (.str (js "fallback")) then false
  else if isSet options ["strict_relevance", "strictRelevance"] (.bool true) then true
  else if isSet options ["require_relevance", "requireRelevance"] (.bool true) then true
  else if isSet options ["query_relevance", "queryRelevance"] (.str (js "strict")) then true
  else !(trimmedQuery P query).isEmpty

/-- A candidate with its relevance, if it has any. -/
def relevantCandidate (queryTokens : OrdSet JsString) (candidate : PackCandidate) :
    Except JsError (Option PackCandidate) := do
  let tokens ← candidateRelevanceTokens P candidate
  let relevance := tokenOverlapScore queryTokens tokens
  return if 0 < relevance then some { candidate with importance := some (max (candidate.importance.getD 0) relevance) }
    else none

def queryTokens (query : Option Json) : OrdSet JsString := addTokensFromValue P .empty (some (.str (trimmedQuery P query)))

/-- `relevanceCandidateSet`, for a pack whose memories are not listed by the caller. -/
def relevanceCandidateSet (options : Json) (query : Option Json) (candidates : List PackCandidate) :
    Except JsError (List PackCandidate) :=
  if (trimmedQuery P query).isEmpty || (queryTokens P query).size == 0 then .ok candidates
  else do
    let relevant ← candidates.mapM (relevantCandidate P (queryTokens P query))
    return if !(relevant.filterMap id).isEmpty then relevant.filterMap id
      else if strictQueryRelevance P options query then [] else candidates

/-! ## Candidates and plans -/

def optimizerEnabled (options : Json) : Bool :=
  isSet options ["optimize", "optimize_context", "optimizeContext"] (.bool true)
    || ["max_estimated_tokens", "maxEstimatedTokens", "pricing", "price_per_million_tokens", "pricePerMillionTokens"].any
      fun name => (options.get (js name)).isSome

-- a price that is no number is passed on as one that the plan refuses
def contextPackPricing (options : Json) : Option Json :=
  match firstOf [options.get (js "pricing"), options.get (js "price"), options.get (js "price_per_million_tokens"),
      options.get (js "pricePerMillionTokens")] with
  | none | some .null | some (.str []) => none
  | some (.obj fs) => some (.obj fs)
  | some (.arr xs) => some (.arr xs)
  | some price => some (.obj [(js "price_per_million_tokens", ((finiteNumber P (some price)).map .num).getD (.str (js "NaN"))),
      (js "currency", withDefault (options.get (js "currency")) (.str (js "USD")))])

/-- The number in a field, if it is one. -/
def numberField (record : Json) (key : String) : Option ℚ :=
  match record.get (js key) with
  | some (.num q) => some q
  | _ => none

def optimizationCandidateFrom (vault : Vault) (memoryAddr : JsString) : Except JsError (Option PackCandidate) :=
  if !isActive (vault.memories.get memoryAddr) then .ok none
  else do
    let record := (vault.memories.get memoryAddr).getD .null
    let content ← decryptContent P vault record
    return some {
      address := memoryAddr
      content := content
      importance := (numberField record "importance").or (numberField record "confidence")
      last_accessed_at := Json.orElse (record.get (js "updated_at")) (record.get (js "created_at"))
      kind := record.get (js "kind")
      sensitivity := record.get (js "sensitivity")
      purpose_tags := withDefault (record.get (js "purpose_tags")) (.arr [])
      source_refs := sanitizeSourceRefs P.toNumberFormat passportPlaintextKeys (record.get (js "source_refs")) }

/-- `String(now)` of a pack's date; that of a `Date` leaves out the milliseconds. -/
def nowText : Now → Option Json
  | .absent => none
  | .text s => some (.str s)
  | .date (some t) => some (.str (P.isoText (t / 1000 * 1000)))
  | .date none => some (.str (js "Invalid Date"))

/-- What a plan is made from besides the candidates. -/
structure PlanRequest where
  options : Json
  query : Option Json
  now : Now

/-- The options object of `createMemoryOptimizationPlan`. -/
def planInput (r : PlanRequest) : Json :=
  .obj ([(js "candidates", .arr []), (js "prompt", withDefault r.query (.str []))]
    ++ Json.field (js "pricing") (contextPackPricing P r.options) ++ Json.field (js "now") (nowText P r.now)
    ++ Json.field (js "default_importance")
      (firstOf [r.options.get (js "default_importance"), r.options.get (js "defaultImportance")]))

-- a field of the metadata that is `undefined` cannot be encoded
def planOfMemories (r : PlanRequest) (candidates : List PackCandidate) : Except JsError Json := do
  let _ ← normalizePlanOptions P (planInput P r)
  if candidates.any fun c => c.kind.isNone || c.sensitivity.isNone then
    throw (invalid (js "canonical JSON cannot encode undefined"))
  createMemoryOptimizationPlan P ((planInput P r).set (js "candidates") (.arr (candidates.map PackCandidate.toJson)))

/-! ## The selection -/

/-- `max_estimated_tokens`. -/
def maxTokens (options : Json) : Except JsError (Option ℚ) :=
  match Json.orElse (options.get (js "max_estimated_tokens")) (options.get (js "maxEstimatedTokens")) with
  | none => .ok none
  | some v =>
    match finiteNumber P (some v) with
    | some q => if 0 ≤ q then .ok (some q) else .error ⟨.error, js "max_estimated_tokens must be a non-negative number"⟩
    | none => .error ⟨.error, js "max_estimated_tokens must be a non-negative number"⟩

/-- The address of an item and what it costs. -/
def itemCost (item : Json) : JsString × ℚ :=
  (match item.get (js "address") with
    | some (.str s) => s
    | _ => [],
   match item.get (js "optimized_prompt_tokens") with
    | some (.num q) => q
    | _ => 0)

/-- `plan.items`. -/
def planItemsOf (plan : Json) : List Json :=
  match plan.get (js "items") with
  | some (.arr items) => items
  | _ => []

/-- The loop over the items: those that fit are selected. -/
def selectItems (limit : ℕ) (budget : Option ℚ) : List (JsString × ℚ) → List JsString → ℚ → List JsString
  | [], selected, _ => selected
  | (address, cost) :: rest, selected, used =>
    if limit ≤ selected.length then selected
    else if budget.any fun m => decide (m < Double.round (used + cost)) then selectItems limit budget rest selected used
    else selectItems limit budget rest (selected ++ [address]) (Double.round (used + cost))

/-- The candidates that a plan is made of: the relevant ones, unless the caller has listed the memories. -/
def planCandidates (r : PlanRequest) (explicit : Bool) (candidates : List PackCandidate) : Except JsError (List PackCandidate) :=
  if explicit then .ok candidates else relevanceCandidateSet P r.options r.query candidates

/-- The addresses selected from a plan. -/
def selectedFrom (r : PlanRequest) (limit : ℕ) (budget : Option ℚ) (plan : Json) : List JsString :=
  selectItems limit budget ((planItemsOf plan).map itemCost) [] (estimateTextTokens P (some (withDefault r.query (.str []))))

def optimizedSelectionFrom (vault : Vault) (r : PlanRequest) (explicit : Bool) (candidateAddresses : List JsString)
    (limit : ℕ) : Except JsError (List JsString × Json) := do
  let found ← candidateAddresses.mapM (optimizationCandidateFrom P vault)
  let candidates ← planCandidates P r explicit (found.filterMap id)
  let plan ← planOfMemories P r candidates
  let budget ← maxTokens P r.options
  let selectedPlan ← planOfMemories P r
    (candidates.filter fun c => decide (c.address ∈ selectedFrom P r limit budget plan))
  return (selectedFrom P r limit budget plan, selectedPlan)

/-- The options of the receipt for an item of a plan. -/
def receiptInput (plan item : Json) (generatedAt : JsString) (sequence : ℕ) : Json :=
  .obj ([(js "item", item), (js "plan", plan), (js "timestamp", .str generatedAt), (js "sequence", .num sequence)]
    ++ Json.field (js "pricing") (plan.get (js "pricing")))

/-- The receipts of the items of a plan. -/
def planReceipts (plan : Json) (generatedAt : JsString) : Except JsError (List Json) :=
  (planItemsOf plan).zipIdx.mapM fun item => createMemoryAccessReceipt P (receiptInput plan item.1 generatedAt item.2)

/-- The optimizer for a call with the given options. -/
def optimizerFor (vault : Vault) (args : PackArgs) (options : Json) : Optimizer where
  select := optimizedSelectionFrom P vault ⟨options, args.query, args.now⟩ args.memory_addresses.isSome
  accessReceipts := planReceipts P

/-- `compileContextPack({ ...args, ...options })`: `options` are those that only the optimizer reads. -/
def compileOptimizedPack (env : Ambient) (args : PackArgs) (options : Json) : VaultM ContextPack := do
  let vault ← get
  compileContextPack P env { args with
    optimizer := if optimizerEnabled options then some (optimizerFor P vault args options) else none }

end PackOptimizer

end EnigmaMemory
