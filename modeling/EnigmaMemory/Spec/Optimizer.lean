import EnigmaMemory.Lib.Champions
import EnigmaMemory.Lib.Double
import EnigmaMemory.Spec.Numeric
import EnigmaMemory.Spec.Platform
import EnigmaMemory.Spec.Sanitize
import EnigmaMemory.Spec.Sha256

/-!
# The memory optimizer

`createMemoryOptimizationPlan` of `packages/optimizer`: candidates are normalized, one of them is
kept for each content hash, and those kept become the items of a plan, in the tier that their score gives.
`createMemoryAccessReceipt` is the receipt of one access to a memory.

Arithmetic is that of doubles: a result out of range is infinite, which the plan cannot encode.
-/

namespace EnigmaMemory

namespace MemoryPlan

open Json

variable (P : Platform)

def invalid (message : JsString) : JsError := ⟨.typeError, message⟩

/-! ## Numbers -/

/-- `Number(value)`, when finite. -/
def finiteNumber (value : Option Json) : Option ℚ :=
  match toNumeric P.toNumberFormat value with
  | .finite q => if Double.inRange (Double.round q) then some (Double.round q) else none
  | _ => none

/-- `Number.EPSILON`. -/
def epsilon : ℚ := 1 / 2 ^ 52

/-- `Math.round(x)`. -/
def mathRound (x : ℚ) : ℤ := ⌊x + 1 / 2⌋

def round6 (value : ℚ) : ℚ := Double.round (mathRound (Double.round (Double.round (value + epsilon) * 1000000)) / 1000000)

def clamp01 (value : ℚ) : ℚ := max 0 (min 1 value)

/-! ## Options -/

/-- `undefined`, `null` or the empty string. -/
def isBlank : Option Json → Bool
  | none | some .null | some (.str []) => true
  | _ => false

def numberOrDefault (value : Option Json) (fallback : ℚ) : Except JsError ℚ :=
  if isBlank value then .ok fallback
  else
    match finiteNumber P value with
    | some q => .ok q
    | none => .error (invalid (js "value must be a finite number"))

def nonNegativeInteger (value : Option Json) (name : String) : Except JsError ℚ :=
  match finiteNumber P value with
  | some q => if q.den = 1 ∧ 0 ≤ q then .ok q else .error (invalid (js name ++ js " must be a non-negative integer"))
  | none => .error (invalid (js name ++ js " must be a non-negative integer"))

def nonNegativeNumber (value : Option Json) (name : String) : Except JsError ℚ :=
  match finiteNumber P value with
  | some q => if 0 ≤ q then .ok q else .error (invalid (js name ++ js " must be a non-negative number"))
  | none => .error (invalid (js name ++ js " must be a non-negative number"))

def stringOrDefault (value : Option Json) (fallback : JsString) : JsString :=
  if isBlank value then fallback else (value.getD .null).toText P.toNumberFormat

/-- `Date.UTC(2026, 0, 1)`. -/
def defaultReferenceTime : ℤ := 1767225600000

def referenceTimeMs (value : Option Json) : Except JsError ℤ :=
  if isBlank value then .ok defaultReferenceTime
  else
    match P.parseDate ((value.getD .null).toText P.toNumberFormat) with
    | some t => .ok t
    | none => .error (invalid (js "reference_time must be an ISO timestamp"))

structure PlanOptions where
  defaultImportance : ℚ
  referenceTimeMs : ℤ
  hotThreshold : ℚ
  warmThreshold : ℚ
  coldThreshold : ℚ
  warmTokenRatio : ℚ
  coldPointerTokens : ℚ
  proofOnlyTokens : ℚ

def normalizePlanOptions (args : Json) : Except JsError PlanOptions := do
  let defaultImportance ← numberOrDefault P (firstOf [args.get (js "default_importance"), args.get (js "defaultImportance")])
    (Double.round (1 / 2))
  let reference ← referenceTimeMs P
    (firstOf [args.get (js "reference_time"), args.get (js "referenceTime"), args.get (js "now")])
  let hotThreshold ← numberOrDefault P (firstOf [args.get (js "hot_threshold"), args.get (js "hotThreshold")])
    (Double.round (72 / 100))
  let warmThreshold ← numberOrDefault P (firstOf [args.get (js "warm_threshold"), args.get (js "warmThreshold")])
    (Double.round (45 / 100))
  let coldThreshold ← numberOrDefault P (firstOf [args.get (js "cold_threshold"), args.get (js "coldThreshold")])
    (Double.round (2 / 10))
  let warmTokenRatio ← nonNegativeNumber P
    (firstOf [args.get (js "warm_token_ratio"), args.get (js "warmTokenRatio"), some (.num (35 / 100))]) "warm_token_ratio"
  let coldPointerTokens ← nonNegativeInteger P
    (firstOf [args.get (js "cold_pointer_tokens"), args.get (js "coldPointerTokens"), some (.num 24)]) "cold_pointer_tokens"
  let proofOnlyTokens ← nonNegativeInteger P
    (firstOf [args.get (js "proof_only_tokens"), args.get (js "proofOnlyTokens"), some (.num 8)]) "proof_only_tokens"
  return ⟨clamp01 defaultImportance, reference, clamp01 hotThreshold, clamp01 warmThreshold, clamp01 coldThreshold,
    warmTokenRatio, coldPointerTokens, proofOnlyTokens⟩

/-! ## Tokens -/

/-- A letter, a digit or `_`. -/
def isAsciiWord (c : CodeUnit) : Bool := isDigitUnit c || isUpperUnit c || isLowerUnit c || c == 95

/-- The tokens of a word of the given length, none if there is none. -/
def wordTokens (length : ℕ) : ℕ := if length = 0 then 0 else max 1 ((length + 3) / 4)

/-- The loop of `estimateTextTokens`, inside a word of which `length` units have been read. -/
def countTokens : ℕ → JsString → ℕ
  | length, [] => wordTokens length
  | length, c :: rest =>
    if isAsciiWord c then countTokens (length + 1) rest
    else wordTokens length + (if 32 < c then 1 else 0) + countTokens 0 rest

def estimateTextTokens (text : Option Json) : ℕ :=
  match text with
  | none | some .null => 0
  | some v => countTokens 0 (v.toText P.toNumberFormat)

/-! ## Candidates -/

def isHexUnit (c : CodeUnit) : Bool := decide (48 ≤ c ∧ c ≤ 57 ∨ 97 ≤ c ∧ c ≤ 102 ∨ 65 ≤ c ∧ c ≤ 70)

/-- 64 hexadecimal digits in either case. -/
def isHashText (s : JsString) : Bool := s.length == 64 && s.all isHexUnit

/-- `/^(?:sha256:)?[a-f0-9]{64}$/i`. -/
def hashRe (s : JsString) : Bool := isHashText s || ((s.take 7).flatMap lowerUnit == sha256Prefix && isHashText (s.drop 7))

-- a prefix that is not in lower case passes the pattern and is kept as part of the hash
def normalizeSha256Root (value : Json) (name : String) : Except JsError JsString :=
  let text := value.toText P.toNumberFormat
  if !hashRe text then .error (invalid (js name ++ js " must be a sha256 hash"))
  else if sha256Prefix.isPrefixOf text then .ok (sha256Prefix ++ toLowerCase (text.drop 7))
  else .ok (sha256Prefix ++ toLowerCase text)

def normalizeContentHash (value content : Option Json) : Except JsError JsString :=
  if !isBlank value then normalizeSha256Root P (value.getD .null) "content_hash"
  else
    match content with
    | none | some .null => .error (invalid (js "candidate requires content_hash or local content for hashing"))
    | some v => .ok (prefixedSha256 (v.toText P.toNumberFormat))

def disallowedPublicKeys : List JsString :=
  [js "body", js "candidate", js "candidates", js "content", js "contents", js "document", js "documents", js "message",
    js "messages", js "metadata", js "plain_text", js "plaintext", js "prompt", js "prompts", js "raw", js "raw_content",
    js "raw_memory", js "response", js "responses", js "text", js "transcript", js "value"]

def safePublicKeys : List JsString :=
  [js "content_hash", js "metadata_commitment", js "commitment", js "commitments", js "commitment_scheme",
    js "estimated_cost", js "estimated_tokens", js "baseline_prompt_tokens", js "optimized_prompt_tokens",
    js "total_estimated_tokens"]

def normalizePublicKey (key : JsString) : JsString := toLowerCase (trimUnderscores (underscoreRuns false (splitCamel key)))

/-- A key of raw memory. -/
def isRawKey (key : JsString) : Bool :=
  decide (normalizePublicKey key ∈ disallowedPublicKeys) && !decide (normalizePublicKey key ∈ safePublicKeys)

section
variable (F : NumberFormat)

mutual
/-- `redactForCommitment(value)`; `none` is an object that `canonicalize` refuses, because a
`__proto__` field has become its prototype. -/
def redactForCommitment : Json → Option Json
  | .arr xs => (redactItems xs).map .arr
  | .obj fs => (redactFields fs).map .obj
  | j => some j

def redactItems : List Json → Option (List Json)
  | [] => some []
  | x :: xs => (redactForCommitment x).bind fun y => (redactItems xs).map (y :: ·)

def redactFields : List (JsString × Json) → Option (List (JsString × Json))
  | [] => some []
  | (key, value) :: fs =>
    if isRawKey key then (redactFields fs).map ((key, .str (prefixedSha256 (value.canonicalize F))) :: ·)
    else if key = js "__proto__" then
      if isMetadataPrimitive value then redactFields fs else none
    else (redactForCommitment value).bind fun v => (redactFields fs).map ((key, v) :: ·)
end

end

/-- The commitment to the metadata of a candidate. -/
def metadataCommitment (metadata : Option Json) : Except JsError (Option JsString) :=
  match metadata with
  | none => .ok none
  | some value =>
    match redactForCommitment P.toNumberFormat value with
    | some redacted => .ok (some (prefixedSha256 (redacted.canonicalize P.toNumberFormat)))
    | none => .error (invalid (js "canonical JSON only accepts plain objects, arrays, and primitives"))

def estimateCandidateTokens (candidate : Json) : Except JsError ℚ :=
  let explicit := firstOf [candidate.get (js "estimated_tokens"), candidate.get (js "estimatedTokens"),
    candidate.get (js "token_count"), candidate.get (js "tokenCount"), path (some candidate) ["metadata", "estimated_tokens"],
    path (some candidate) ["metadata", "token_count"]]
  match explicit with
  | some v => nonNegativeInteger P (some v) "estimated_tokens"
  | none => .ok (estimateTextTokens P (candidate.get (js "content")))

def combinedScore (importance recency : ℚ) : ℚ :=
  clamp01 (Double.round (Double.round (importance * Double.round (7 / 10)) + Double.round (recency * Double.round (3 / 10))))

/-- `ageDays` of `recencyScore`. -/
def ageDays (accessed referenceTime : ℤ) : ℚ := Double.round (max 0 (Double.round (referenceTime - accessed)) / 86400000)

def recencyScore (value : Option Json) (referenceTime : ℤ) : ℚ :=
  if isBlank value then 0
  else
    match P.parseDate ((value.getD .null).toText P.toNumberFormat) with
    | none => 0
    | some accessed =>
      if ageDays accessed referenceTime ≤ 1 then 1
      else if 90 ≤ ageDays accessed referenceTime then 0
      else round6 (Double.round (1 - Double.round (ageDays accessed referenceTime / 90)))

/-- A candidate as `normalizeCandidate` returns it. -/
structure Candidate where
  address : JsString
  content_hash : JsString
  metadata_commitment : Option JsString
  estimated_tokens : ℚ
  importance : ℚ
  last_accessed_at : Json
  recency_score : ℚ

/-- The address of a candidate, or one from its content hash. -/
def candidateAddress (candidate : Json) (contentHash : JsString) : JsString :=
  if isBlank (candidate.get (js "address")) then js "mem_" ++ (contentHash.drop 7).take 16
  else ((candidate.get (js "address")).getD .null).toText P.toNumberFormat

def normalizeCandidate (options : PlanOptions) (candidate : Json) (index : ℕ) : Except JsError Candidate := do
  if !candidate.isPlainRecord then
    throw (invalid (js "candidate " ++ (P.numberText index ++ js " must be an object")))
  let contentHash ← normalizeContentHash P (Json.orElse (candidate.get (js "content_hash")) (candidate.get (js "contentHash")))
    (candidate.get (js "content"))
  let commitment ← metadataCommitment P (candidate.get (js "metadata"))
  let estimatedTokens ← estimateCandidateTokens P candidate
  let importance ← numberOrDefault P (candidate.get (js "importance")) options.defaultImportance
  let lastAccessedAt := Json.orElse (candidate.get (js "last_accessed_at")) (candidate.get (js "lastAccessedAt"))
  return {
    address := candidateAddress P candidate contentHash
    content_hash := contentHash
    metadata_commitment := commitment
    estimated_tokens := estimatedTokens
    importance := clamp01 importance
    last_accessed_at := lastAccessedAt.getD .null
    recency_score := recencyScore P lastAccessedAt options.referenceTimeMs }

def compareStrings (left right : JsString) : ℚ := if left < right then -1 else if right < left then 1 else 0

/-- The score of a normalized candidate. -/
def Candidate.score (c : Candidate) : ℚ := combinedScore c.importance c.recency_score

def compareCandidatePreference (left right : Candidate) : ℚ :=
  if left.score ≠ right.score then right.score - left.score
  else if left.estimated_tokens ≠ right.estimated_tokens then right.estimated_tokens - left.estimated_tokens
  else compareStrings left.address right.address

/-- The candidate takes the place of the one that has its content hash. -/
def replaces (normalized current : Candidate) : Bool := decide (compareCandidatePreference normalized current < 0)

def normalizeCandidates (options : PlanOptions) (candidates : List Json) : Except JsError (List Candidate) :=
  candidates.zipIdx.mapM fun c => normalizeCandidate P options c.1 c.2

def dedupeCandidates (options : PlanOptions) (candidates : List Json) : Except JsError (List Candidate) :=
  (normalizeCandidates P options candidates).map (Champions.champions Candidate.content_hash replaces)

/-! ## Items -/

inductive Tier where
  | hot
  | warm
  | cold
  | proof_only
  deriving DecidableEq, Repr

def Tier.name : Tier → JsString
  | .hot => js "hot"
  | .warm => js "warm"
  | .cold => js "cold"
  | .proof_only => js "proof_only"

/-- `TIER_RANK`. -/
def Tier.rank : Tier → ℚ
  | .hot => 0
  | .warm => 1
  | .cold => 2
  | .proof_only => 3

def tierForScore (options : PlanOptions) (score : ℚ) : Tier :=
  if options.hotThreshold ≤ score then .hot
  else if options.warmThreshold ≤ score then .warm
  else if options.coldThreshold ≤ score then .cold
  else .proof_only

def optimizedTokensForTier (options : PlanOptions) (tokens : ℚ) : Tier → ℚ
  | .hot => tokens
  | .warm => min tokens ⌈Double.round (tokens * options.warmTokenRatio)⌉
  | .cold => min tokens options.coldPointerTokens
  | .proof_only => min tokens options.proofOnlyTokens

/-- An item of a plan, without its commitment. -/
structure PlanItem where
  address : JsString
  content_hash : JsString
  metadata_commitment : Option JsString
  tier : Tier
  estimated_tokens : ℚ
  optimized_prompt_tokens : ℚ

def planItemFromCandidate (options : PlanOptions) (candidate : Candidate) : PlanItem :=
  let tier := tierForScore options candidate.score
  { address := candidate.address
    content_hash := candidate.content_hash
    metadata_commitment := candidate.metadata_commitment
    tier := tier
    estimated_tokens := candidate.estimated_tokens
    optimized_prompt_tokens := optimizedTokensForTier options candidate.estimated_tokens tier }

/-- The fields of an item that its commitment is taken over. -/
def PlanItem.body (item : PlanItem) : Json :=
  .obj ([(js "address", .str item.address), (js "content_hash", .str item.content_hash)]
    ++ Json.field (js "metadata_commitment") (item.metadata_commitment.map .str)
    ++ [(js "tier", .str item.tier.name), (js "estimated_tokens", .num item.estimated_tokens),
      (js "optimized_prompt_tokens", .num item.optimized_prompt_tokens)])

def commitmentFor (value : Json) : JsString := prefixedSha256 (value.canonicalize P.toNumberFormat)

def PlanItem.toJson (item : PlanItem) : Json :=
  .obj (item.body.fields ++ [(js "commitment", .str (commitmentFor P item.body))])

def comparePlanItems (left right : PlanItem) : ℚ :=
  if left.tier.rank - right.tier.rank ≠ 0 then left.tier.rank - right.tier.rank
  else if left.optimized_prompt_tokens ≠ right.optimized_prompt_tokens then
    right.optimized_prompt_tokens - left.optimized_prompt_tokens
  else if left.estimated_tokens ≠ right.estimated_tokens then right.estimated_tokens - left.estimated_tokens
  else compareStrings left.content_hash right.content_hash

/-- `items.sort(comparePlanItems)`. -/
def sortItems (items : List PlanItem) : List PlanItem := items.insertionSort fun a b => comparePlanItems a b ≤ 0

/-! ## Prices -/

structure Pricing where
  currency : JsString
  price_per_million_tokens : ℚ

def normalizePricing (value : Option Json) (required : Bool) : Except JsError (Option Pricing) :=
  match value with
  | none | some .null =>
    if required then .error (invalid (js "pricing requires price_per_million_tokens")) else .ok none
  | some (.num q) => do return some ⟨js "USD", ← nonNegativeNumber P (some (.num q)) "price_per_million_tokens"⟩
  | some (.obj fs) => do
    let price ← nonNegativeNumber P (firstOf [(Json.obj fs).get (js "price_per_million_tokens"),
      (Json.obj fs).get (js "pricePerMillionTokens"), (Json.obj fs).get (js "input_price_per_million_tokens"),
      (Json.obj fs).get (js "inputPricePerMillionTokens")]) "price_per_million_tokens"
    return some ⟨stringOrDefault P ((Json.obj fs).get (js "currency")) (js "USD"), price⟩
  | some _ => .error (invalid (js "pricing must be an object or number"))

def Pricing.toJson (pricing : Pricing) : Json :=
  .obj [(js "currency", .str pricing.currency), (js "price_per_million_tokens", .num pricing.price_per_million_tokens)]

/-- `estimateTokenCost({ tokens, ...pricing }).estimated_cost`: the price is one that has been
checked, and the tokens are an integer unless they are out of range. -/
def estimateTokenCost (tokens : ℚ) (pricing : Pricing) : Except JsError ℚ :=
  if Double.inRange tokens then .ok (Double.round (Double.round (tokens / 1000000) * pricing.price_per_million_tokens))
  else .error (invalid (js "tokens must be a non-negative integer"))

def costOf (tokens : ℚ) : Option Pricing → Except JsError (Option ℚ)
  | none => .ok none
  | some pricing => (estimateTokenCost tokens pricing).map some

/-! ## The plan -/

section
variable (F : NumberFormat)

mutual
/-- `assertNoRawMemoryOutput(value)`: the path of the first field that would show raw memory. -/
def scanPublicOutput : Json → JsString → Option JsString
  | .arr xs, path => scanItems xs path 0
  | .obj fs, path => scanFields fs path
  | _, _ => none

def scanItems : List Json → JsString → ℕ → Option JsString
  | [], _, _ => none
  | x :: xs, path, index =>
    (scanPublicOutput x (path ++ 0x5B :: (F.numberText index ++ [0x5D]))).or (scanItems xs path (index + 1))

def scanFields : List (JsString × Json) → JsString → Option JsString
  | [], _ => none
  | (key, value) :: fs, path =>
    if isRawKey key then some (path ++ 0x2E :: key)
    else (scanPublicOutput value (path ++ 0x2E :: key)).or (scanFields fs path)
end

end

def assertNoRawMemoryOutput (value : Json) : Except JsError Json :=
  match scanPublicOutput P.toNumberFormat value (js "$") with
  | none => .ok value
  | some path => .error (invalid (js "public output contains raw memory field at " ++ path))

def productThesis : JsString :=
  js "Centralized high-performance memory optimization service; blockchain and permissionless rails are access, settlement, and proof anchoring boundaries only, not decentralized inference or decentralized memory storage."

def percentReduction (baseline optimized : ℚ) : ℚ :=
  if baseline = 0 then 0
  else round6 (max 0 (min 100 (Double.round (Double.round (Double.round (baseline - optimized) / baseline) * 100))))

/-- The prompt that all the items share. -/
def sharedTokens (args : Json) : Except JsError ℚ :=
  match firstOf [args.get (js "prompt_tokens"), args.get (js "promptTokens"), args.get (js "base_prompt_tokens"),
      args.get (js "basePromptTokens")] with
  | none => .ok (estimateTextTokens P
      (firstOf [args.get (js "prompt"), args.get (js "base_prompt"), args.get (js "basePrompt"), some (.str [])]))
  | some v => nonNegativeInteger P (some v) "prompt_tokens"

/-- What a plan says in figures. -/
structure Totals where
  pricing : Option Pricing
  baseline_prompt_tokens : ℚ
  optimized_prompt_tokens : ℚ
  baseline_cost : Option ℚ
  optimized_cost : Option ℚ
  input_candidates : ℕ
  deduped_candidates : ℕ

/-- The figures of a plan that `canonicalize` can encode. -/
def Totals.finite (t : Totals) : Bool :=
  Double.inRange t.baseline_prompt_tokens && Double.inRange t.optimized_prompt_tokens && t.baseline_cost.all Double.inRange
    && t.optimized_cost.all Double.inRange

def planTotals (args : Json) (inputCandidates : ℕ) (tokens : List (ℚ × ℚ)) : Except JsError Totals := do
  let shared ← sharedTokens P args
  let pricing ← normalizePricing P (firstOf [args.get (js "pricing"), args.get (js "price"),
    args.get (js "price_per_million_tokens"), args.get (js "pricePerMillionTokens")]) false
  let baselineCost ← costOf (Double.addUp shared (tokens.map Prod.fst)) pricing
  let optimizedCost ← costOf (Double.addUp shared (tokens.map Prod.snd)) pricing
  return ⟨pricing, Double.addUp shared (tokens.map Prod.fst), Double.addUp shared (tokens.map Prod.snd), baselineCost, optimizedCost,
    inputCandidates, tokens.length⟩

def optionalNumber : Option ℚ → Json
  | none => .null
  | some q => .num q

/-- The items of a tier. -/
def tierItems (items : List PlanItem) (tier : Tier) : Json := .arr ((items.filter (·.tier = tier)).map (PlanItem.toJson P))

/-- `orderPlan({ ...planBody, plan_id })`; a body has no `plan_id` yet. -/
def orderPlan (t : Totals) (items : List PlanItem) (planId : Option JsString) : Json :=
  .obj ([(js "schema", .str (js "enigma.memory_optimization_plan.v1")), (js "product_thesis", .str productThesis)]
    ++ Json.field (js "plan_id") (planId.map .str)
    ++ [(js "commitment_scheme", .str (js "sha256-canonical-json-v1")),
      (js "pricing", (t.pricing.map Pricing.toJson).getD .null),
      (js "baseline_prompt_tokens", .num t.baseline_prompt_tokens),
      (js "optimized_prompt_tokens", .num t.optimized_prompt_tokens),
      (js "baseline_cost", optionalNumber t.baseline_cost), (js "optimized_cost", optionalNumber t.optimized_cost),
      (js "savings_pct", .num (percentReduction t.baseline_prompt_tokens t.optimized_prompt_tokens)),
      (js "tiers", .obj [(js "hot", tierItems P items .hot), (js "warm", tierItems P items .warm),
        (js "cold", tierItems P items .cold), (js "proof_only", tierItems P items .proof_only)]),
      (js "items", .arr (items.map (PlanItem.toJson P))),
      (js "totals", .obj [(js "input_candidates", .num t.input_candidates), (js "deduped_candidates", .num t.deduped_candidates),
        (js "duplicates_removed", .num (t.input_candidates - t.deduped_candidates)),
        (js "total_estimated_tokens", .num t.baseline_prompt_tokens)])])

/-- `derivedPlanId`. -/
def derivedPlanId (t : Totals) (items : List PlanItem) : JsString :=
  js "mopt_" ++ (sha256Hex ((orderPlan P t items none).canonicalize P.toNumberFormat)).take 32

/-- `/^prefix_[a-f0-9]{32}$/`. -/
def isPrefixedId (kind : String) (s : JsString) : Bool :=
  (js kind ++ js "_").isPrefixOf s && isHexId (s.drop ((js kind).length + 1))
where
  isHexId (id : JsString) : Bool := id.length == 32 && id.all isHexDigit

def normalizePrefixedId (kind name : String) : Json → Except JsError JsString
  | .str s =>
    if s.isEmpty then .error (invalid (js name ++ js " must be a non-empty string"))
    else if isPrefixedId kind s then .ok s
    else .error (invalid (js name ++ js " must match " ++ js kind ++ js "_[a-f0-9]\x7b32\x7d"))
  | _ => .error (invalid (js name ++ js " must be a non-empty string"))

/-- The `plan_id` that the caller has chosen. -/
def givenPlanId (args : Json) : Except JsError (Option JsString) :=
  match Json.orElse (args.get (js "plan_id")) (args.get (js "planId")) with
  | none | some .null => .ok none
  | some id => (normalizePrefixedId "mopt" "plan_id" id).map some

/-- The plan of sorted items. -/
def planFromItems (args : Json) (inputCandidates : ℕ) (items : List PlanItem) : Except JsError Json := do
  let t ← planTotals P args inputCandidates (items.map fun item => (item.estimated_tokens, item.optimized_prompt_tokens))
  if !t.finite then throw (invalid (js "canonical JSON cannot encode non-finite numbers"))
  let given ← givenPlanId args
  assertNoRawMemoryOutput P (orderPlan P t items (some (given.getD (derivedPlanId P t items))))

def planItems (args : Json) (candidates : List Json) : Except JsError (List PlanItem) := do
  let options ← normalizePlanOptions P args
  let deduped ← dedupeCandidates P options candidates
  return sortItems (deduped.map (planItemFromCandidate options))

/-- The options object of a call, which may be the candidates alone. -/
def planArgs : Json → Json
  | .arr xs => .obj [(js "candidates", .arr xs)]
  | j => j

def createMemoryOptimizationPlan (input : Json) : Except JsError Json :=
  match planArgs input with
  | .obj fs =>
    match (Json.obj fs).get (js "candidates") with
    | some (.arr candidates) => do
      let items ← planItems P (.obj fs) candidates
      planFromItems P (.obj fs) candidates.length items
    | _ => .error (invalid (js "candidates must be an array"))
  | _ => .error (invalid (js "createMemoryOptimizationPlan requires an options object or candidate array"))

/-! ## Access receipts -/

def requiredString (value : Option Json) (name : String) : Except JsError JsString :=
  match value with
  | some (.str s) => if s.isEmpty then .error (invalid (js name ++ js " must be a non-empty string")) else .ok s
  | _ => .error (invalid (js name ++ js " must be a non-empty string"))

/-- What `normalizeReceiptSource` returns, as far as it is read. -/
structure ReceiptSource where
  address : JsString
  content_hash : JsString
  commitment : Option JsString
  source : Json

def normalizeReceiptSource (input : Json) : Except JsError ReceiptSource := do
  let source := (firstOf [input.get (js "item"), input.get (js "accessed"), input.get (js "access"), input.get (js "memory"),
    input.get (js "candidate"), some input]).getD input
  if !source.isPlainRecord then throw (invalid (js "receipt source must be an object"))
  let contentHash ← normalizeContentHash P (Json.orElse (source.get (js "content_hash")) (source.get (js "contentHash")))
    (source.get (js "content"))
  let address ← requiredString (Json.orElse (source.get (js "address")) (input.get (js "address"))) "address"
  match Json.orElse (source.get (js "commitment")) (input.get (js "commitment")) with
  | none => return ⟨address, contentHash, none, source⟩
  | some commitment => return ⟨address, contentHash, some (← normalizeSha256Root P commitment "commitment"), source⟩

def planHashOrUndefined (plan : Option Json) : Except JsError (Option Json) :=
  match plan with
  | none | some .null => .ok none
  | some (.str s) => (normalizeSha256Root P (.str s) "plan_hash").map fun hash => some (.str hash)
  | some plan => .ok (some (.str (commitmentFor P plan)))

/-- The `plan_hash` of a receipt. -/
def receiptPlanHash (input : Json) : Except JsError (Option Json) :=
  match Json.orElse (input.get (js "plan_hash")) (input.get (js "planHash")) with
  | none | some .null => planHashOrUndefined P (input.get (js "plan"))
  | some hash => .ok (some hash)

structure AccessReceipt where
  address : JsString
  content_hash : JsString
  commitment : JsString
  plan_hash : Option Json
  timestamp : Json
  sequence : ℚ
  estimated_prompt_tokens : ℚ
  pricing : Option Pricing
  estimated_cost : Option ℚ

def accessBoundary : Json :=
  .obj [(js "permissionless_access", .bool true), (js "settlement", .str (js "external_or_offline_receipt_settlement")),
    (js "proof_anchor", .str (js "content_hash_and_commitment_only")), (js "decentralized_storage_claim", .bool false)]

/-- `orderReceipt({ ...body, receipt_id })`; a body has no `receipt_id` yet. -/
def orderReceipt (r : AccessReceipt) (receiptId : Option JsString) : Json :=
  .obj ([(js "schema", .str (js "enigma.memory_access_receipt.v1")), (js "product_thesis", .str productThesis)]
    ++ Json.field (js "receipt_id") (receiptId.map .str)
    ++ [(js "operation", .str (js "memory.access.receipt_anchor")),
      (js "commitment_scheme", .str (js "sha256-canonical-json-v1")), (js "address", .str r.address),
      (js "content_hash", .str r.content_hash), (js "commitment", .str r.commitment)]
    ++ Json.field (js "plan_hash") r.plan_hash
    ++ [(js "timestamp", r.timestamp), (js "sequence", .num r.sequence),
      (js "estimated_prompt_tokens", .num r.estimated_prompt_tokens),
      (js "pricing", (r.pricing.map Pricing.toJson).getD .null), (js "estimated_cost", optionalNumber r.estimated_cost),
      (js "access_boundary", accessBoundary)])

/-- The body of a receipt. -/
def accessReceipt (input : Json) : Except JsError AccessReceipt := do
  let source ← normalizeReceiptSource P input
  let pricing ← normalizePricing P (firstOf [input.get (js "pricing"), input.get (js "price"),
    input.get (js "price_per_million_tokens"), input.get (js "pricePerMillionTokens")]) false
  let estimatedTokens ← nonNegativeInteger P (firstOf [input.get (js "estimated_prompt_tokens"),
    input.get (js "estimatedTokens"), input.get (js "optimized_prompt_tokens"),
    source.source.get (js "optimized_prompt_tokens"), source.source.get (js "estimated_tokens"), some (.num 0)])
    "estimated_prompt_tokens"
  let planHash ← receiptPlanHash P input
  let sequence ← nonNegativeInteger P (firstOf [input.get (js "sequence"), some (.num 0)]) "sequence"
  let cost ← costOf estimatedTokens pricing
  return {
    address := source.address
    content_hash := source.content_hash
    commitment := source.commitment.getD (commitmentFor P
      (.obj [(js "address", .str source.address), (js "content_hash", .str source.content_hash)]))
    plan_hash := planHash
    timestamp := (firstOf [input.get (js "timestamp"), input.get (js "accessed_at"), input.get (js "accessedAt"),
      input.get (js "now"), some .null]).getD .null
    sequence := sequence
    estimated_prompt_tokens := estimatedTokens
    pricing := pricing
    estimated_cost := cost }

/-- The `receipt_id` that the caller has chosen, or one from the body. -/
def accessReceiptId (input : Json) (r : AccessReceipt) : Except JsError JsString :=
  match Json.orElse (input.get (js "receipt_id")) (input.get (js "receiptId")) with
  | none | some .null =>
    .ok (js "mar_" ++ (sha256Hex ((orderReceipt r none).canonicalize P.toNumberFormat)).take 32)
  | some id => normalizePrefixedId "mar" "receipt_id" id

def createMemoryAccessReceipt (input : Json) : Except JsError Json := do
  if !input.isPlainRecord then throw (invalid (js "createMemoryAccessReceipt requires an options object"))
  let r ← accessReceipt P input
  if !r.estimated_cost.all Double.inRange then throw (invalid (js "canonical JSON cannot encode non-finite numbers"))
  let id ← accessReceiptId P input r
  assertNoRawMemoryOutput P (orderReceipt r (some id))

end MemoryPlan

end EnigmaMemory
