import EnigmaMemory.Lib.Grouping
import EnigmaMemory.Spec.Addition
import EnigmaMemory.Spec.Settlement

/-!
# Usage metering

`aggregateUsageEvents` of `packages/metering`: the token counts and the costs of usage events are added up, for all of
them and for each provider and model. The groups are kept under the name of the provider, a zero and the name of the
model.
-/

/-!
## The scan for sensitive values

`assertNoSensitivePayload`, which the packages keep a copy of each: no key of an object is forbidden, and no text looks
like a secret unless it stands where the package puts a statement of its own.
-/

namespace EnigmaMemory

namespace SensitiveScan

open Json

/-- What one copy forbids. -/
structure Rules where
  forbiddenKeyRe : Regex
  safeKeys : List JsString
  secretValueRe : Regex
  statementPathRe : Regex
  /-- What the package calls its artifacts. -/
  artifacts : JsString

variable (F : NumberFormat) (R : Rules)

def Rules.forbidsKey (key : JsString) : Bool := regexTest R.forbiddenKeyRe key && decide (key ∉ R.safeKeys)

mutual
def assertNoSensitivePayload : Json → JsString → Except JsError Unit
  | .str s, path =>
    if !regexTest R.statementPathRe path && regexTest R.secretValueRe s then
      .error (typeError (path ++ js " contains secret-looking data"))
    else .ok ()
  | .arr xs, path => assertItems xs path 0
  | .obj fs, path => assertFields fs path
  | _, _ => .ok ()

def assertItems : List Json → JsString → ℕ → Except JsError Unit
  | [], _, _ => .ok ()
  | x :: xs, path, index => do
    assertNoSensitivePayload x (indexPath F path index)
    assertItems xs path (index + 1)

def assertFields : List (JsString × Json) → JsString → Except JsError Unit
  | [], _ => .ok ()
  | (key, child) :: fs, path =>
    if R.forbidsKey key then .error (typeError (keyPath path key ++ js " is not allowed in " ++ R.artifacts ++ js " artifacts"))
    else do
      assertNoSensitivePayload child (keyPath path key)
      assertFields fs path
end

end SensitiveScan

end EnigmaMemory

namespace EnigmaMemory

namespace Metering

open Json Regex
open Settlement (litU member optionalString isoTimestamp epoch hasSchema require option sealed)

variable (P : Platform) (represent : ℚ → Numeric)

def usageEventSchema : JsString := js "enigma.usage_event.v1"

def usageAggregateSchema : JsString := js "enigma.usage_aggregate.v1"

def productThesis : JsString :=
  js "Centralized high-performance memory service with permissionless access and settlement receipts; usage metering is deterministic, content-minimized, and does not claim token ROI or provider invoice savings."

def claimBoundary : Json :=
  .arr [.str (js "Estimated memory credit is deterministic metering math over supplied usage events, not a provider invoice guarantee."),
    .str (js "No token ROI, token profit, decentralized inference, provider-side deletion, model forgetting, or compliance certification claim is made."),
    .str (js "Usage events contain counts, commitments, and hashes only; raw prompts, completions, provider responses, transcripts, credentials, and decrypted memory are forbidden.")]

/-! ## The scan -/

def safeMetricKeys : List JsString :=
  [js "prompt_tokens", js "completion_tokens", js "input_tokens", js "output_tokens", js "baseline_prompt_tokens",
    js "optimized_prompt_tokens", js "memory_baseline_tokens", js "memory_optimized_tokens", js "memory_savings_tokens",
    js "billable_prompt_tokens", js "billable_completion_tokens", js "total_prompt_tokens", js "total_completion_tokens",
    js "total_memory_baseline_tokens", js "total_memory_optimized_tokens", js "total_memory_savings_tokens"]

def forbiddenWords : List String :=
  ["raw", "plaintext", "plain_text", "prompt", "prompts", "message", "messages", "text", "content", "document",
    "documents", "transcript", "response", "responses", "provider_response", "response_body", "credential", "credentials",
    "api_key", "secret", "password", "private_key"]

def scanRules : SensitiveScan.Rules where
  forbiddenKeyRe := cat [any [start, litU "_"], any (forbiddenWords.map litU), any [stop, litU "_"]]
  safeKeys := safeMetricKeys
  secretValueRe := Settlement.secretValueRe
  statementPathRe := cat [lit ".claim_boundary[", plus (cls ⟨[(48, 57)], false⟩), lit "]", stop]
  artifacts := js "metering"

def assertNoSensitivePayload (value : Json) (path : JsString) : Except JsError Unit :=
  SensitiveScan.assertNoSensitivePayload P.toNumberFormat scanRules value path

/-! ## Events -/

def requireUsageEvent (event : Json) (index : ℕ) : Except JsError Unit := do
  require (hasSchema (some event) usageEventSchema)
    (typeError (indexPath P.toNumberFormat (js "events") index ++ js " must be an enigma usage event"))
  assertNoSensitivePayload P event (indexPath P.toNumberFormat (js "events") index)

def requireUsageEvents : List Json → ℕ → Except JsError Unit
  | [], _ => .ok ()
  | event :: rest, index => do
    requireUsageEvent P event index
    requireUsageEvents rest (index + 1)

/-- What the loop reads of an event. The currency of the first event is compared with itself. -/
def checkEvents (currency : Option Json) : List Json → ℕ → Except JsError Unit
  | [], _ => .ok ()
  | event :: rest, index => do
    let own ← member (event.get (js "estimated_cost")) "currency"
    require (index == 0 || strictEq own currency) (typeError (js "all events must use the same currency"))
    let _ ← member (event.get (js "usage")) "prompt_tokens"
    checkEvents currency rest (index + 1)

/-! ## Totals -/

structure Totals where
  currency : Option Json
  prompt_tokens : Total
  completion_tokens : Total
  memory_baseline_tokens : Total
  memory_optimized_tokens : Total
  memory_savings_tokens : Total
  cost_before_memory : Total
  cost_after_memory : Total
  estimated_memory_credit : Total

def emptyTotals (currency : Option Json) : Totals :=
  let zero := Total.number (.finite 0)
  ⟨currency, zero, zero, zero, zero, zero, zero, zero, zero⟩

def usageOf (event : Json) (key : String) : Option Json := path (some event) ["usage", key]

def costOf (event : Json) (key : String) : Option Json := path (some event) ["estimated_cost", key]

/-- `addTotals(target, event.usage, event.estimated_cost)`. -/
def addTotals (target : Totals) (event : Json) : Totals :=
  let plus := Total.plus P.toNumberFormat represent
  { target with
    prompt_tokens := plus target.prompt_tokens (usageOf event "prompt_tokens")
    completion_tokens := plus target.completion_tokens (usageOf event "completion_tokens")
    memory_baseline_tokens := plus target.memory_baseline_tokens (usageOf event "memory_baseline_tokens")
    memory_optimized_tokens := plus target.memory_optimized_tokens (usageOf event "memory_optimized_tokens")
    memory_savings_tokens := plus target.memory_savings_tokens (usageOf event "memory_savings_tokens")
    cost_before_memory := plus target.cost_before_memory (costOf event "cost_before_memory")
    cost_after_memory := plus target.cost_after_memory (costOf event "cost_after_memory")
    estimated_memory_credit := plus target.estimated_memory_credit (costOf event "estimated_memory_credit") }

def Totals.toJson (t : Totals) : Json :=
  .obj (field (js "currency") t.currency
    ++ [(js "prompt_tokens", t.prompt_tokens.toJson), (js "completion_tokens", t.completion_tokens.toJson),
      (js "memory_baseline_tokens", t.memory_baseline_tokens.toJson),
      (js "memory_optimized_tokens", t.memory_optimized_tokens.toJson),
      (js "memory_savings_tokens", t.memory_savings_tokens.toJson), (js "cost_before_memory", t.cost_before_memory.toJson),
      (js "cost_after_memory", t.cost_after_memory.toJson),
      (js "estimated_memory_credit", t.estimated_memory_credit.toJson)])

/-! ## Groups -/

structure UsageGroup where
  provider : Option Json
  model : Option Json
  event_count : ℕ
  totals : Totals

/-- `${value}`. -/
def template (value : Option Json) : JsString := (value.map (·.toText P.toNumberFormat)).getD (js "undefined")

/-- The key of `groups` for the event. -/
def groupKey (event : Json) : JsString := template P (event.get (js "provider")) ++ 0 :: template P (event.get (js "model"))

/-- The group that an event opens. -/
def openGroup (currency : Option Json) (event : Json) : UsageGroup where
  provider := event.get (js "provider")
  model := event.get (js "model")
  event_count := 0
  totals := emptyTotals currency

def UsageGroup.add (group : UsageGroup) (event : Json) : UsageGroup :=
  { group with event_count := group.event_count + 1, totals := addTotals P represent group.totals event }

/-- `Array.from(groups.values())` after the loop. -/
def usageGroups (currency : Option Json) (events : List Json) : List UsageGroup :=
  (Grouping.groups (groupKey P) (openGroup currency) (UsageGroup.add P represent) events).map Prod.snd

/-- `a + b`. -/
def addValues (a b : Option Json) : Total :=
  if isText a || isText b then .text (template P a ++ template P b)
  else .number ((toNumeric P.toNumberFormat a).add represent (toNumeric P.toNumberFormat b))
where
  isText (value : Option Json) : Bool :=
    match value.map (toPrimitive P.toNumberFormat) with
    | some (.str _) => true
    | _ => false

def UsageGroup.name (group : UsageGroup) : Total := addValues P represent group.provider group.model

def UsageGroup.hasText (group : UsageGroup) : Bool :=
  match group.name P represent with
  | .text _ => true
  | .number _ => false

-- `asked` are the groups whose `localeCompare` the engine calls; a number has none
def sortGroups (asked : List UsageGroup → UsageGroup → Bool) (groups : List UsageGroup) : Except JsError (List UsageGroup) :=
  if groups.any (fun g => asked groups g && !g.hasText P represent) then
    .error (typeError (js "(a.provider + a.model).localeCompare is not a function"))
  else .ok (groups.insertionSort fun a b =>
    P.localeLe ((a.name P represent).toText P.toNumberFormat) ((b.name P represent).toText P.toNumberFormat))

def UsageGroup.toJson (group : UsageGroup) : Json :=
  .obj (field (js "provider") group.provider ++ field (js "model") group.model
    ++ [(js "event_count", .num group.event_count), (js "totals", group.totals.toJson)])

/-! ## `aggregateUsageEvents` -/

structure UsageAggregate where
  tenant_id : JsString
  meter_id : Option Json
  generated_at : Option Json
  event_count : ℕ
  event_hashes : List (Option Json)
  totals : Totals
  by_provider_model : List UsageGroup

def UsageAggregate.body (a : UsageAggregate) : Json :=
  .obj ([(js "schema", .str usageAggregateSchema), (js "product_thesis", .str productThesis), (js "tenant_id", .str a.tenant_id)]
    ++ field (js "meter_id") a.meter_id ++ field (js "generated_at") a.generated_at
    ++ [(js "event_count", .num a.event_count), (js "event_hashes", .arr (a.event_hashes.map (·.getD .null))),
      (js "totals", a.totals.toJson), (js "by_provider_model", .arr (a.by_provider_model.map UsageGroup.toJson)),
      (js "claim_boundary", claimBoundary)])

def UsageAggregate.toJson (a : UsageAggregate) : Json := sealed P "aggregate_id" "aggregate_hash" "uagg_" a.body

/-- The tenant of all events. -/
def commonTenant (events : List Json) : Option Json :=
  let first := (events.head?.getD .null).get (js "tenant_id")
  if events.tail.all fun event => strictEq (event.get (js "tenant_id")) first then first else some (.str (js "mixed"))

/-- The events of `args`, if there are any. -/
def eventsOf (args : Json) : List Json :=
  match args.get (js "events") with
  | some (.arr events) => events
  | _ => []

/-- `Array.isArray(input) ? { events: input } : input`. -/
def aggregateArgs (input : Json) : Json :=
  match input with
  | .arr events => .obj [(js "events", .arr events)]
  | input => input

def aggregateUsageEvents (asked : List UsageGroup → UsageGroup → Bool) (input : Json) : Except JsError UsageAggregate := do
  let args := aggregateArgs input
  require args.isPlainRecord (typeError (js "aggregateUsageEvents requires an options object or event array"))
  let events := eventsOf args
  requireUsageEvents P events 0
  require (!events.isEmpty) (typeError (js "events must be non-empty"))
  let currency ← member ((events.head?.getD .null).get (js "estimated_cost")) "currency"
  checkEvents currency events 0
  let tenantId ← Settlement.requiredString (orElse (option args "tenant_id" "tenantId") (commonTenant events)) "tenant_id"
  let meterId ← optionalString P (option args "meter_id" "meterId") (some (.str (js "aggregate")))
  let generatedAt ← isoTimestamp P (option args "generated_at" "generatedAt") "timestamp" (epoch P)
  let groups ← sortGroups P represent asked (usageGroups P represent currency events)
  let aggregate : UsageAggregate := {
    tenant_id := tenantId
    meter_id := meterId
    generated_at := generatedAt
    event_count := events.length
    event_hashes := events.map (·.get (js "event_hash"))
    totals := events.foldl (addTotals P represent) (emptyTotals currency)
    by_provider_model := groups }
  assertNoSensitivePayload P (aggregate.toJson P) (js "aggregate")
  return aggregate

end Metering

end EnigmaMemory
