import EnigmaMemory.Spec.Controller

/-!
# Private bubbles and weather reports

The other artifacts of `packages/controller`: a private bubble, which is opened and closed
again, and the weather report, which sums up the state of a controller in tiles.
-/

namespace EnigmaMemory

namespace Controller

open Json

variable (P : Platform)

/-! ## Private bubbles -/

def bubbleJson (bubbleRef : JsString) (appRefs : List JsString) (purposeRef startedAt : JsString) (candidateCount : ℕ)
    (receiptRefs : List JsString) (bubbleRoot : JsString) : Json :=
  .obj ([(js "schema", .str bubbleSchema), (js "bubble_ref", .str bubbleRef), (js "app_refs", strings appRefs),
      (js "purpose_ref", .str purposeRef), (js "status", .str (js "open")), (js "started_at", .str startedAt),
      (js "closed_at", .null), (js "candidate_count", .num candidateCount), (js "kept_count", .num 0),
      (js "discarded_count", .num 0), (js "receipt_refs", strings receiptRefs), (js "bubble_root", .str bubbleRoot)]
    ++ boundaryFields)

def createPrivateMemoryBubble (options : Json) : Except JsError Json := do
  assertPlainRecord options (js "options")
  let startedAt ← normalizeDateTime P (firstOf [options.get (js "started_at"), options.get (js "startedAt"),
    options.get (js "now"), some defaultNow]) (js "started_at")
  let appRefs ← normalizeNonEmptyPublicRefArray P (orElse (option options "app_refs" "appRefs")
    (some (.arr [(options.get (js "app_ref")).getD (.str (js "ref:app:unspecified"))]))) (js "app_refs")
  let purposeRef ← refOption options "purpose_ref" "purposeRef" "ref:purpose:unspecified"
  let candidateCount ← countOption options "candidate_count" "candidateCount"
  let body (bubbleRef : JsString) := bubbleJson bubbleRef appRefs purposeRef startedAt candidateCount
  let bubbleRef ← normalizePublicRef (orElse (option options "bubble_ref" "bubbleRef")
    (some (.str (makePublicRef P "bubble" (body [] [] []) [js "bubble_ref", js "receipt_refs", js "bubble_root"]))))
    (js "bubble_ref")
  let receiptRefs ← refsOption P options "receipt_refs" "receiptRefs"
    (makePublicRef P "receipt" (body bubbleRef [] []) [js "receipt_refs", js "bubble_root"])
  let bubbleRoot := merkleRootFor P "private_memory_bubble" (body bubbleRef receiptRefs []) [js "bubble_root"]
  assertMemoryControllerPublicSafe P (body bubbleRef receiptRefs bubbleRoot)

/-- `Math.max(0, candidateCount - keptCount)`; what is not finite has no canonical form, and the
Merkle root of the bubble cannot be built. -/
def remainingCount (candidateCount : Option Json) (keptCount : ℕ) : Except JsError Json :=
  match toNumeric P.toNumberFormat candidateCount with
  | .finite q => .ok (.num (max 0 (q - keptCount)))
  | .negInf => .ok (.num 0)
  | .nan | .posInf => .error (typeError (js "canonical JSON cannot encode non-finite numbers"))

/-- The counts of a closed bubble: kept and discarded. -/
def closedCounts (bubble options : Json) (outcome : JsString) : Except JsError (ℕ × Json) := do
  let candidateCount := bubble.get (js "candidate_count")
  let keptCount ← if outcome = js "keep" then
      normalizeCount (orElse (option options "kept_count" "keptCount") candidateCount) (js "kept_count")
    else .ok 0
  if greater P.toNumberFormat (some (.num keptCount)) candidateCount then
    .error (typeError (js "kept_count cannot exceed candidate_count"))
  else
    let discardedCount ← if outcome = js "discard" then do
        let n ← normalizeCount (orElse (option options "discarded_count" "discardedCount") candidateCount) (js "discarded_count")
        .ok (Json.num n)
      else remainingCount P candidateCount keptCount
    if greater P.toNumberFormat (some discardedCount) candidateCount then
      .error (typeError (js "discarded_count cannot exceed candidate_count"))
    else .ok (keptCount, discardedCount)

def closePrivateMemoryBubble (bubble options : Json) : Except JsError Json := do
  assertPlainRecord bubble (js "bubble")
  assertPlainRecord options (js "options")
  let _ ← assertMemoryControllerPublicSafe P bubble
  if !Json.isStr (bubble.get (js "schema")) bubbleSchema then .error (typeError (js "bubble schema mismatch"))
  else if !Json.isStr (bubble.get (js "status")) (js "open") then .error (typeError (js "bubble must be open"))
  else
    let closedAt ← normalizeDateTime P (firstOf [options.get (js "closed_at"), options.get (js "closedAt"),
      options.get (js "now"), some defaultNow]) (js "closed_at")
    let outcome := (withDefault (firstOf [options.get (js "outcome"), options.get (js "close_outcome"),
      options.get (js "closeOutcome")]) (.str (js "discard"))).toText P.toNumberFormat
    if outcome ∉ bubbleCloseOutcomes then .error (typeError (js "bubble outcome must be keep or discard"))
    else
      let (keptCount, discardedCount) ← closedCounts P bubble options outcome
      let receiptRefs ← normalizeNonEmptyPublicRefArray P (orElse (option options "receipt_refs" "receiptRefs")
        (bubble.get (js "receipt_refs"))) (js "receipt_refs")
      let closed := bubble.spread (.obj [
        (js "status", .str (if outcome = js "keep" then js "kept" else js "discarded")), (js "closed_at", .str closedAt),
        (js "kept_count", .num keptCount), (js "discarded_count", discardedCount), (js "receipt_refs", strings receiptRefs),
        (js "bubble_root", .str [])])
      assertMemoryControllerPublicSafe P (closed.set (js "bubble_root")
        (.str (merkleRootFor P "private_memory_bubble" closed [js "bubble_root"])))

/-! ## Weather reports -/

/-- A tile after its checks. -/
structure Tile where
  tile_ref : JsString
  status : JsString
  metric : JsString
  count : ℕ
  evidence_refs : List JsString
  deriving DecidableEq

def Tile.toJson (t : Tile) : Json :=
  .obj [(js "tile_ref", .str t.tile_ref), (js "status", .str t.status), (js "metric", .str t.metric),
    (js "count", .num t.count), (js "evidence_refs", strings t.evidence_refs)]

def normalizeTileStatus (status : Json) : JsString :=
  let value := status.toText P.toNumberFormat
  if value ∈ weatherStatuses then value
  else if value ∈ stormTileStatuses then js "storm_warning"
  else if value ∈ attentionTileStatuses then js "needs_attention"
  else js "needs_attention"

def metricFromTileRef (tileRef : Option Json) : JsString :=
  match tileRef with
  | some (.str s) => (weatherMetrics.find? (includes · s)).getD (js "active_grants")
  | _ => js "active_grants"

def normalizeWeatherMetric (metric : Option Json) : Except JsError JsString :=
  normalizeMember weatherMetrics metric (js "metric") (js "metric is not supported")

/-- One tile of the options, `index` being its place. -/
def normalizeWeatherTile (tile : Json) (index : ℕ) : Except JsError Tile := do
  let field := itemField P (js "tiles") index
  assertPlainRecord tile field
  let tileRef := option tile "tile_ref" "tileRef"
  let status := normalizeTileStatus P (withDefault (tile.get (js "status")) (.str (js "sunny")))
  let metric ← normalizeWeatherMetric (orElse (tile.get (js "metric")) (some (.str (metricFromTileRef tileRef))))
  let ref ← normalizePublicRef (orElse tileRef (some (.str (js "ref:tile:" ++ P.numberText index)))) (field ++ js ".tile_ref")
  let count ← normalizeCount (orElse (tile.get (js "count")) (some (.num 0))) (field ++ js ".count")
  let evidenceRefs ← normalizePublicRefArray P (orElse (option tile "evidence_refs" "evidenceRefs") (some (.arr [])))
    (field ++ js ".evidence_refs")
  return ⟨ref, status, metric, count, evidenceRefs⟩

def normalizeWeatherTiles (value : Option Json) : Except JsError (List Tile) :=
  match value with
  | some (.arr []) => .error (typeError (js "tiles must not be empty"))
  | some (.arr xs) => xs.zipIdx.mapM fun x => normalizeWeatherTile P x.1 x.2
  | _ => .error (typeError (js "tiles must be an array"))

def normalizeWeatherStatus (status : Json) : Except JsError JsString :=
  let value := status.toText P.toNumberFormat
  if value ∈ weatherStatuses then .ok value else .error (typeError (js "status is not supported"))

def normalizeIssueCodes (value : Option Json) : Except JsError (List JsString) :=
  match value with
  | some (.arr xs) => do
    let codes ← xs.zipIdx.mapM fun x => normalizeMember weatherIssueCodes (some x.1)
      (itemField P (js "issue_codes") x.2) (itemField P (js "issue_codes") x.2 ++ js " is not supported")
    return uniqueSorted codes
  | _ => .error (typeError (js "issue_codes must be an array"))

def normalizeNextAction (value : Option Json) : Except JsError JsString :=
  normalizeMember weatherNextActions value (js "next_action") (js "next_action is not supported")

def rollupWeatherStatus (tiles : List Tile) : JsString :=
  if tiles.any (·.status == js "storm_warning") then js "storm_warning"
  else if tiles.any (·.status == js "needs_attention") then js "needs_attention"
  else js "sunny"

def issueCodeForMetric (metric : JsString) : JsString :=
  if metric = js "expiring_grants" then js "grant_expiring"
  else if metric = js "recent_vetoes" then js "veto_rate_elevated"
  else if metric = js "open_private_bubbles" then js "private_bubble_open"
  else if metric = js "tombstone_pressure" then js "tombstone_pressure"
  else if metric = js "sensitive_candidates" then js "sensitive_candidate_pressure"
  else if metric = js "receipt_coverage" then js "receipt_gap"
  else js "policy_attention_needed"

def issueCodesForTiles (tiles : List Tile) : List JsString :=
  uniqueSorted ((tiles.filter (·.status != js "sunny")).map fun t => issueCodeForMetric t.metric)

def firstNextAction (tiles : List Tile) (status : JsString) (issueCodes : List JsString) : JsString :=
  if status = js "sunny" then js "none"
  else if js "private_bubble_open" ∈ issueCodes then js "close_private_bubbles"
  else if js "receipt_gap" ∈ issueCodes then js "inspect_receipts"
  else if js "grant_expiring" ∈ issueCodes ∨ js "grant_missing" ∈ issueCodes then js "review_grants"
  else if js "policy_attention_needed" ∈ issueCodes then js "review_policy"
  else if ((tiles.find? (·.status == js "storm_warning")).map (·.metric)) = some (js "open_private_bubbles") then
    js "close_private_bubbles"
  else js "ask_for_consent"

def evidenceRefsForTiles (tiles : List Tile) : List JsString :=
  let refs := uniqueSorted (tiles.flatMap (·.evidence_refs))
  if refs.isEmpty then [js "ref:evidence:weather"] else refs

/-- The tile of a report for which none is given. -/
def defaultTiles : Json :=
  .arr [.obj [(js "tile_ref", .str (js "ref:tile:active_grants")), (js "status", .str (js "sunny")),
    (js "metric", .str (js "active_grants")), (js "count", .num 0),
    (js "evidence_refs", strings [js "ref:evidence:weather"])]]

def weatherJson (status generatedAt : JsString) (tiles : List Tile) (issueCodes : List JsString) (nextAction : JsString)
    (evidenceRefs : List JsString) : Json :=
  .obj ([(js "schema", .str weatherSchema), (js "status", .str status), (js "generated_at", .str generatedAt),
      (js "tiles", .arr (tiles.map Tile.toJson)), (js "issue_codes", strings issueCodes), (js "next_action", .str nextAction),
      (js "evidence_refs", strings evidenceRefs)]
    ++ boundaryFields)

/-- The issue codes that a report shows. -/
def shownIssueCodes (status : JsString) (issueCodes : List JsString) : List JsString :=
  if status = js "sunny" then [] else if issueCodes.isEmpty then [js "policy_attention_needed"] else issueCodes

def createMemoryWeatherReport (options : Json) : Except JsError Json := do
  assertPlainRecord options (js "options")
  let generatedAt ← normalizeDateTime P (firstOf [options.get (js "generated_at"), options.get (js "generatedAt"),
    options.get (js "now"), some defaultNow]) (js "generated_at")
  let tiles ← normalizeWeatherTiles P (orElse (options.get (js "tiles")) (some defaultTiles))
  let status ← normalizeWeatherStatus P (withDefault (options.get (js "status")) (.str (rollupWeatherStatus tiles)))
  let issueCodes ← normalizeIssueCodes P (orElse (option options "issue_codes" "issueCodes")
    (some (strings (if status = js "sunny" then [] else issueCodesForTiles tiles))))
  let nextAction ← normalizeNextAction (orElse (option options "next_action" "nextAction")
    (some (.str (firstNextAction tiles status issueCodes))))
  let evidenceRefs ← normalizeNonEmptyPublicRefArray P (orElse (option options "evidence_refs" "evidenceRefs")
    (some (strings (evidenceRefsForTiles tiles)))) (js "evidence_refs")
  assertMemoryControllerPublicSafe P (weatherJson status generatedAt tiles (shownIssueCodes status issueCodes)
    (if status = js "sunny" then js "none" else nextAction) evidenceRefs)

end Controller

end EnigmaMemory
