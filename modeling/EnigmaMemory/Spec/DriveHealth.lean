import EnigmaMemory.Spec.Addition
import EnigmaMemory.Spec.Bundle
import EnigmaMemory.Spec.Settlement
import EnigmaMemory.Spec.VerifyPack

/-!
# The health report of a memory drive

`createMemoryDriveHealthReport` of `packages/passport`: ten metrics, each with a status and a score, and the
status of the whole drive, which is read off the weighted average of the scores, capped if a metric is critical
or degraded. Numbers are exact. A number that is not finite stands as `null` in a report, the way JSON writes it.
-/

namespace EnigmaMemory.DriveHealth

open Json Regex
open Settlement (litU letterClass charRanges)

variable (P : Platform)

/-! ## Statuses and scores -/

inductive Status where
  | healthy
  | watch
  | degraded
  | critical
  deriving DecidableEq, Repr

def Status.text : Status → JsString
  | healthy => js "healthy"
  | watch => js "watch"
  | degraded => js "degraded"
  | critical => js "critical"

/-- `Math.round(x)`. -/
def mathRound (x : ℚ) : ℤ := ⌊x + 1 / 2⌋

def clamp01 : Numeric → ℚ
  | .finite value => if value < 0 then 0 else if 1 < value then 1 else value
  | _ => 0

def bandScore (status : Status) (goodness : ℚ) : ℤ :=
  let r := clamp01 (.finite goodness)
  match status with
  | .healthy => 90 + mathRound (10 * r)
  | .watch => 75 + mathRound (14 * r)
  | .degraded => 50 + mathRound (24 * r)
  | .critical => mathRound (49 * r)

def statusFromScore (score : ℤ) : Status :=
  if 90 ≤ score then .healthy else if 75 ≤ score then .watch else if 50 ≤ score then .degraded else .critical

def roundRatio (value : ℚ) : ℚ := mathRound (value * 10000) / 10000

def nonNegativeInt (F : NumberFormat) (value : Option Json) : ℕ :=
  match toNumeric F value with
  | .finite q => if q < 0 then 0 else ⌊q⌋.toNat
  | _ => 0

def clampRatio (F : NumberFormat) (value : Option Json) : ℚ :=
  match toNumeric F value with
  | .finite q => clamp01 (.finite q)
  | _ => clamp01 (.finite 0)

/-! ## Comparisons with the policy -/

section Policy

variable (F : NumberFormat)

/-- `a < value` -/
def below (a : Numeric) (value : Option Json) : Bool := a.lt (toNumeric F value)

/-- `a > value` -/
def above (a : Numeric) (value : Option Json) : Bool := (toNumeric F value).lt a

/-- `a >= value`, which `NaN` fails on either side. -/
def atLeast (a : Numeric) (value : Option Json) : Bool := above F a value || (a != .nan && a == toNumeric F value)

/-- `a <= value` -/
def atMost (a : Numeric) (value : Option Json) : Bool := below F a value || (a != .nan && a == toNumeric F value)

/-- `2 * value` -/
def twice (value : Option Json) : Numeric :=
  match toNumeric F value with
  | .finite q => .finite (2 * q)
  | other => other

/-- `Number(value + q)`: a value that is no number may make it a text. -/
def plusNumber (value : Option Json) (q : ℚ) : Numeric :=
  match value.map (toPrimitive F) with
  | some (.str s) => stringToNumber (s ++ F.numberText q)
  | _ => (toNumeric F value).add .finite (.finite q)

/-- `Math.max(0, value)` -/
def maxZero (value : Option Json) : Numeric :=
  match toNumeric F value with
  | .finite q => .finite (max 0 q)
  | .negInf => .finite 0
  | other => other

end Policy

def defaultHealthPolicy : List (JsString × Json) :=
  [(js "freshness_window_hours", .num 48), (js "freshness_healthy_ratio", .num 0.95), (js "freshness_watch_ratio", .num 0.85),
    (js "freshness_degraded_ratio", .num 0.7), (js "duplicate_rate_watch_floor", .num 0.02),
    (js "duplicate_rate_degraded_floor", .num 0.05), (js "duplicate_rate_critical_floor", .num 0.12),
    (js "tombstone_ack_window_hours", .num 24), (js "retrieval_top_k", .num 5), (js "hit_at_k_floor", .num 0.9),
    (js "exact_coverage_floor", .num 0.85), (js "abstention_correctness_floor", .num 0.95),
    (js "token_reduction_floor", .num 0.5), (js "receipt_coverage_healthy_floor", .num 0.99),
    (js "receipt_coverage_watch_floor", .num 0.95), (js "receipt_coverage_degraded_floor", .num 0.85),
    (js "connector_max_error_rate_24h", .num 0.01), (js "sync_max_read_only_lag_versions", .num 1)]

/-! ## Metrics -/

inductive MetricName where
  | freshness
  | duplicate_rate
  | tombstone_risk
  | stale_derived_artifacts
  | retrieval_hit_rate
  | token_reduction
  | leakage_scan
  | receipt_coverage
  | connector_health
  | sync_fork_risk
  deriving DecidableEq, Repr

namespace MetricName

/-- `HEALTH_METRIC_NAMES` -/
def all : List MetricName :=
  [freshness, duplicate_rate, tombstone_risk, stale_derived_artifacts, retrieval_hit_rate, token_reduction, leakage_scan,
    receipt_coverage, connector_health, sync_fork_risk]

def text : MetricName → JsString
  | freshness => js "freshness"
  | duplicate_rate => js "duplicate_rate"
  | tombstone_risk => js "tombstone_risk"
  | stale_derived_artifacts => js "stale_derived_artifacts"
  | retrieval_hit_rate => js "retrieval_hit_rate"
  | token_reduction => js "token_reduction"
  | leakage_scan => js "leakage_scan"
  | receipt_coverage => js "receipt_coverage"
  | connector_health => js "connector_health"
  | sync_fork_risk => js "sync_fork_risk"

/-- `HEALTH_METRIC_WEIGHTS` -/
def weight : MetricName → ℕ
  | freshness => 10
  | duplicate_rate => 8
  | tombstone_risk => 12
  | stale_derived_artifacts => 10
  | retrieval_hit_rate => 14
  | token_reduction => 8
  | leakage_scan => 14
  | receipt_coverage => 10
  | connector_health => 8
  | sync_fork_risk => 6

/-- `HEALTH_EVIDENCE_PREFIX` -/
def evidence : MetricName → String
  | freshness => "freshness_scan"
  | duplicate_rate => "dedupe_scan"
  | tombstone_risk => "tombstone_scan"
  | stale_derived_artifacts => "artifact_inventory"
  | retrieval_hit_rate => "benchmark_report"
  | token_reduction => "optimizer_report"
  | leakage_scan => "leakage_scan"
  | receipt_coverage => "receipt_inventory"
  | connector_health => "connector_inventory"
  | sync_fork_risk => "replica_roots"

end MetricName

structure Metric where
  status : Status
  score : ℤ
  observed : Json
  thresholds : Json
  evidence_refs : List JsString
  recommended_actions : List JsString

def Metric.toJson (m : Metric) : Json :=
  .obj [(js "status", .str m.status.text), (js "score", .num m.score), (js "observed", m.observed),
    (js "thresholds", m.thresholds), (js "evidence_refs", strings m.evidence_refs),
    (js "recommended_actions", strings m.recommended_actions)]
where
  strings (xs : List JsString) : Json := .arr (xs.map .str)

def healthDigest (value : Json) : JsString := prefixedSha256 (value.canonicalize P.toNumberFormat)

def healthEvidenceRef (name : MetricName) (observed : Json) : JsString := js (name.evidence ++ "_") ++ healthDigest P observed

/-- `healthMetric`, with the evidence that every caller passes. -/
def healthMetric (name : MetricName) (status : Status) (score : ℤ) (observed thresholds : Json) (actions : List String) :
    Metric :=
  ⟨status, score, observed, thresholds, [healthEvidenceRef P name observed], (actions.map js).filter (· ≠ [])⟩

/-- The actions of a metric that is not healthy. -/
def unlessHealthy (status : Status) (actions : List String) : List String := if status = .healthy then [] else actions

def actionIf (cond : Bool) (action : String) : List String := if cond then [action] else []

/-- `a.snake ?? a.camel` -/
def either (owner : Json) (snake camel : String) : Option Json := orElse (owner.get (js snake)) (owner.get (js camel))

/-- `Array.isArray(value) ? value : []` -/
def arrayItems : Option Json → List Json
  | some (.arr xs) => xs
  | _ => []

/-! ## The vault -/

def zeroRoot : JsString := js "sha256:" ++ List.replicate 64 48

/-- What `vault[key]` is for the keys by which the report names the drive. -/
def vaultField (vault : Option StateInput) (key : String) : Option Json :=
  match vault with
  | some (.vault v) => (Json.obj [(js "vault_id", v.vault_id), (js "tenant_id", v.tenant_id), (js "subject_id", v.subject_id),
      (js "policy_id", v.policy_id)]).get (js key)
  | some (.json j) => j.get (js key)
  | _ => none

/-- The fields `active_set_root` and `receipt_log_root`. -/
def rootsFromVault (vault : Option StateInput) : Except JsError (Json × Json) :=
  match vault with
  | some (.vault v) => .ok (.str (lifecycleRoots P v).active_set_root, .str (lifecycleRoots P v).receipt_log_root)
  | _ =>
    if Json.truthy (vaultField vault "__computeRoots") then .error (typeError (js "vault.__computeRoots is not a function"))
    else .ok (withDefault (vaultField vault "active_set_root") (.str zeroRoot),
      withDefault (vaultField vault "receipt_log_root") (.str zeroRoot))

def vaultRecord (vault : Option StateInput) (addr : Json) : Option Json :=
  match vault with
  | some (.vault v) => match addr with
    | .str a => v.memories.get a
    | _ => none
  | some (.json j) =>
    -- a call of something else than a function is caught
    if Json.truthy (j.get (js "__getRecord")) then none
    else (arrayItems (j.get (js "memory_objects"))).find? fun record => strictEq (record.get (js "memory_addr")) (some addr)
  | _ => none

def receiptsOf (vault : Option StateInput) : List Json :=
  match vault with
  | some (.vault v) => v.receipts
  | some (.json j) => arrayItems (j.get (js "receipts"))
  | _ => []

/-- The addresses of the receipts that are called deletions. -/
def deleteReceiptAddrs (receipts : List Json) : List Json :=
  receipts.filterMap fun receipt =>
    if Json.isStr (receipt.get (js "operation")) (js "delete") && Json.truthy (receipt.get (js "memory_addr")) then
      receipt.get (js "memory_addr")
    else none

structure Identity where
  vault_id : Json
  tenant_id : Json
  subject_id : Json
  policy_id : Json

def driveIdentity (vault : Option StateInput) (passport : Option Json) : Identity :=
  -- a bundle names its drive in the vault it holds
  let bundled (key : String) : Option Json :=
    if Json.isStr (vaultField vault "schema") (js "enigma.vault_bundle.v1") then path (vaultField vault "vault") [key]
    else vaultField vault key
  let named (key : String) (inPassport : List String) (fallback : String) : Json :=
    (firstOf [bundled key, vaultField vault key, if inPassport = [] then none else path passport inPassport,
      some (.str (js fallback))]).getD .null
  ⟨named "vault_id" ["vault", "vault_id"] "local-vault", named "tenant_id" ["owner", "subject_id"] "local",
    named "subject_id" ["owner", "subject_id"] "local-subject", named "policy_id" [] "local-default"⟩

/-! ## Derived artifacts -/

structure Artifact where
  artifact_type : Json
  source_root : Option Json
  generated_at : Option Json
  memory_addresses : Json
  serving : Bool

/-- `value !== false` -/
def notFalse (value : Option Json) : Bool :=
  match value with
  | some (.bool false) => false
  | _ => true

def packArtifact (pack : Json) : Artifact where
  artifact_type := withDefault (pack.get (js "artifact_type")) (.str (js "context_pack"))
  source_root := firstOf [pack.get (js "active_set_root"), pack.get (js "activeSetRoot"), pack.get (js "source_root"),
    pack.get (js "sourceRoot")]
  generated_at := either pack "generated_at" "generatedAt"
  memory_addresses := withDefault (pack.get (js "memory_addresses")) (.arr [])
  serving := notFalse (pack.get (js "serving"))

def derivedArtifact (artifact : Json) : Artifact where
  artifact_type := withDefault (either artifact "artifact_type" "artifactType") (.str (js "derived_artifact"))
  source_root := either artifact "source_root" "sourceRoot"
  generated_at := either artifact "generated_at" "generatedAt"
  memory_addresses := withDefault (artifact.get (js "memory_addresses")) (.arr [])
  serving := notFalse (artifact.get (js "serving"))

/-- The truthy items of an array. -/
def truthyItems (value : Option Json) : List Json := (arrayItems value).filter fun x => Json.truthy (some x)

def normalizeContextPacks (args : Json) : List Artifact :=
  let fromArgs := either args "contextPacks" "context_packs"
  let single := firstOf [args.get (js "contextPack"), args.get (js "context_pack"), args.get (js "pack")]
  let packs := if Json.truthy single then single.toList else truthyItems fromArgs
  packs.map packArtifact ++ (truthyItems (either args "derivedArtifacts" "derived_artifacts")).map derivedArtifact

/-- The addresses of an artifact, or none where `memory_addresses` is no array. -/
def Artifact.addresses (a : Artifact) : List Json :=
  match a.memory_addresses with
  | .arr xs => xs
  | _ => []

/-- `artifact.memory_addresses.some(addr => set.has(addr))` -/
def Artifact.mentions (set : List Json) (a : Artifact) : Except JsError Bool :=
  match a.memory_addresses with
  | .arr xs => .ok (xs.any (hasValue set))
  | _ => .error (typeError (js "artifact.memory_addresses.some is not a function"))

/-! ## Ages -/

/-- `ageHours(iso, nowMs)`, if it is finite. -/
def ageHours (iso : Option Json) (nowMs : Option ℤ) : Option ℚ :=
  match iso.bind fun j => P.parseDate (j.toText P.toNumberFormat), nowMs with
  | some t, some now => some (max 0 (((now - t : ℤ) : ℚ) / 3600000))
  | _, _ => none

/-- An age that may be infinite. -/
def asNumeric : Option ℚ → Numeric
  | some q => .finite q
  | none => .posInf

/-- `Number.isFinite(age) ? Math.round(age) : null` -/
def roundedAge (age : Option ℚ) : Json := (age.map fun q => Json.num (mathRound q)).getD .null

/-! ## The metrics -/

def defaultTokensPerMemory : ℕ := 64

def computeFreshness (records : List Json) (policy : Json) (nowMs : Option ℤ) : Metric :=
  let F := P.toNumberFormat
  let window := policy.get (js "freshness_window_hours")
  let thresholds := Json.obj (field (js "fresh_records_ratio_watch_floor") (policy.get (js "freshness_watch_ratio"))
    ++ field (js "fresh_records_ratio_degraded_floor") (policy.get (js "freshness_degraded_ratio"))
    ++ field (js "policy_window_hours") window)
  if records.length = 0 then
    healthMetric P .freshness .healthy 100 (.obj [(js "active_ref_count", .num 0), (js "fresh_records_ratio", .num 1),
      (js "p95_active_age_hours", .num 0), (js "oldest_unrefreshed_age_hours", .num 0)]) thresholds []
  else
    let ages := records.map fun record => ageHours P (record.get (js "updated_at")) nowMs
    let finiteAges := (ages.filterMap id).insertionSort (· ≤ ·)
    let missingTimestamps := ages.countP Option.isNone
    let freshCount := finiteAges.countP fun age => atMost F (.finite age) window
    let ratio : ℚ := freshCount / records.length
    let p95Age := finiteAges[min (finiteAges.length - 1) ⌊(finiteAges.length : ℚ) * 0.95⌋.toNat]?
    let oldestAge := finiteAges.getLast?
    let observed := Json.obj [(js "active_ref_count", .num records.length), (js "fresh_records_ratio", .num (roundRatio ratio)),
      (js "p95_active_age_hours", roundedAge p95Age), (js "oldest_unrefreshed_age_hours", roundedAge oldestAge)]
    let status : Status :=
      if 0 < missingTimestamps || below F (.finite ratio) (policy.get (js "freshness_degraded_ratio")) then .critical
      else if below F (.finite ratio) (policy.get (js "freshness_watch_ratio")) || (twice F window).lt (asNumeric oldestAge) then
        .degraded
      else if below F (.finite ratio) (policy.get (js "freshness_healthy_ratio")) || above F (asNumeric p95Age) window then .watch
      else .healthy
    healthMetric P .freshness status (bandScore status ratio) observed thresholds (unlessHealthy status (
      ["Run local revalidation for stale namespaces."]
        ++ actionIf (above F (asNumeric oldestAge) window) "Rebuild the retrieval index for stale partitions."
        ++ actionIf (status = .critical) "Restore freshness metadata for active records before anchoring."))

/-- One more for a hash, in `hashCounts`. -/
def countHash (hash : Option Json) : List (Option Json × ℕ) → List (Option Json × ℕ)
  | [] => [(hash, 1)]
  | c :: rest => if strictEq c.1 hash then (c.1, c.2 + 1) :: rest else c :: countHash hash rest

def recordHash (record : Json) : Option Json :=
  firstOf [record.get (js "content_hash"), record.get (js "content_commitment"), record.get (js "memory_addr")]

def computeDuplicateRate (records : List Json) (policy : Json) : Metric :=
  let F := P.toNumberFormat
  let thresholds := Json.obj (field (js "watch_floor") (policy.get (js "duplicate_rate_watch_floor"))
    ++ field (js "degraded_floor") (policy.get (js "duplicate_rate_degraded_floor"))
    ++ field (js "critical_floor") (policy.get (js "duplicate_rate_critical_floor")))
  let hashCounts := records.foldl (fun counts record => countHash (recordHash record) counts) []
  let duplicates : ℕ := (hashCounts.map fun c => c.2 - 1).sum
  let duplicateRate : ℚ := if 0 < records.length then duplicates / records.length else 0
  let observed := Json.obj [(js "active_ref_count", .num records.length), (js "duplicate_candidate_count", .num duplicates),
    (js "duplicate_rate", .num (roundRatio duplicateRate)),
    (js "dedupe_savings_estimated_tokens", .num (duplicates * defaultTokensPerMemory : ℕ))]
  let status : Status :=
    if above F (.finite duplicateRate) (policy.get (js "duplicate_rate_critical_floor")) then .critical
    else if atLeast F (.finite duplicateRate) (policy.get (js "duplicate_rate_degraded_floor")) then .degraded
    else if atLeast F (.finite duplicateRate) (policy.get (js "duplicate_rate_watch_floor")) then .watch
    else .healthy
  healthMetric P .duplicate_rate status (bandScore status (1 - duplicateRate)) observed thresholds (unlessHealthy status
    ["Merge duplicate candidates using local canonical refs.", "Preserve receipt lineage for merged records."])

/-- How many of the tombstoned addresses no deletion receipt names. -/
def unsettledCount (tombstones deleteAddrs : List Json) : ℕ := tombstones.countP fun addr => !hasValue deleteAddrs addr

def computeTombstoneRisk (tombstones deleteAddrs : List Json) (artifacts : List Artifact) (replayWindowHours : Option Json)
    (policy : Json) : Except JsError Metric := do
  let F := P.toNumberFormat
  let window := policy.get (js "tombstone_ack_window_hours")
  let unsettled := unsettledCount tombstones deleteAddrs
  let referencing ← artifacts.filterM fun artifact => artifact.mentions tombstones
  let serving := referencing.countP Artifact.serving
  let replayWindow := maxZero F (orElse replayWindowHours (some (.num 0)))
  let observed := Json.obj [(js "tombstone_count", .num tombstones.length), (js "unsettled_tombstone_count", .num unsettled),
    (js "derived_artifacts_referencing_tombstones", .num referencing.length),
    (js "tombstone_replay_window_hours", match replayWindow with
      | .finite q => .num (mathRound q)
      | _ => .null)]
  let status : Status :=
    if 0 < serving then .critical
    else if 0 < referencing.length || above F replayWindow window then .degraded
    else if 0 < tombstones.length && (0 < unsettled || Numeric.lt (.finite 0) replayWindow) then .watch
    else .healthy
  let goodness : ℚ := if tombstones.length = 0 then 1
    else 1 - clamp01 (.finite ((unsettled + referencing.length : ℕ) / (max 1 tombstones.length : ℕ)))
  return healthMetric P .tombstone_risk status (bandScore status goodness) observed
    (.obj (field (js "max_ack_lag_hours") window)) (unlessHealthy status (
      actionIf (0 < referencing.length) "Invalidate derived artifacts that depend on tombstoned refs."
        ++ actionIf (0 < serving) "Quarantine serving artifacts that can replay tombstoned content."
        ++ ["Rebuild context packs and exports from active refs only."]))

def computeStaleDerivedArtifacts (artifacts : List Artifact) (currentRoot : Json) (nowMs : Option ℤ) : Metric :=
  let F := P.toNumberFormat
  let stale := artifacts.filter fun a => Json.truthy a.source_root && !strictEq a.source_root (some currentRoot)
  let serving := stale.countP Artifact.serving
  let staleTypes := (distinctValues (stale.map Artifact.artifact_type)).insertionSort fun a b => a.toText F ≤ b.toText F
  let maxLagHours := (stale.filterMap fun a => ageHours P a.generated_at nowMs).foldl max 0
  let observed := Json.obj [(js "stale_artifact_count", .num stale.length), (js "artifact_types_stale", .arr staleTypes),
    (js "max_artifact_lag_versions", .num (if 0 < stale.length then 1 else 0)),
    (js "max_artifact_lag_hours", .num (mathRound maxLagHours))]
  let status : Status := if 0 < serving then .degraded else if 0 < stale.length then .watch else .healthy
  let goodness : ℚ := 1 - clamp01 (.finite (stale.length / (max 1 artifacts.length : ℕ)))
  healthMetric P .stale_derived_artifacts status (bandScore status goodness) observed
    (.obj [(js "serving_path_stale_artifacts_allowed", .num 0)]) (unlessHealthy status (
      ["Rebuild active derived artifacts from the current source root."]
        ++ actionIf (0 < serving) "Quarantine proof packets made from stale roots."
        ++ ["Require artifact builders to declare source_root and artifact_root."]))

def computeRetrievalHitRate (benchmarkSummary : Option Json) (policy : Json) : Metric :=
  let F := P.toNumberFormat
  let hitFloor := policy.get (js "hit_at_k_floor")
  let coverageFloor := policy.get (js "exact_coverage_floor")
  let abstentionFloor := policy.get (js "abstention_correctness_floor")
  let thresholds := Json.obj (field (js "hit_at_k_floor") hitFloor ++ field (js "exact_coverage_floor") coverageFloor
    ++ field (js "abstention_correctness_floor") abstentionFloor)
  match benchmarkSummary.filter fun summary => Json.truthy (some summary) with
  | none =>
    healthMetric P .retrieval_hit_rate .healthy 90 (.obj ([(js "probe_count", .num 0)]
        ++ field (js "top_k") (policy.get (js "retrieval_top_k"))
        ++ [(js "hit_at_k", .num 0), (js "exact_coverage", .num 0), (js "abstention_correctness", .num 0),
          (js "measured", .bool false)])) thresholds
      ["Supply benchmark_summary to measure retrieval hit rate."]
  | some summary =>
    let probeCount := nonNegativeInt F (either summary "probe_count" "probeCount")
    let topK := nonNegativeInt F (firstOf [summary.get (js "top_k"), summary.get (js "topK"), policy.get (js "retrieval_top_k")])
    let hitAtK := clampRatio F (either summary "hit_at_k" "hitAtK")
    let exactCoverage := clampRatio F (either summary "exact_coverage" "exactCoverage")
    let abstention := clampRatio F (either summary "abstention_correctness" "abstentionCorrectness")
    let returnsTombstoned := Json.truthy (either summary "returned_tombstoned_refs" "returnedTombstonedRefs")
    let observed := Json.obj [(js "probe_count", .num probeCount), (js "top_k", .num topK), (js "hit_at_k", .num hitAtK),
      (js "exact_coverage", .num exactCoverage), (js "abstention_correctness", .num abstention), (js "measured", .bool true)]
    let status : Status :=
      if returnsTombstoned || probeCount = 0 then .critical
      else if below F (.finite hitAtK) hitFloor || below F (.finite exactCoverage) coverageFloor
        || below F (.finite abstention) abstentionFloor then .degraded
      else if Numeric.lt (.finite hitAtK) (plusNumber F hitFloor 0.05)
        || Numeric.lt (.finite exactCoverage) (plusNumber F coverageFloor 0.05)
        || Numeric.lt (.finite abstention) (plusNumber F abstentionFloor 0.05) then .watch
      else .healthy
    healthMetric P .retrieval_hit_rate status (bandScore status ((hitAtK + exactCoverage + abstention) / 3)) observed thresholds
      (unlessHealthy status ["Rebuild retrieval indexes.", "Inspect namespace filters and capability scopes.",
        "Compare against the last healthy benchmark report hash."])

def computeTokenReduction (activeCount : ℕ) (contextPackProvided : Bool) (selectedCount : ℕ) (retrievalGuardPassed : Bool)
    (policy : Json) : Metric :=
  let F := P.toNumberFormat
  let floor := policy.get (js "token_reduction_floor")
  let thresholds := Json.obj (field (js "token_reduction_floor") floor ++ [(js "quality_guard_required", .bool true)])
  let baseline := activeCount * defaultTokensPerMemory
  if !contextPackProvided then
    healthMetric P .token_reduction .healthy 90 (.obj [(js "baseline_estimated_tokens", .num baseline),
        (js "selected_estimated_tokens", .num 0), (js "token_reduction_ratio", .num 0),
        (js "quality_guard_passed", .bool retrievalGuardPassed), (js "measured", .bool false)]) thresholds
      ["Supply a context pack or benchmark summary to measure token reduction."]
  else
    let selected := selectedCount * defaultTokensPerMemory
    let ratio : ℚ := if 0 < baseline then clamp01 (.finite (1 - selected / baseline)) else 0
    let observed := Json.obj [(js "baseline_estimated_tokens", .num baseline), (js "selected_estimated_tokens", .num selected),
      (js "token_reduction_ratio", .num (roundRatio ratio)), (js "quality_guard_passed", .bool retrievalGuardPassed),
      (js "measured", .bool true)]
    let status : Status :=
      if !retrievalGuardPassed then if atLeast F (.finite ratio) floor then .degraded else .critical
      else if atLeast F (.finite ratio) floor then .healthy else .watch
    healthMetric P .token_reduction status (bandScore status ratio) observed thresholds (unlessHealthy status
      ["Tune ranking thresholds only if the retrieval guard remains satisfied.", "Dedupe before reducing top-k.",
        "Never optimize tokens by suppressing required evidence refs."])

def computeReceiptCoverage (activeAddrs receipts : List Json) (latestAnchorBatchRef : Option Json) (policy : Json) : Metric :=
  let F := P.toNumberFormat
  let healthyFloor := policy.get (js "receipt_coverage_healthy_floor")
  let watchFloor := policy.get (js "receipt_coverage_watch_floor")
  let degradedFloor := policy.get (js "receipt_coverage_degraded_floor")
  let thresholds := Json.obj (field (js "healthy_floor") healthyFloor ++ field (js "watch_floor") watchFloor
    ++ field (js "degraded_floor") degradedFloor)
  let coveredAddrs := receipts.filterMap fun receipt => (either receipt "memory_addr" "memoryAddr").filter fun a => isString (some a)
  let invalid := receipts.countP fun receipt =>
    Json.truthy (receipt.get (js "schema")) && !Json.isStr (receipt.get (js "schema")) (js "enigma.receipt.v1")
  let observed (covered : ℕ) (ratio : ℚ) := Json.obj [(js "active_ref_count", .num activeAddrs.length),
    (js "covered_ref_count", .num covered), (js "receipt_coverage_ratio", .num ratio), (js "invalid_receipt_count", .num invalid),
    (js "latest_anchor_batch_ref", withDefault latestAnchorBatchRef .null)]
  if activeAddrs.length = 0 then healthMetric P .receipt_coverage .healthy 100 (observed 0 1) thresholds []
  else
    let covered := activeAddrs.countP (hasValue coveredAddrs)
    let ratio : ℚ := covered / activeAddrs.length
    let status : Status :=
      if below F (.finite ratio) degradedFloor then .critical
      else if 0 < invalid || below F (.finite ratio) watchFloor then .degraded
      else if below F (.finite ratio) healthyFloor then .watch
      else .healthy
    healthMetric P .receipt_coverage status (bandScore status ratio) (observed covered (roundRatio ratio)) thresholds
      (unlessHealthy status ["Issue local receipts for uncovered active refs.", "Regenerate inclusion roots after compaction.",
        "Verify anchor batches before external publication."])

def computeConnectorHealth (connectorSummary : Option Json) (policy : Json) : Metric :=
  let F := P.toNumberFormat
  let maxErrorRate := policy.get (js "connector_max_error_rate_24h")
  let thresholds := Json.obj ([(js "cursor_gap_count_allowed", .num 0)] ++ field (js "max_error_rate_24h") maxErrorRate)
  let observed (count healthy lagging : ℕ) (errorRate : ℚ) (gaps : ℕ) (measured : Bool) :=
    Json.obj [(js "connector_count", .num count), (js "healthy_connector_count", .num healthy),
      (js "lagging_connector_count", .num lagging), (js "error_rate_24h", .num errorRate), (js "cursor_gap_count", .num gaps),
      (js "measured", .bool measured)]
  match connectorSummary.filter fun summary => Json.truthy (some summary) with
  | none => healthMetric P .connector_health .healthy 100 (observed 0 0 0 0 0 false) thresholds
      ["Supply connector_summary to measure connector health."]
  | some summary =>
    let count := nonNegativeInt F (either summary "connector_count" "connectorCount")
    let healthy := nonNegativeInt F (either summary "healthy_connector_count" "healthyConnectorCount")
    let lagging := nonNegativeInt F (either summary "lagging_connector_count" "laggingConnectorCount")
    let errorRate := clampRatio F (either summary "error_rate_24h" "errorRate24h")
    let gaps := nonNegativeInt F (either summary "cursor_gap_count" "cursorGapCount")
    let status : Status :=
      if 0 < gaps then .critical
      else if above F (.finite errorRate) maxErrorRate || 0 < lagging then .degraded
      else .healthy
    let goodness : ℚ := if count = 0 then 1 else healthy / count
    healthMetric P .connector_health status (bandScore status goodness) (observed count healthy lagging (roundRatio errorRate) gaps true)
      thresholds (unlessHealthy status ["Pause unhealthy connector scopes before replay.",
        "Repair cursor gaps from receipt refs, not raw provider payloads.", "Require connector imports to emit idempotency refs."])

/-- What the loop over the replicas adds up. -/
structure ReplicaCounts where
  disagreement : ℕ := 0
  maxLag : ℕ := 0
  unmerged : ℕ := 0
  conflicting : ℕ := 0

def countReplica (currentRoot : Json) (counts : ReplicaCounts) (replica : Json) : Except JsError ReplicaCounts :=
  match replica with
  | .null => .error (typeError (js "Cannot read properties of null (reading 'reported_root')"))
  | replica =>
    let F := P.toNumberFormat
    let reportedRoot := either replica "reported_root" "reportedRoot"
    let disagrees := Json.truthy reportedRoot && !strictEq reportedRoot (some currentRoot) && notFalse (replica.get (js "active"))
    .ok ⟨counts.disagreement + (if disagrees then 1 else 0),
      max counts.maxLag (nonNegativeInt F (either replica "lag_versions" "lagVersions")),
      counts.unmerged + (if Json.truthy (either replica "unmerged_branch" "unmergedBranch") then 1 else 0),
      counts.conflicting + nonNegativeInt F (either replica "conflicting_capabilities" "conflictingCapabilities")⟩

def computeSyncForkRisk (replicas : Option Json) (currentRoot : Json) (policy : Json) : Except JsError Metric := do
  let F := P.toNumberFormat
  let replicaList := arrayItems replicas
  let counts ← replicaList.foldlM (countReplica P currentRoot) {}
  let observed := Json.obj [(js "replica_count", .num replicaList.length), (js "root_disagreement_count", .num counts.disagreement),
    (js "max_root_lag_versions", .num counts.maxLag), (js "unmerged_branch_count", .num counts.unmerged),
    (js "conflicting_capability_count", .num counts.conflicting), (js "measured", .bool (replicaList.length != 0))]
  let thresholds := Json.obj [(js "active_root_disagreement_allowed", .num 0), (js "conflicting_capability_count_allowed", .num 0)]
  if replicaList.length = 0 then
    return healthMetric P .sync_fork_risk .healthy 100 observed thresholds ["Supply replicas to measure sync fork risk."]
  let status : Status :=
    if 0 < counts.conflicting then .critical
    else if 0 < counts.disagreement then .degraded
    else if above F (.finite counts.maxLag) (policy.get (js "sync_max_read_only_lag_versions")) || 0 < counts.unmerged then .watch
    else .healthy
  let goodness : ℚ := 1 - clamp01 (.finite ((counts.disagreement + counts.conflicting : ℕ) / (max 1 replicaList.length : ℕ)))
  return healthMetric P .sync_fork_risk status (bandScore status goodness) observed thresholds (unlessHealthy status
    ["Freeze write grants for forked namespaces.", "Merge by public-safe root/ref lineage and tombstone nullifiers.",
      "Publish only the post-merge root after validation."])

/-! ## The leakage scan -/

def forbiddenWords : List String :=
  ["raw", "plaintext", "plain_text", "prompt", "prompts", "message", "messages", "text", "content", "document", "documents",
    "transcript", "transcripts", "completion", "completions", "embedding", "embeddings", "provider_response",
    "provider_responses", "response_body", "credential", "credentials", "api_key", "secret", "password", "private_key", "seed",
    "seed_phrase", "mnemonic", "tenant_name", "customer_name", "organization_name", "org_name"]

/-- `HEALTH_FORBIDDEN_KEY_RE` -/
def healthForbiddenKeyRe : Regex := cat [any [start, litU "_"], any (forbiddenWords.map litU), any [stop, litU "_"]]

/-- `HEALTH_SECRET_VALUE_RE` -/
def healthSecretValueRe : Regex :=
  any [cat [litU "Bearer", plus space, Regex.atLeast (letterClass ((48, 57) :: charRanges "._~+/=-")) 12],
    cat [litU "Basic", plus space, Regex.atLeast (letterClass ((48, 57) :: charRanges "+/=-")) 12],
    cat [litU "-----BEGIN ", star (letterClass (charRanges " ")), litU "PRIVATE KEY-----"],
    cat [litU "http", opt (litU "s"), litU "://", plus (cls ⟨whiteRanges ++ charRanges "/:@", true⟩), litU ":",
      plus (cls ⟨whiteRanges ++ charRanges "/@", true⟩), litU "@"],
    cat [litU "sk-", Regex.atLeast (letterClass ((48, 57) :: charRanges "_-")) 16],
    cat [litU "AKIA", times (letterClass [(48, 57)]) 16],
    any (["seed phrase", "mnemonic phrase", "raw memory", "private prompt", "full transcript", "provider response",
      "embedding vector"].map litU)]

/-- `HEALTH_SAFE_KEYS` -/
def healthSafeKeys : List JsString :=
  [js "transaction_submitted", js "raw_memory_on_chain", js "provider_deletion_claim", js "model_forgetting_claim",
    js "hosted_saas_claim", js "report_ref", js "drive_ref", js "namespace_ref", js "source_root", js "policy_ref",
    js "artifact_root", js "instruction_ref", js "latest_anchor_batch_ref", js "private_payloads_included",
    js "connector_bodies_included", js "identity_labels_included", js "secret_material_included",
    js "provider_bodies_included", js "secret_value_hits", js "forbidden_payload_key_hits", js "secret_value_hits_allowed",
    js "forbidden_payload_key_hits_allowed"]

/-- The paths of what the scan found. -/
structure Hits where
  keys : List JsString := []
  secret : List JsString := []

def hitsAppend (a b : Hits) : Hits := ⟨a.keys ++ b.keys, a.secret ++ b.secret⟩

/-- `path ? path.key : key` -/
def childPath (path key : JsString) : JsString := if path = [] then key else keyPath path key

mutual
def healthScan (F : NumberFormat) : Json → JsString → Hits
  | .str s, path => if regexTest healthSecretValueRe s then { secret := [if path = [] then js "<root>" else path] } else {}
  | .arr xs, path => healthScanItems F xs path 0
  | .obj fs, path => healthScanFields F fs path
  | _, _ => {}

def healthScanItems (F : NumberFormat) : List Json → JsString → ℕ → Hits
  | [], _, _ => {}
  | x :: xs, path, index => hitsAppend (healthScan F x (indexPath F path index)) (healthScanItems F xs path (index + 1))

def healthScanFields (F : NumberFormat) : List (JsString × Json) → JsString → Hits
  | [], _ => {}
  | (key, child) :: fs, path =>
    let named : Hits :=
      if regexTest healthForbiddenKeyRe key && decide (key ∉ healthSafeKeys) then { keys := [childPath path key] } else {}
    hitsAppend named (hitsAppend (healthScan F child (childPath path key)) (healthScanFields F fs path))
end

def computeLeakageScan (reportBody : Json) (scanInputs : List Json) : Metric :=
  let F := P.toNumberFormat
  let hits := (scanInputs ++ [reportBody]).foldl (fun hits input => hitsAppend hits (healthScan F input [])) {}
  let forbiddenHits := hits.keys.length
  let secretHits := hits.secret.length
  let found : Bool := 0 < forbiddenHits || 0 < secretHits
  let unsafeArtifactRefs := if found then
    [Json.str (js "leakage_scan_" ++ healthDigest P (.obj [(js "forbiddenHits", .num forbiddenHits), (js "secretHits", .num secretHits)]))]
    else []
  let observed := Json.obj [(js "scanned_artifact_count", .num scanInputs.length),
    (js "forbidden_payload_key_hits", .num forbiddenHits), (js "secret_value_hits", .num secretHits),
    (js "unsafe_artifact_refs", .arr unsafeArtifactRefs)]
  let thresholds := Json.obj [(js "forbidden_payload_key_hits_allowed", .num 0), (js "secret_value_hits_allowed", .num 0)]
  let status : Status := if found then .critical else .healthy
  healthMetric P .leakage_scan status (if status = .healthy then 100 else bandScore .critical 0) observed thresholds
    (unlessHealthy status ["Quarantine unsafe artifacts.", "Regenerate reports from public-safe fields only.",
      "Block proof-network packet creation until the leakage scan is clean."])

/-! ## The report -/

def memoryDriveHealthSchema : JsString := js "enigma.memory_drive_health_report.v1"

def defaultHealthNow : JsString := js "2026-06-25T00:00:00.000Z"

/-- The arguments: the vault, the time (a nullish one is `none`), and the object that all else is read from. -/
structure HealthArgs where
  options : Json := .obj []
  vault : Option StateInput := none
  now : Option Now := none

def privacyBoundaries : Json :=
  .obj [(js "private_payloads_included", .bool false), (js "connector_bodies_included", .bool false),
    (js "identity_labels_included", .bool false), (js "secret_material_included", .bool false),
    (js "provider_bodies_included", .bool false)]

def claimBoundaries : Json :=
  .obj [(js "description", .str (js "Local operational SMART-style health evidence computed from public-safe counters, roots, receipt metadata, tombstones, and derived/context-pack refs only.")),
    (js "excludes", .arr (["Does not prove provider deletion or model forgetting.", "Does not certify compliance.",
      "Does not prove live-chain settlement or a submitted transaction.",
      "Does not include plaintext payloads, prompts, connector bodies, identity labels, or secret material."].map
        fun s => .str (js s)))]

def Artifact.publicSummary (a : Artifact) : Json :=
  .obj ([(js "artifact_type", a.artifact_type)] ++ field (js "source_root") a.source_root
    ++ [(js "memory_addresses", a.memory_addresses)] ++ field (js "generated_at") a.generated_at)

abbrev Metrics := MetricName → Metric

/-- The order of the metrics in a report; the leakage scan, which reads the others, is added last. -/
def reportOrder : List MetricName :=
  [.freshness, .duplicate_rate, .tombstone_risk, .stale_derived_artifacts, .retrieval_hit_rate, .token_reduction,
    .receipt_coverage, .connector_health, .sync_fork_risk]

def metricsJson (names : List MetricName) (metrics : Metrics) : Json :=
  .obj (names.map fun name => (name.text, (metrics name).toJson))

def weightedAverage (metrics : Metrics) : ℚ :=
  let totalWeight := (MetricName.all.map MetricName.weight).sum
  let weightedSum := (MetricName.all.map fun name => (metrics name).score * (name.weight : ℤ)).sum
  if 0 < totalWeight then weightedSum / totalWeight else 0

def overallScore (metrics : Metrics) : ℤ :=
  let statuses := MetricName.all.map fun name => (metrics name).status
  mathRound (if Status.critical ∈ statuses then min (weightedAverage metrics) 49
    else if Status.degraded ∈ statuses then min (weightedAverage metrics) 70
    else weightedAverage metrics)

/-- The actions of all metrics, each one once. -/
def recommendedActions (metrics : Metrics) : List JsString :=
  let actions := (MetricName.all.flatMap fun name => (metrics name).recommended_actions).foldl
    (fun out action => if action ∈ out then out else out ++ [action]) []
  if actions = [] then [js "Keep normal monitoring cadence."] else actions

def reasonIf (cond : Bool) (reason : JsString) : List JsString := if cond then [reason] else []

def blockingReasons (metrics : Metrics) : List JsString :=
  let status name := (metrics name).status
  reasonIf (status .leakage_scan ≠ .healthy) (js "leakage_scan.status is not healthy")
    ++ reasonIf (status .tombstone_risk = .critical) (js "tombstone_risk.status is critical")
    ++ reasonIf (status .sync_fork_risk = .critical) (js "sync_fork_risk.status is critical")
    ++ reasonIf (status .stale_derived_artifacts = .critical || status .stale_derived_artifacts = .degraded)
      (js "stale_derived_artifacts.status is " ++ (status .stale_derived_artifacts).text)
    ++ reasonIf (status .receipt_coverage = .critical) (js "receipt_coverage.status is critical")
    ++ reasonIf (status .retrieval_hit_rate = .critical) (js "retrieval_hit_rate.status is critical")

structure HealthReport where
  created_at : JsString
  drive_ref : JsString
  namespace_ref : JsString
  source_root : JsString
  policy_ref : JsString
  overall_status : Status
  overall_score : ℤ
  active_set_root : Json
  receipt_log_root : Json
  metrics : Metrics
  recommended_actions : List JsString
  blocking_reasons : List JsString
  active_ref_count : ℕ
  scanned_artifact_count : ℕ
  connector_count : ℕ

/-- `reportCore`, with `artifact_root` when the report has its reference. -/
def HealthReport.core (r : HealthReport) (artifactRoot : Option JsString) : List (JsString × Json) :=
  [(js "schema", .str memoryDriveHealthSchema), (js "created_at", .str r.created_at), (js "drive_ref", .str r.drive_ref),
    (js "namespace_ref", .str r.namespace_ref), (js "source_root", .str r.source_root), (js "policy_ref", .str r.policy_ref),
    (js "overall_status", .str r.overall_status.text), (js "overall_score", .num r.overall_score),
    (js "transaction_submitted", .bool false), (js "raw_memory_on_chain", .bool false),
    (js "privacy_boundaries", privacyBoundaries),
    (js "roots", .obj [(js "active_set_root", r.active_set_root), (js "receipt_log_root", r.receipt_log_root)]),
    (js "metrics", metricsJson (reportOrder ++ [.leakage_scan]) r.metrics),
    (js "recommended_actions", .arr (r.recommended_actions.map .str)), (js "claim_boundaries", claimBoundaries),
    (js "proof_network_ready", .obj [(js "eligible_for_anchor_batch", .bool r.blocking_reasons.isEmpty),
      (js "blocking_reasons", .arr (r.blocking_reasons.map .str)), (js "public_payload_only", .bool true),
      (js "suggested_anchor_fields", .obj ([(js "artifact_type", .str (js "memory_drive_health_report")),
        (js "artifact_schema", .str memoryDriveHealthSchema), (js "source_root", .str r.source_root),
        (js "counts", .obj [(js "active_ref_count", .num r.active_ref_count),
          (js "scanned_artifact_count", .num r.scanned_artifact_count), (js "connector_count", .num r.connector_count)])]
        ++ field (js "artifact_root") (artifactRoot.map .str)))])]

def HealthReport.report_ref (r : HealthReport) : JsString := js "health_report_" ++ healthDigest P (.obj (r.core none))

def HealthReport.toJson (r : HealthReport) : Json :=
  .obj (r.core (some (r.report_ref P)) ++ [(js "report_ref", .str (r.report_ref P))])

/-- The policy in force: the defaults, with what the arguments say in their place. -/
def healthPolicy (options : Json) : Json :=
  (Json.obj defaultHealthPolicy).spread (spreadCopy P.toNumberFormat (withDefault (options.get (js "policy")) (.obj [])))

/-- The metrics other than the leakage scan. -/
def nineMetrics (args : HealthArgs) (currentRoot : Json) (nowMs : Option ℤ) (tombstones : List Json) :
    Except JsError (Metric → Metrics) := do
  let options := args.options
  let policy := healthPolicy P options
  let activeAddrs := distinctValues (activeAddressesFrom args.vault)
  let records := activeAddrs.filterMap fun addr => (vaultRecord args.vault addr).filter fun r => Json.truthy (some r)
  let receipts := receiptsOf args.vault
  let artifacts := normalizeContextPacks options
  let benchmarkSummary := either options "benchmarkSummary" "benchmark_summary"
  let connectorSummary := either options "connectorSummary" "connector_summary"
  let replayWindowHours := firstOf [path connectorSummary ["tombstone_replay_window_hours"],
    path connectorSummary ["tombstoneReplayWindowHours"], some (.num 0)]
  let freshness := computeFreshness P records policy nowMs
  let duplicateRate := computeDuplicateRate P records policy
  let tombstoneRisk ← computeTombstoneRisk P tombstones (deleteReceiptAddrs receipts) artifacts replayWindowHours policy
  let staleDerivedArtifacts := computeStaleDerivedArtifacts P artifacts currentRoot nowMs
  let retrievalHitRate := computeRetrievalHitRate P benchmarkSummary policy
  let tokenReduction := computeTokenReduction P activeAddrs.length (!artifacts.isEmpty)
    (artifacts.map fun artifact => artifact.addresses.length).sum (retrievalHitRate.status = .healthy) policy
  let connectorHealth := computeConnectorHealth P connectorSummary policy
  let syncForkRisk ← computeSyncForkRisk P (options.get (js "replicas")) currentRoot policy
  let receiptCoverage := computeReceiptCoverage P activeAddrs receipts
    (either options "latest_anchor_batch_ref" "latestAnchorBatchRef") policy
  return fun leakageScan name => match name with
    | .freshness => freshness
    | .duplicate_rate => duplicateRate
    | .tombstone_risk => tombstoneRisk
    | .stale_derived_artifacts => staleDerivedArtifacts
    | .retrieval_hit_rate => retrievalHitRate
    | .token_reduction => tokenReduction
    | .leakage_scan => leakageScan
    | .receipt_coverage => receiptCoverage
    | .connector_health => connectorHealth
    | .sync_fork_risk => syncForkRisk

/-- What the scan reads: the report so far, the artifacts and the summaries. -/
def scanInputs (options : Json) (reportProxy : Json) : List Json :=
  let summary (value : Option Json) := value.toList.filter fun v => Json.truthy (some v)
  reportProxy :: (normalizeContextPacks options).map Artifact.publicSummary
    ++ summary (either options "benchmarkSummary" "benchmark_summary")
    ++ summary (either options "connectorSummary" "connector_summary")

def createMemoryDriveHealthReport (time : ℤ) (args : HealthArgs) : Except JsError HealthReport := do
  let options := args.options
  let createdAt ← nowIso P time (args.now.getD (.text defaultHealthNow))
  let currentRoots ← rootsFromVault P args.vault
  let tombstones ← tombstoneAddressesFrom args.vault
  let metricsWith ← nineMetrics P args currentRoots.1 (P.parseDate createdAt) (distinctValues tombstones)
  let reportProxy := Json.obj [(js "schema", .str memoryDriveHealthSchema),
    -- the nine metrics do not depend on the scan
    (js "metrics", metricsJson reportOrder (metricsWith (healthMetric P .leakage_scan .healthy 100 .null .null []))),
    (js "privacy_boundaries", privacyBoundaries), (js "claim_boundaries", claimBoundaries)]
  let metrics := metricsWith (computeLeakageScan P reportProxy (scanInputs options reportProxy))
  let identity := driveIdentity args.vault (options.get (js "passport"))
  let connectorSummary := (either options "connectorSummary" "connector_summary").filter fun s => Json.truthy (some s)
  return {
    created_at := createdAt
    drive_ref := js "drive_" ++ healthDigest P (.obj [(js "vault_id", identity.vault_id), (js "tenant_id", identity.tenant_id),
      (js "subject_id", identity.subject_id)])
    namespace_ref := js "namespace_" ++ healthDigest P (.obj [(js "tenant_id", identity.tenant_id),
      (js "subject_id", identity.subject_id), (js "policy_id", identity.policy_id)])
    source_root := js "memory_root_" ++ currentRoots.1.toText P.toNumberFormat
    policy_ref := js "memory_health_policy_" ++ healthDigest P (healthPolicy P options)
    overall_status := statusFromScore (overallScore metrics)
    overall_score := overallScore metrics
    active_set_root := currentRoots.1
    receipt_log_root := currentRoots.2
    metrics := metrics
    recommended_actions := recommendedActions metrics
    blocking_reasons := blockingReasons metrics
    active_ref_count := (distinctValues (activeAddressesFrom args.vault)).length
    scanned_artifact_count := (scanInputs options reportProxy).length
    connector_count := (connectorSummary.map fun s =>
      nonNegativeInt P.toNumberFormat (either s "connector_count" "connectorCount")).getD 0 }

end EnigmaMemory.DriveHealth
