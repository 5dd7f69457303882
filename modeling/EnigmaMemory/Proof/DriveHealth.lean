import Mathlib.Algebra.BigOperators.Ring.List
import Mathlib.Algebra.Order.BigOperators.Group.List
import Mathlib.Algebra.Order.Floor.Ring
import Mathlib.Algebra.Order.Ring.Rat
import Mathlib.Data.Rat.Floor
import Mathlib.Tactic.Linarith
import EnigmaMemory.Proof.Reference
import EnigmaMemory.Spec.DriveHealth

/-!
# The verdict of a health report

Every metric computes its status and its score by rules of its own, but the score always lies in the band of the
status (`Metric.InBand`). The weighted average of scores above a bound is above it too, and the cap for a critical
or a degraded metric keeps the rounded average below the next band.

* `verdict_bounded`: so the overall status is the worst there is among the metrics, except that it may call a drive
  healthy of which some metrics are to be watched, or the other way round.
-/

namespace EnigmaMemory.DriveHealth

open Json

variable {P : Platform}

/-! ## Rounding -/

theorem mathRound_mono {x y : ℚ} (h : x ≤ y) : mathRound x ≤ mathRound y := Int.floor_mono (by linarith)

theorem mathRound_intCast (n : ℤ) : mathRound n = n := by
  refine Int.floor_eq_iff.2 ⟨by linarith, by linarith⟩

/-- Rounding does not pass a whole number. -/
theorem le_mathRound {n : ℤ} {x : ℚ} (h : n ≤ x) : n ≤ mathRound x := by
  have hmono := mathRound_mono h
  rwa [mathRound_intCast] at hmono

theorem mathRound_le {n : ℤ} {x : ℚ} (h : x ≤ n) : mathRound x ≤ n := by
  have hmono := mathRound_mono h
  rwa [mathRound_intCast] at hmono

theorem clamp01_bounds (n : Numeric) : 0 ≤ clamp01 n ∧ clamp01 n ≤ 1 := by
  cases n with
  | finite q =>
    rw [clamp01]
    split_ifs with hlow hhigh
    · exact ⟨le_rfl, zero_le_one⟩
    · exact ⟨zero_le_one, le_rfl⟩
    · exact ⟨not_lt.1 hlow, not_lt.1 hhigh⟩
  | nan | negInf | posInf => exact ⟨le_rfl, zero_le_one⟩

/-- A part of a band, rounded. -/
theorem mathRound_part (width : ℕ) (n : Numeric) :
    0 ≤ mathRound (width * clamp01 n) ∧ mathRound (width * clamp01 n) ≤ width := by
  obtain ⟨hlow, hhigh⟩ := clamp01_bounds n
  have hwidth : (0 : ℚ) ≤ width := Nat.cast_nonneg width
  refine ⟨le_mathRound ?_, mathRound_le ?_⟩
  · rw [Int.cast_zero]
    exact mul_nonneg hwidth hlow
  · rw [Int.cast_natCast]
    exact mul_le_of_le_one_right hwidth hhigh

/-! ## Bands -/

/-- The lowest score of a status. -/
def Status.lowest : Status → ℤ
  | healthy => 90
  | watch => 75
  | degraded => 50
  | critical => 0

/-- The highest score of a status. -/
def Status.highest : Status → ℤ
  | healthy => 100
  | watch => 89
  | degraded => 74
  | critical => 49

structure Metric.InBand (m : Metric) : Prop where
  lowest : m.status.lowest ≤ m.score
  highest : m.score ≤ m.status.highest

theorem bandScore_bounds (status : Status) (goodness : ℚ) :
    status.lowest ≤ bandScore status goodness ∧ bandScore status goodness ≤ status.highest := by
  cases status with
  | healthy =>
    have h := mathRound_part 10 (.finite goodness)
    simp only [Status.lowest, Status.highest, bandScore]
    push_cast at h
    omega
  | watch =>
    have h := mathRound_part 14 (.finite goodness)
    simp only [Status.lowest, Status.highest, bandScore]
    push_cast at h
    omega
  | degraded =>
    have h := mathRound_part 24 (.finite goodness)
    simp only [Status.lowest, Status.highest, bandScore]
    push_cast at h
    omega
  | critical =>
    have h := mathRound_part 49 (.finite goodness)
    simp only [Status.lowest, Status.highest, bandScore]
    push_cast at h
    omega

/-- A metric that is scored by its status. -/
theorem scored_inBand {name : MetricName} {status : Status} {goodness : ℚ} {observed thresholds : Json} {actions : List String} :
    (healthMetric P name status (bandScore status goodness) observed thresholds actions).InBand :=
  ⟨(bandScore_bounds status goodness).1, (bandScore_bounds status goodness).2⟩

/-- A metric of a drive with nothing to measure. -/
theorem unmeasured_inBand {name : MetricName} {score : ℤ} {observed thresholds : Json} {actions : List String}
    (hlow : 90 ≤ score) (hhigh : score ≤ 100) : (healthMetric P name .healthy score observed thresholds actions).InBand :=
  ⟨hlow, hhigh⟩

/-! ## The metrics -/

section Metrics

variable {policy currentRoot : Json} {nowMs : Option ℤ} {m : Metric}

theorem computeFreshness_inBand (records : List Json) : (computeFreshness P records policy nowMs).InBand := by
  unfold computeFreshness
  split
  · exact unmeasured_inBand (by decide) (by decide)
  · exact scored_inBand

theorem computeDuplicateRate_inBand (records : List Json) : (computeDuplicateRate P records policy).InBand := scored_inBand

theorem computeTombstoneRisk_inBand {tombstones deleteAddrs : List Json} {artifacts : List Artifact} {hours : Option Json}
    (h : computeTombstoneRisk P tombstones deleteAddrs artifacts hours policy = .ok m) : m.InBand := by
  unfold computeTombstoneRisk at h
  obtain ⟨referencing, -, h⟩ := Except.bind_eq_ok.1 h
  rw [← Except.pure_eq_ok.1 h]
  exact scored_inBand

theorem computeStaleDerivedArtifacts_inBand (artifacts : List Artifact) :
    (computeStaleDerivedArtifacts P artifacts currentRoot nowMs).InBand := scored_inBand

theorem computeRetrievalHitRate_inBand (summary : Option Json) : (computeRetrievalHitRate P summary policy).InBand := by
  unfold computeRetrievalHitRate
  split
  · exact unmeasured_inBand (by decide) (by decide)
  · exact scored_inBand

theorem computeTokenReduction_inBand (active selected : ℕ) (provided guardPassed : Bool) :
    (computeTokenReduction P active provided selected guardPassed policy).InBand := by
  unfold computeTokenReduction
  split
  · exact unmeasured_inBand (by decide) (by decide)
  · exact scored_inBand

theorem computeLeakageScan_inBand (body : Json) (inputs : List Json) : (computeLeakageScan P body inputs).InBand := by
  have hfound : ∀ (found : Bool) (status : Status), status = (if found then .critical else .healthy) →
      status.lowest ≤ (if status = .healthy then 100 else bandScore .critical 0) ∧
        (if status = .healthy then 100 else bandScore .critical 0) ≤ status.highest := by
    rintro found status rfl
    cases found with
    | false => decide
    | true => exact bandScore_bounds .critical 0
  exact ⟨(hfound _ _ rfl).1, (hfound _ _ rfl).2⟩

theorem computeReceiptCoverage_inBand (addrs receipts : List Json) (anchor : Option Json) :
    (computeReceiptCoverage P addrs receipts anchor policy).InBand := by
  unfold computeReceiptCoverage
  split
  · exact unmeasured_inBand (by decide) (by decide)
  · exact scored_inBand

theorem computeConnectorHealth_inBand (summary : Option Json) : (computeConnectorHealth P summary policy).InBand := by
  unfold computeConnectorHealth
  split
  · exact unmeasured_inBand (by decide) (by decide)
  · exact scored_inBand

theorem computeSyncForkRisk_inBand {replicas : Option Json}
    (h : computeSyncForkRisk P replicas currentRoot policy = .ok m) : m.InBand := by
  unfold computeSyncForkRisk at h
  obtain ⟨counts, -, h⟩ := Except.bind_eq_ok.1 h
  split at h
  · rw [← Except.pure_eq_ok.1 h]
    exact unmeasured_inBand (by decide) (by decide)
  · rw [← Except.pure_eq_ok.1 h]
    exact scored_inBand

end Metrics

/-- **All metrics of a report are in their bands**, if the scan is. -/
theorem nineMetrics_inBand {args : HealthArgs} {currentRoot : Json} {nowMs : Option ℤ} {tombstones : List Json}
    {metricsWith : Metric → Metrics} {scan : Metric} (h : nineMetrics P args currentRoot nowMs tombstones = .ok metricsWith)
    (hscan : scan.InBand) (name : MetricName) : (metricsWith scan name).InBand := by
  unfold nineMetrics at h
  obtain ⟨tombstoneRisk, htombstone, h⟩ := Except.bind_eq_ok.1 h
  obtain ⟨syncForkRisk, hsync, h⟩ := Except.bind_eq_ok.1 h
  rw [← Except.pure_eq_ok.1 h]
  cases name with
  | freshness => exact computeFreshness_inBand _
  | duplicate_rate => exact computeDuplicateRate_inBand _
  | tombstone_risk => exact computeTombstoneRisk_inBand htombstone
  | stale_derived_artifacts => exact computeStaleDerivedArtifacts_inBand _
  | retrieval_hit_rate => exact computeRetrievalHitRate_inBand _
  | token_reduction => exact computeTokenReduction_inBand _ _ _ _
  | leakage_scan => exact hscan
  | receipt_coverage => exact computeReceiptCoverage_inBand _ _ _
  | connector_health => exact computeConnectorHealth_inBand _
  | sync_fork_risk => exact computeSyncForkRisk_inBand hsync

/-! ## The average -/

section Average

variable {metrics : Metrics}

theorem MetricName.mem_all (name : MetricName) : name ∈ MetricName.all := by
  cases name <;> decide

theorem weightedAverage_eq (metrics : Metrics) :
    weightedAverage metrics = ((MetricName.all.map fun name => (metrics name).score * (name.weight : ℤ)).sum : ℤ) / 100 := by
  have hweight : (MetricName.all.map MetricName.weight).sum = 100 := rfl
  simp only [weightedAverage, hweight]
  norm_num

theorem le_weightedAverage {bound : ℤ} (h : ∀ name, bound ≤ (metrics name).score) : bound ≤ weightedAverage metrics := by
  have hsum : (MetricName.all.map fun name => bound * (name.weight : ℤ)).sum ≤
      (MetricName.all.map fun name => (metrics name).score * (name.weight : ℤ)).sum :=
    List.sum_le_sum fun name _ => mul_le_mul_of_nonneg_right (h name) (Int.natCast_nonneg _)
  have htotal : (MetricName.all.map fun name => bound * (name.weight : ℤ)).sum = bound * 100 := by
    rw [List.sum_map_mul_left]
    rfl
  rw [htotal] at hsum
  rw [weightedAverage_eq, le_div_iff₀ (by norm_num)]
  exact_mod_cast hsum

end Average

/-! ## The verdict -/

theorem statusFromScore_critical {score : ℤ} (h : score ≤ 49) : statusFromScore score = .critical := by
  rw [statusFromScore, if_neg (by omega), if_neg (by omega), if_neg (by omega)]

theorem statusFromScore_degraded {score : ℤ} (hlow : 50 ≤ score) (hhigh : score ≤ 74) : statusFromScore score = .degraded := by
  rw [statusFromScore, if_neg (by omega), if_neg (by omega), if_pos hlow]

theorem statusFromScore_good {score : ℤ} (h : 75 ≤ score) : statusFromScore score = .watch ∨ statusFromScore score = .healthy := by
  unfold statusFromScore
  by_cases htop : 90 ≤ score
  · rw [if_pos htop]
    exact .inr rfl
  · rw [if_neg htop, if_pos h]
    exact .inl rfl

section Verdict

variable {metrics : Metrics}

theorem mem_statuses {status : Status} :
    status ∈ MetricName.all.map (fun name => (metrics name).status) ↔ ∃ name, (metrics name).status = status := by
  rw [List.mem_map]
  exact ⟨fun ⟨name, _, h⟩ => ⟨name, h⟩, fun ⟨name, h⟩ => ⟨name, name.mem_all, h⟩⟩

theorem overallScore_critical (h : ∃ name, (metrics name).status = .critical) : overallScore metrics ≤ 49 := by
  rw [overallScore, if_pos (mem_statuses.2 h)]
  exact mathRound_le (min_le_right _ _)

theorem overallScore_degraded (hband : ∀ name, (metrics name).InBand) (hcritical : ∀ name, (metrics name).status ≠ .critical)
    (hdegraded : ∃ name, (metrics name).status = .degraded) : 50 ≤ overallScore metrics ∧ overallScore metrics ≤ 70 := by
  have hlow : ∀ name, 50 ≤ (metrics name).score := by
    intro name
    refine le_trans ?_ (hband name).lowest
    have h := hcritical name
    cases hs : (metrics name).status with
    | critical => exact absurd hs h
    | healthy | watch | degraded => decide
  have hnone : Status.critical ∉ MetricName.all.map fun name => (metrics name).status :=
    fun h => (mem_statuses.1 h).elim hcritical
  rw [overallScore, if_neg hnone, if_pos (mem_statuses.2 hdegraded)]
  refine ⟨le_mathRound (le_min (le_weightedAverage hlow) (by norm_num)), mathRound_le (min_le_right _ _)⟩

theorem overallScore_good (hband : ∀ name, (metrics name).InBand)
    (h : ∀ name, (metrics name).status ≠ .critical ∧ (metrics name).status ≠ .degraded) : 75 ≤ overallScore metrics := by
  have hlow : ∀ name, 75 ≤ (metrics name).score := by
    intro name
    refine le_trans ?_ (hband name).lowest
    cases hs : (metrics name).status with
    | critical => exact absurd hs (h name).1
    | degraded => exact absurd hs (h name).2
    | healthy | watch => decide
  have hcritical : Status.critical ∉ MetricName.all.map fun name => (metrics name).status :=
    fun hmem => (mem_statuses.1 hmem).elim fun name => (h name).1
  have hdegraded : Status.degraded ∉ MetricName.all.map fun name => (metrics name).status :=
    fun hmem => (mem_statuses.1 hmem).elim fun name => (h name).2
  rw [overallScore, if_neg hcritical, if_neg hdegraded]
  exact le_mathRound (le_weightedAverage hlow)

end Verdict

/-- What a report is made of. -/
theorem createReport_ok {time : ℤ} {args : HealthArgs} {report : HealthReport}
    (h : createMemoryDriveHealthReport P time args = .ok report) :
    (∀ name, (report.metrics name).InBand) ∧ report.overall_status = statusFromScore (overallScore report.metrics) := by
  unfold createMemoryDriveHealthReport at h
  obtain ⟨createdAt, -, h⟩ := Except.bind_eq_ok.1 h
  obtain ⟨currentRoots, -, h⟩ := Except.bind_eq_ok.1 h
  obtain ⟨tombstones, -, h⟩ := Except.bind_eq_ok.1 h
  obtain ⟨metricsWith, hmetrics, h⟩ := Except.bind_eq_ok.1 h
  rw [← Except.pure_eq_ok.1 h]
  exact ⟨nineMetrics_inBand hmetrics (computeLeakageScan_inBand _ _), rfl⟩

/-- **The overall status is bounded by the worst metric**, and every score lies in the band of its status. -/
theorem verdict_bounded (P : Platform) (time : ℤ) (args : HealthArgs) (report : HealthReport)
    (h : createMemoryDriveHealthReport P time args = .ok report) :
    (∀ name, (report.metrics name).InBand) ∧
    ((∃ name, (report.metrics name).status = .critical) → report.overall_status = .critical) ∧
    ((∀ name, (report.metrics name).status ≠ .critical) → (∃ name, (report.metrics name).status = .degraded) →
      report.overall_status = .degraded) ∧
    ((∀ name, (report.metrics name).status ≠ .critical ∧ (report.metrics name).status ≠ .degraded) →
      report.overall_status = .watch ∨ report.overall_status = .healthy) := by
  obtain ⟨hband, hstatus⟩ := createReport_ok h
  rw [hstatus]
  refine ⟨hband, fun hcritical => ?_, fun hcritical hdegraded => ?_, fun hgood => ?_⟩
  · exact statusFromScore_critical (overallScore_critical hcritical)
  · obtain ⟨hlow, hhigh⟩ := overallScore_degraded hband hcritical hdegraded
    exact statusFromScore_degraded hlow (by omega)
  · exact statusFromScore_good (overallScore_good hband hgood)

/-- A benchmark that probed nothing makes the drive critical. -/
def idleBenchmark : HealthArgs where
  options := .obj [(js "benchmarkSummary", .obj [(js "probe_count", .num 0)])]
  now := some .absent

theorem verdict_of_idleBenchmark : ∃ report, createMemoryDriveHealthReport reference 0 idleBenchmark = .ok report ∧
    (report.metrics .retrieval_hit_rate).status = .critical ∧ report.overall_status = .critical := by
  obtain ⟨report, h⟩ : ∃ report, createMemoryDriveHealthReport reference 0 idleBenchmark = .ok report := ⟨_, rfl⟩
  have hretrieval : (report.metrics .retrieval_hit_rate).status = .critical := by
    cases h
    rfl
  exact ⟨report, h, hretrieval, (verdict_bounded reference 0 idleBenchmark report h).2.1 ⟨_, hretrieval⟩⟩

end EnigmaMemory.DriveHealth
