import EnigmaMemory.Lib.Result
import EnigmaMemory.Proof.JsString
import EnigmaMemory.Proof.Reference
import EnigmaMemory.Spec.Boundary

/-!
# What the status of a boundary simulation promises

* `row_cases`: when a scenario fails, and when a row that does not fail is marked as failed closed.
* `never_upgrades_iff`: the status is as bad as the manifest and the rows, but for a manifest without errors
  that declares a broken path, run on scenarios of which none fails.
-/

namespace EnigmaMemory.Boundary

variable (P : Platform)

/-! ## Manifests -/

/-- Some path of the manifest is declared broken. -/
def DeclaresBroken (manifest : Json) : Prop := ∃ path ∈ pathsOf manifest, isBroken path = true

theorem isPlainRecord_of_isBroken {path : Json} (h : isBroken path = true) : path.isPlainRecord = true := by
  cases path <;> first | rfl | cases h

theorem scanPath_hasBroken (scan : Scan) (entry : Json × ℕ) :
    (scanPath P scan entry).hasBroken = (scan.hasBroken || isBroken entry.1) := by
  simp only [scanPath]
  split
  · rfl
  · rename_i h
    rw [Bool.eq_false_iff.2 fun hb => h (isPlainRecord_of_isBroken hb), Bool.or_false]

theorem scan_hasBroken (entries : List (Json × ℕ)) (scan : Scan) :
    (entries.foldl (scanPath P) scan).hasBroken = (scan.hasBroken || (entries.map Prod.fst).any isBroken) := by
  induction entries generalizing scan with
  | nil => simp
  | cons entry rest ih => rw [List.foldl_cons, ih, scanPath_hasBroken, List.map_cons, List.any_cons, Bool.or_assoc]

theorem hasBroken_iff (manifest : Json) : (scanPaths P manifest).hasBroken = true ↔ DeclaresBroken manifest := by
  rw [scanPaths, scan_hasBroken, List.zipIdx_map_fst, Bool.false_or, List.any_eq_true]
  rfl

/-- The verification finds no error. -/
def Verified (manifest : Option Json) : Prop := (verifyBoundaryManifest P manifest).ok = true

theorem Verified.obj {P : Platform} {manifest : Option Json} (h : Verified P manifest) :
    ∃ fs, manifest = some (.obj fs) ∧ (manifestErrors P (.obj fs)).isEmpty = true := by
  unfold Verified verifyBoundaryManifest at h
  split at h
  · exact ⟨_, rfl, h⟩
  · exact absurd h Bool.false_ne_true

/-- **The status of a verified manifest** is bad if a path is broken. -/
theorem status_eq_fail_iff {manifest : Option Json} (h : Verified P manifest) :
    (verifyBoundaryManifest P manifest).status = .fail ↔ DeclaresBroken (manifest.getD .null) := by
  obtain ⟨fs, rfl, hempty⟩ := h.obj
  rw [← hasBroken_iff P]
  simp only [verifyBoundaryManifest, hempty, Option.getD_some]
  cases (scanPaths P (.obj fs)).hasBroken with
  | true => simp
  | false =>
    refine iff_of_false ?_ Bool.false_ne_true
    cases (scanPaths P (.obj fs)).hasOutOfScope <;> decide

/-! ## Rows -/

theorem mem_of_single {found : List Json} {path : Json} (h : single found = .ok path) : found = [path] := by
  unfold single at h
  split at h <;> cases h
  rfl

/-- What a reference names is a path of the manifest. -/
theorem mem_of_findPath {manifest : Json} {pathRef : Option Json} {path : Json} (h : findPath manifest pathRef = .ok path) :
    path ∈ pathsOf manifest := by
  have hsingle : ∀ p : Json → Bool, single ((pathsOf manifest).filter p) = .ok path → path ∈ pathsOf manifest := by
    intro p hp
    have hmem : path ∈ (pathsOf manifest).filter p := by rw [mem_of_single hp]; exact List.mem_cons_self
    exact (List.mem_filter.1 hmem).1
  unfold findPath at h
  split at h
  · cases h
  · split at h
    · obtain ⟨found, hfound, h⟩ := Except.bind_eq_ok.1 h
      split at h
      · rw [← Except.ok.inj h] at hsingle ⊢
        exact hsingle _ hfound
      · cases h
    · exact hsingle _ h
    · cases h

theorem classify_of_verified {manifest : Option Json} (h : Verified P manifest) (pathRef : Option Json) :
    classifyBoundaryPath P manifest pathRef =
      match findPath (manifest.getD .null) pathRef with
      | .ok path => knownPath path
      | .error reason => unknownPath reason [] := by
  rw [classifyBoundaryPath]
  exact if_pos h

/-- A scenario that does not fail, on a manifest without errors: its path is declared and out of scope, or the
fact did not arrive, or it arrived by the committed channel and the path is not blocked. -/
def Harmless (manifest scenario : Json) : Prop :=
  ∃ path, findPath manifest (scenarioRef scenario) = .ok path ∧
    (classificationOf (path.get (js "classification")) = some .declaredOutOfScope ∨ bHasFact scenario = false ∨
      classificationOf (path.get (js "classification")) ≠ some .blocked ∧ Json.truthy (scenario.get (js "committed")) = true)

theorem verdictOf_known {classified : Classified} (h : classified.known = true) (got crossed : Bool) :
    (verdictOf classified got crossed).2 ≠ .fail ↔ classified.classification = some .declaredOutOfScope ∨ got = false ∨
      classified.classification ≠ some .blocked ∧ crossed = true := by
  simp only [verdictOf, h]
  grind

/-- **When a scenario fails.** -/
theorem row_ne_fail_iff {manifest : Option Json} (h : Verified P manifest) (scenario : Json) :
    (rowOf P manifest scenario).verdict ≠ .fail ↔ Harmless (manifest.getD .null) scenario := by
  simp only [rowOf, classify_of_verified P h, Harmless]
  cases hfind : findPath (manifest.getD .null) (scenarioRef scenario) with
  | error reason => exact iff_of_false (fun hne => hne rfl) fun ⟨_, he, _⟩ => nomatch he
  | ok path =>
    simp only [Except.ok.injEq, exists_eq_left']
    exact verdictOf_known rfl _ _

/-- A row that does not fail is marked only on a broken path. -/
theorem row_failClosed {manifest : Option Json} (h : Verified P manifest) (hbroken : ¬ DeclaresBroken (manifest.getD .null))
    {scenario : Json} (hrow : (rowOf P manifest scenario).verdict ≠ .fail) : (rowOf P manifest scenario).failClosed = false := by
  obtain ⟨path, hfind, -⟩ := (row_ne_fail_iff P h scenario).1 hrow
  have hpath : isBroken path = false := Bool.eq_false_iff.2 fun hb => hbroken ⟨path, mem_of_findPath hfind, hb⟩
  have hclassified : classifyBoundaryPath P manifest (scenarioRef scenario) = knownPath path := by
    rw [classify_of_verified P h, hfind]
  have hfailed : (rowOf P manifest scenario).failClosed = (decide ((rowOf P manifest scenario).verdict = .fail) ||
    (classifyBoundaryPath P manifest (scenarioRef scenario)).failClosed) := rfl
  rw [hfailed, decide_eq_false hrow, hclassified]
  exact hpath

/-! ## Runs -/

/-- What is asked of a report: no status better than that of the manifest and of every row. -/
structure NeverUpgrades (report : Report) : Prop where
  pass : report.status = .pass → report.manifestStatus = .pass ∧ ∀ row ∈ report.rows, row.verdict = .pass ∧ row.failClosed = false
  narrowGo : report.status = .narrowGo → report.manifestStatus ≠ .fail ∧ ∀ row ∈ report.rows, row.failClosed = false

theorem finalStatus_ne_fail {verification : Verification} {rows : List Row} (h : finalStatus verification rows ≠ .fail) :
    verification.ok = true ∧ ∀ row ∈ rows, row.verdict ≠ .fail := by
  unfold finalStatus at h
  split at h
  · exact absurd rfl h
  · rename_i hgood
    simpa using hgood

theorem finalStatus_eq_pass {verification : Verification} {rows : List Row} (h : finalStatus verification rows = .pass) :
    verification.status ≠ .narrowGo ∧ ∀ row ∈ rows, row.verdict = .pass := by
  obtain ⟨-, hrows⟩ := finalStatus_ne_fail (by rw [h]; decide)
  unfold finalStatus at h
  split at h
  · cases h
  · split at h
    · cases h
    · rename_i hwide
      simp only [Bool.or_eq_true, List.any_eq_true, decide_eq_true_eq, not_or, not_exists, not_and] at hwide
      refine ⟨hwide.2, fun row hrow => ?_⟩
      cases hverdict : row.verdict with
      | pass => rfl
      | narrowGo => exact absurd hverdict (hwide.1 row hrow)
      | fail => exact absurd hverdict (hrows row hrow)

/-- **The report of a manifest and its rows**, in terms of what is declared and what fails. -/
theorem neverUpgrades_iff {manifest : Option Json} {scenarios : List Json} {report : Report}
    (hstatus : report.manifestStatus = (verifyBoundaryManifest P manifest).status)
    (hrows : report.rows = scenarios.map (rowOf P manifest))
    (hfinal : report.status = finalStatus (verifyBoundaryManifest P manifest) report.rows) :
    NeverUpgrades report ↔ ¬ (Verified P manifest ∧ DeclaresBroken (manifest.getD .null) ∧
      ∀ scenario ∈ scenarios, Harmless (manifest.getD .null) scenario) := by
  constructor
  · rintro h ⟨hverified, hbroken, hharmless⟩
    have hfail : report.manifestStatus = .fail := hstatus.trans ((status_eq_fail_iff P hverified).2 hbroken)
    cases hreport : report.status with
    | pass => exact absurd ((h.pass hreport).1.symm.trans hfail) (by decide)
    | narrowGo => exact (h.narrowGo hreport).1 hfail
    | fail =>
      have hnone : report.rows.any (·.verdict = .fail) = false := by
        refine List.any_eq_false.2 fun row hrow hverdict => ?_
        rw [hrows] at hrow
        obtain ⟨scenario, hscenario, rfl⟩ := List.mem_map.1 hrow
        exact (row_ne_fail_iff P hverified scenario).2 (hharmless scenario hscenario) (of_decide_eq_true hverdict)
      rw [hfinal, finalStatus, hverified, hnone] at hreport
      simp only [Bool.not_true, Bool.or_self, Bool.false_eq_true, if_false] at hreport
      split at hreport <;> cases hreport
  · intro hnot
    have hrest : report.status ≠ .fail → report.manifestStatus ≠ .fail ∧ ∀ row ∈ report.rows, row.failClosed = false := by
      intro hne
      rw [hfinal] at hne
      obtain ⟨hverified, hall⟩ := finalStatus_ne_fail hne
      rw [hrows] at hall ⊢
      have hbroken : ¬ DeclaresBroken (manifest.getD .null) := fun hbroken => hnot ⟨hverified, hbroken, fun scenario hscenario =>
        (row_ne_fail_iff P hverified scenario).1 (hall _ (List.mem_map_of_mem hscenario))⟩
      refine ⟨fun hfail => hbroken ((status_eq_fail_iff P hverified).1 (hstatus.symm.trans hfail)), fun row hrow => ?_⟩
      obtain ⟨scenario, hscenario, rfl⟩ := List.mem_map.1 hrow
      exact row_failClosed P hverified hbroken (hall _ hrow)
    constructor
    · intro hpass
      obtain ⟨hne, hclosed⟩ := hrest (by rw [hpass]; decide)
      obtain ⟨hwide, hverdicts⟩ := finalStatus_eq_pass (hfinal.symm.trans hpass)
      refine ⟨?_, fun row hrow => ⟨hverdicts row hrow, hclosed row hrow⟩⟩
      cases hmanifest : report.manifestStatus with
      | pass => rfl
      | narrowGo => exact absurd (hstatus.symm.trans hmanifest) hwide
      | fail => exact absurd hmanifest hne
    · intro hnarrow
      exact hrest (by rw [hnarrow]; decide)

/-- The scenario has a fact to send. -/
def HasFact (scenario : Json) : Prop := ∃ fact, scenario.get (js "fact") = some fact

/-- What becomes of a scenario that has one. -/
def evaluation (manifest : Option Json) (hmacKey runId : JsString) (scenario : Json) : Row × Commitment :=
  (rowOf P manifest scenario, ⟨scenario.get (js "scenario"),
    factAddress P ((scenario.get (js "fact")).getD .null) hmacKey runId (scenario.get (js "scenario")), scenario.get (js "pathId")⟩)

theorem evaluate_ok_iff {manifest : Option Json} {hmacKey runId : JsString} {scenario : Json} {result : Row × Commitment} :
    evaluateScenario P manifest hmacKey runId scenario = .ok result ↔
      HasFact scenario ∧ evaluation P manifest hmacKey runId scenario = result := by
  unfold evaluateScenario evaluation HasFact
  cases scenario.get (js "fact") with
  | none => exact iff_of_false (fun h => nomatch h) fun ⟨⟨_, h⟩, _⟩ => nomatch h
  | some fact =>
    simp only [factCommitment, Except.ok_bind, Except.pure_eq_ok, Option.some.injEq, exists_eq', true_and, Option.getD_some]

theorem evaluated_ok_iff {manifest : Option Json} {hmacKey runId : JsString} {scenarios : List Json} {evaluated : List (Row × Commitment)} :
    scenarios.mapM (evaluateScenario P manifest hmacKey runId) = .ok evaluated ↔
      (∀ scenario ∈ scenarios, HasFact scenario) ∧ scenarios.map (evaluation P manifest hmacKey runId) = evaluated := by
  have hall : (∀ scenario ∈ scenarios, HasFact scenario) →
      scenarios.mapM (evaluateScenario P manifest hmacKey runId) = .ok (scenarios.map (evaluation P manifest hmacKey runId)) :=
    fun h => Except.mapM_of_forall fun scenario hscenario => (evaluate_ok_iff P).2 ⟨h scenario hscenario, rfl⟩
  constructor
  · intro h
    have hfacts : ∀ scenario ∈ scenarios, HasFact scenario := by
      intro scenario hscenario
      obtain ⟨result, -, hresult⟩ := Except.exists_of_mapM_mem h hscenario
      exact ((evaluate_ok_iff P).1 hresult).1
    exact ⟨hfacts, Except.ok.inj ((hall hfacts).symm.trans h)⟩
  · rintro ⟨hfacts, rfl⟩
    exact hall hfacts

/-- The scenarios of a run. -/
def scenariosOf (options : SimulationOptions) : Except JsError (List Json) :=
  items (Json.orElse options.scenarios (some (.arr scenarioDefinitions)))

/-- **Where the status is better than the report**: a broken path is declared in a manifest without errors, and
no scenario fails. -/
def Upgrades (options : SimulationOptions) : Prop :=
  ∃ manifest scenarios, manifestFor P options = .ok manifest ∧ scenariosOf options = .ok scenarios ∧
    (∀ scenario ∈ scenarios, HasFact scenario) ∧ Verified P manifest ∧ DeclaresBroken (manifest.getD .null) ∧
    ∀ scenario ∈ scenarios, Harmless (manifest.getD .null) scenario

/-- A run gives a report of its manifest and its scenarios. -/
theorem run_ok_iff {options : SimulationOptions} {report : Report} :
    runBoundarySimulation P (some options) = .ok report ↔ ∃ manifest scenarios runId hmacKey, manifestFor P options = .ok manifest ∧
      scenariosOf options = .ok scenarios ∧ (∀ scenario ∈ scenarios, HasFact scenario) ∧
      runId = textOr P (firstOf [options.runId, options.run_id]) (js "boundary-sim-local") ∧
      hmacKey = textOr P (firstOf [options.hmacKey, options.hmac_key]) DEFAULT_HMAC_KEY ∧
      report = ⟨runId, (verifyBoundaryManifest P manifest).manifestHash, (verifyBoundaryManifest P manifest).status,
        scenarios.map (rowOf P manifest), finalStatus (verifyBoundaryManifest P manifest) (scenarios.map (rowOf P manifest)),
        scenarios.map fun scenario => (evaluation P manifest hmacKey runId scenario).2⟩ := by
  simp only [runBoundarySimulation, Except.bind_eq_ok, evaluated_ok_iff, Except.pure_eq_ok, scenariosOf]
  constructor
  · rintro ⟨manifest, hmanifest, scenarios, hscenarios, evaluated, ⟨hfacts, rfl⟩, rfl⟩
    refine ⟨manifest, scenarios, _, _, hmanifest, hscenarios, hfacts, rfl, rfl, ?_⟩
    simp only [List.map_map]
    rfl
  · rintro ⟨manifest, scenarios, _, _, hmanifest, hscenarios, hfacts, rfl, rfl, rfl⟩
    refine ⟨manifest, hmanifest, scenarios, hscenarios, _, ⟨hfacts, rfl⟩, ?_⟩
    simp only [List.map_map]
    rfl

theorem neverUpgrades_of_run {options : SimulationOptions} {report : Report}
    (h : runBoundarySimulation P (some options) = .ok report) : NeverUpgrades report ↔ ¬ Upgrades P options := by
  obtain ⟨manifest, scenarios, _, _, hmanifest, hscenarios, hfacts, -, -, rfl⟩ := (run_ok_iff P).1 h
  refine (neverUpgrades_iff P rfl rfl rfl).trans
    (not_congr ⟨fun hbad => ⟨manifest, scenarios, hmanifest, hscenarios, hfacts, hbad⟩, ?_⟩)
  rintro ⟨manifest', scenarios', hmanifest', hscenarios', -, hbad⟩
  obtain rfl := Except.ok.inj (hmanifest.symm.trans hmanifest')
  obtain rfl := Except.ok.inj (hscenarios.symm.trans hscenarios')
  exact hbad

/-- Where the status is better than the report, there is a report. -/
theorem Upgrades.run {P : Platform} {options : SimulationOptions} (h : Upgrades P options) :
    ∃ report, runBoundarySimulation P (some options) = .ok report := by
  obtain ⟨manifest, scenarios, hmanifest, hscenarios, hfacts, -⟩ := h
  exact ⟨_, (run_ok_iff P).2 ⟨manifest, scenarios, _, _, hmanifest, hscenarios, hfacts, rfl, rfl, rfl⟩⟩

/-- **The simulation never upgrades**, but in that case. -/
theorem never_upgrades_iff (options : Option SimulationOptions) :
    (∀ report, runBoundarySimulation P options = .ok report → NeverUpgrades report) ↔ ¬ ∃ o ∈ options, Upgrades P o := by
  constructor
  · rintro h ⟨o, rfl, hupgrades⟩
    obtain ⟨report, hrun⟩ := hupgrades.run
    exact (neverUpgrades_of_run P hrun).1 (h report hrun) hupgrades
  · intro hnot report hrun
    cases options with
    | none => cases hrun
    | some o => exact (neverUpgrades_of_run P hrun).2 fun hupgrades => hnot ⟨o, rfl, hupgrades⟩

/-! ## A committed fact on a broken path -/

def pathOn (classification : Classification) (surface : JsString) : Json :=
  .obj [(js "path_id", .str surface), (js "surface", .str surface), (js "classification", .str classification.text)]

/-- Every surface is declared, the scratchpad as broken. -/
def scratchpadManifest : Json :=
  manifestFields (js "manifest-1") (js "system") DEFAULT_CREATED_AT
    (SURFACES.map fun s => pathOn (if s = js "scratchpad" then .broken else .committed) s)

def committedScratchpad : Json := scenarioOf "scratchpad" "scratchpad" "canary" "scratchpad" true []

def scratchpadOptions : SimulationOptions :=
  ⟨none, none, none, none, none, none, some (.arr [committedScratchpad]), some (some scratchpadManifest)⟩

/-- A committed fact on a broken path passes, and so does the run. -/
theorem broken_path_passes : ¬ ∀ report, runBoundarySimulation reference (some scratchpadOptions) = .ok report → NeverUpgrades report := by
  intro h
  have hverified : (manifestErrors reference scratchpadManifest).isEmpty = true := by decide +kernel
  have hbroken : pathOn .broken (js "scratchpad") ∈ pathsOf scratchpadManifest :=
    List.mem_map.2 ⟨js "scratchpad", by decide, rfl⟩
  have hupgrades : Upgrades reference scratchpadOptions := by
    refine ⟨some scratchpadManifest, [committedScratchpad], rfl, rfl, ?_, hverified, ⟨_, hbroken, by decide⟩, ?_⟩
    · exact List.forall_mem_singleton.2 ⟨_, rfl⟩
    · exact List.forall_mem_singleton.2 ⟨pathOn .broken (js "scratchpad"), rfl, .inr (.inr ⟨by decide, rfl⟩)⟩
  obtain ⟨report, hrun⟩ := hupgrades.run
  exact (neverUpgrades_of_run reference hrun).1 (h report hrun) hupgrades

end EnigmaMemory.Boundary
