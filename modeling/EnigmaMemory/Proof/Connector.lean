import EnigmaMemory.Spec.Connector

/-!
# Consent to changes of configuration files

Which operations of the connector engine leave the files alone. The results are about all
files, not only the configuration: an operation that changes nothing leaves the same tree.

* `consent_iff`: without consent, and in a dry run, the engine changes nothing, but for a
  repair of a configuration that is broken: that one restores the last backup unasked.
-/

namespace EnigmaMemory.Connector

open EStateM (Keeps keeps_bind)

variable {H : Host} {client : ClientId} {ctx : EngineContext}

/-! ## Steps that change nothing -/

theorem keeps_of_eq {α : Type} {R : Files → Files → Prop} (hR : ∀ t, R t t) {x : Engine α} (hx : Keeps Eq x) :
    Keeps R x := fun t => hx t ▸ hR t

theorem eq_trans (a b c : Files) (hab : a = b) (hbc : b = c) : a = c := hab.trans hbc

theorem keeps_io {α : Type} {R : Files → Files → Prop} {x : FileTree.Io FileName α} (hx : Keeps R x) : Keeps R (io x) := by
  intro t
  have h := hx t
  rw [EStateM.after] at h
  rw [EStateM.after, io]
  cases hxt : x t with
  | ok a t' => rw [hxt] at h; exact h
  | error e t' => rw [hxt] at h; exact h

theorem after_return {α β : Type} (x : Engine α) (f : α → β) (t : Files) :
    EStateM.after (do return f (← x) : Engine β) t = x.after t := by
  simp only [EStateM.after, bind, EStateM.bind]
  cases x t <;> rfl

theorem keeps_liftExcept {α : Type} (x : Except ConnectorError α) : Keeps Eq (liftExcept x) := by
  cases x with
  | ok a => exact fun _ => rfl
  | error e => exact fun _ => rfl

/-- The configuration at a path. -/
def configAt (H : Host) (t : Files) (path : Path) : Except ConnectorError (Option Json) :=
  match t.node path with
  | none => .ok none
  | some .directory => .error (.io .isADirectory)
  | some (.file bytes) => (parseConfig H bytes).map some

theorem readJsonConfig_eq (path : Path) (t : Files) : readJsonConfig H path t = liftExcept (configAt H t path) t := by
  unfold readJsonConfig configAt
  cases hnode : t.node path with
  | none => rw [if_neg (by rw [FileTree.hasEntry, hnode]; exact Bool.false_ne_true)]; rfl
  | some x =>
    rw [if_pos (by rw [FileTree.hasEntry, hnode]; rfl)]
    cases x with
    | directory =>
      have hread : io (FileTree.read path) t = .error (.io .isADirectory) t := by rw [io, FileTree.read, hnode]
      simp only [readExistingConfig, bind, EStateM.bind, hread]
      rfl
    | file bytes =>
      have hread : io (FileTree.read path) t = .ok bytes t := by rw [io, FileTree.read_eq hnode]
      rw [readExistingConfig, EStateM.bind_of_ok hread]
      change _ = liftExcept ((parseConfig H bytes).map some) t
      cases parseConfig H bytes <;> rfl

theorem keeps_readJsonConfig (path : Path) : Keeps Eq (readJsonConfig H path) := by
  intro t
  have h := keeps_liftExcept (configAt H t path) t
  rw [EStateM.after] at h
  rwa [EStateM.after, readJsonConfig_eq]

theorem attempt_eq {α : Type} {x : Engine α} {r : Except ConnectorError α} {t : Files} (h : x t = liftExcept r t) :
    attempt x t = .ok r t := by
  rw [attempt, h]
  cases r <;> rfl

theorem keeps_planTo (opts : ConnectOptions) (allocateBackup : Bool) (actions : Action × Action)
    (next : Json → Except ConnectorError Json) : Keeps Eq (planTo H client ctx opts allocateBackup actions next) := by
  refine keeps_bind eq_trans (keeps_readJsonConfig _) fun existing => ?_
  refine keeps_bind eq_trans (keeps_liftExcept _) fun nextConfig => ?_
  refine keeps_bind eq_trans (EStateM.keeps_get fun _ => rfl) fun t => ?_
  exact keeps_bind eq_trans (keeps_liftExcept _) fun _ => EStateM.keeps_pure (fun _ => rfl) _

theorem liftExcept_eq_ok {α : Type} {x : Except ConnectorError α} {a : α} {t t' : Files} :
    liftExcept x t = .ok a t' ↔ x = .ok a ∧ t = t' := by
  cases x with
  | ok b => exact EStateM.pure_eq_ok.trans (by rw [Except.ok.injEq])
  | error e => exact iff_of_false nofun nofun

/-- What a plan is made of. -/
theorem planTo_ok {opts : ConnectOptions} {allocateBackup : Bool} {actions : Action × Action}
    {next : Json → Except ConnectorError Json} {plan : Plan} {t t' : Files}
    (h : planTo H client ctx opts allocateBackup actions next t = .ok plan t') :
    t' = t ∧ ∃ existing nextConfig rawBackupPath,
      configAt H t (resolveConfigPath (buildProfile client ctx) opts.configPathOverride) = .ok existing ∧
      next (existing.getD (.obj [])) = .ok nextConfig ∧
      allocatedBackup H t (existing.isSome && !jsonEqual (existing.getD (.obj [])) nextConfig && allocateBackup)
        (resolveConfigPath (buildProfile client ctx) opts.configPathOverride) ctx = .ok rawBackupPath ∧
      plan = planOf H client ctx opts actions existing nextConfig rawBackupPath := by
  obtain ⟨existing, t₁, hread, h⟩ := EStateM.bind_eq_ok.1 h
  rw [readJsonConfig_eq] at hread
  obtain ⟨hconfig, rfl⟩ := liftExcept_eq_ok.1 hread
  obtain ⟨nextConfig, t₂, hlift, h⟩ := EStateM.bind_eq_ok.1 h
  obtain ⟨hnext, rfl⟩ := liftExcept_eq_ok.1 hlift
  obtain ⟨_, _, hget, h⟩ := EStateM.bind_eq_ok.1 h
  cases hget
  obtain ⟨rawBackupPath, t₃, hlift, h⟩ := EStateM.bind_eq_ok.1 h
  obtain ⟨hbackup, rfl⟩ := liftExcept_eq_ok.1 hlift
  obtain ⟨rfl, rfl⟩ := EStateM.pure_eq_ok.1 h
  exact ⟨rfl, existing, nextConfig, rawBackupPath, hconfig, hnext, hbackup, rfl⟩

theorem keeps_previewConnect (opts : ConnectOptions) : Keeps Eq (previewConnect H client ctx opts) := by
  rw [previewConnect, buildConnectPlan]
  exact keeps_planTo _ _ _ _

theorem keeps_previewDisconnect (opts : ConnectOptions) : Keeps Eq (previewDisconnect H client ctx opts) := by
  rw [previewDisconnect, buildDisconnectPlan]
  exact keeps_planTo _ _ _ _

/-! ## Operations without consent -/

/-- The user has not agreed to a change. -/
def Unasked (opts : ConnectOptions) : Prop := opts.confirmed = false ∨ opts.dryRun = true

theorem keeps_carryOut {opts : ConnectOptions} (ho : Unasked opts) {plan : Plan} (hplan : plan.dryRun = opts.dryRun) :
    Keeps Eq (carryOut H client ctx opts plan) := by
  rw [carryOut]
  split
  · exact EStateM.keeps_pure (fun _ => rfl) plan
  · rename_i hrun
    rw [if_pos]
    · exact fun _ => rfl
    · -- the plan is no dry run, so consent is what is missing
      rcases ho with ho | ho
      · exact ho
      · rw [hplan, ho] at hrun
        exact absurd rfl hrun

theorem keeps_planned {opts : ConnectOptions} (ho : Unasked opts) (actions : Action × Action)
    (next : Json → Except ConnectorError Json) :
    Keeps Eq (planTo H client ctx opts true actions next >>= carryOut H client ctx opts) := by
  intro t
  have hkeeps : t = (planTo H client ctx opts true actions next).after t := keeps_planTo opts true actions next t
  rw [EStateM.after] at hkeeps ⊢
  cases hplan : planTo H client ctx opts true actions next t with
  | ok plan t' =>
    obtain ⟨rfl, existing, nextConfig, rawBackupPath, -, -, -, rfl⟩ := planTo_ok hplan
    rw [EStateM.bind_of_ok hplan]
    exact keeps_carryOut ho rfl t'
  | error e t' =>
    rw [hplan] at hkeeps
    simp only [bind, EStateM.bind, hplan]
    exact hkeeps

theorem keeps_connect {opts : ConnectOptions} (ho : Unasked opts) : Keeps Eq (connect H client ctx opts) :=
  keeps_planned ho _ _

theorem keeps_disconnect {opts : ConnectOptions} (ho : Unasked opts) : Keeps Eq (disconnect H client ctx opts) :=
  keeps_planned ho _ _

theorem detect_eq (t : Files) : detect H client ctx t =
    .ok (detected H client ctx (configAt H t (resolveConfigPath (buildProfile client ctx) none))) t := by
  rw [detect, EStateM.bind_of_ok (attempt_eq (readJsonConfig_eq _ t))]
  rfl

theorem test_eq (t : Files) : test H client ctx t = .ok (tested H client ctx (t.hasEntry ctx.bundlePath)
    (configAt H t (resolveConfigPath (buildProfile client ctx) none))) t := by
  rw [test, EStateM.bind_of_ok (attempt_eq (readJsonConfig_eq _ t))]
  rfl

theorem keeps_detect : Keeps Eq (detect H client ctx) := by
  intro t
  rw [EStateM.after, detect_eq]

theorem keeps_test : Keeps Eq (test H client ctx) := by
  intro t
  rw [EStateM.after, test_eq]

/-! ## Repairs -/

/-- The file at the path is no configuration: its bytes are no JSON object. -/
def Broken (H : Host) (t : Files) (configPath : Path) (bytes : List UInt8) : Prop :=
  t.node configPath = some (.file bytes) ∧ ∃ e, parseConfig H bytes = .error e

/-- The configuration is broken, and the last backup holds something else. -/
def Restorable (H : Host) (t : Files) (configPath : Path) : Prop :=
  ∃ bytes backup data, Broken H t configPath bytes ∧ findLatestBackup t configPath = .ok backup ∧
    t.node backup = some (.file data) ∧ data ≠ bytes

theorem isParse_parseConfig {bytes : List UInt8} {e : ConnectorError} (h : parseConfig H bytes = .error e) :
    e.isParse = true := by
  unfold parseConfig at h
  split at h
  · cases h
    rfl
  · split at h
    · cases h
    · cases h
      rfl

/-- The configuration is broken exactly when the detection says that it does not parse. -/
theorem parseError_iff {t : Files} :
    (detected H client ctx (configAt H t (resolveConfigPath (buildProfile client ctx) none))).parseError = true ↔
      ∃ bytes, Broken H t (resolveConfigPath (buildProfile client ctx) none) bytes := by
  unfold Broken configAt
  cases t.node (resolveConfigPath (buildProfile client ctx) none) with
  | none => simp [detected, detectBase]
  | some x =>
    cases x with
    | directory => simp [detected, ConnectorError.isParse]
    | file bytes =>
      cases hparse : parseConfig H bytes with
      | ok config => simp [detected, detectBase, hparse, Except.map]
      | error e => simp [detected, hparse, Except.map, isParse_parseConfig hparse]

/-- A backup is not the file that it is a backup of. -/
theorem findLatestBackup_ok {t : Files} {configPath backup : Path} (h : findLatestBackup t configPath = .ok backup) :
    ∃ rest, backup = (fileName configPath ++ ".bak.".toList ++ rest) :: configPath.tail ∧ t.node backup ≠ none := by
  unfold findLatestBackup at h
  split at h
  · rename_i name hlast
    cases h
    have hmem := List.mem_of_getLast? hlast
    rw [List.mem_insertionSort, backupCandidates, List.mem_filter] at hmem
    obtain ⟨hdir, hprefix⟩ := hmem
    obtain ⟨rest, rfl⟩ := List.isPrefixOf_iff_prefix.1 hprefix
    exact ⟨rest, rfl, FileTree.mem_readDir.1 hdir⟩
  · cases h

theorem findLatestBackup_ne {t : Files} {configPath backup : Path} (h : findLatestBackup t configPath = .ok backup) :
    backup ≠ configPath := by
  obtain ⟨rest, rfl, -⟩ := findLatestBackup_ok h
  rintro heq
  have hlen := congrArg (fun p => (fileName p).length) heq
  simp only [fileName, List.length_append] at hlen
  have hpos : 0 < (".bak.".toList).length := by decide
  omega

theorem chosenBackup_some (t : Files) (configPath backup : Path) (confirmed : Bool) :
    chosenBackup t configPath ⟨some backup, confirmed⟩ = if t.hasEntry backup then .ok backup else .error .noBackup := rfl

/-- A rollback to a backup that is another file than the configuration. -/
theorem rollbackInternal_after {t : Files} {backup : Path} (confirmed : Bool)
    (hne : backup ≠ resolveConfigPath (buildProfile client ctx) none)
    (hconfig : t.Holds (resolveConfigPath (buildProfile client ctx) none)) :
    (rollbackInternal H client ctx ⟨some backup, confirmed⟩).after t =
      match t.node backup with
      | some (.file data) => t.put (resolveConfigPath (buildProfile client ctx) none) data hconfig
      | _ => t := by
  rw [EStateM.after, rollbackInternal]
  simp only [bind, EStateM.bind, get, getThe, MonadStateOf.get, EStateM.get, chosenBackup_some]
  cases hnode : t.node backup with
  | none =>
    rw [if_neg (by rw [FileTree.hasEntry, hnode]; exact Bool.false_ne_true)]
    rfl
  | some x =>
    rw [if_pos (by rw [FileTree.hasEntry, hnode]; rfl)]
    cases x with
    | directory =>
      have hcopy : ∀ target, io (FileTree.copy backup target) t = .error (.io .isADirectory) t := by
        intro target
        simp only [io, FileTree.copy, bind, EStateM.bind, FileTree.read, hnode]
      simp only [liftExcept, pure, EStateM.pure, hcopy]
    | file data =>
      have hcopy : io (FileTree.copy backup (resolveConfigPath (buildProfile client ctx) none)) t =
          .ok () (t.put (resolveConfigPath (buildProfile client ctx) none) data hconfig) := by
        rw [io, FileTree.copy_eq hnode hne hconfig]
      simp only [liftExcept, pure, EStateM.pure, hcopy]

/-- A configuration that is broken has a backup with other bytes, or it has not. -/
theorem restorable_iff {t : Files} {configPath backup : Path} {bytes : List UInt8} (h : Broken H t configPath bytes)
    (hlatest : findLatestBackup t configPath = .ok backup) :
    Restorable H t configPath ↔ ∃ data, t.node backup = some (.file data) ∧ data ≠ bytes := by
  constructor
  · rintro ⟨bytes', backup', data, hbroken, hbackup, hdata, hne⟩
    obtain rfl := Except.ok.inj (hlatest.symm.trans hbackup)
    have heq := h.1.symm.trans hbroken.1
    rw [Option.some.injEq, FileNode.file.injEq] at heq
    exact ⟨data, hdata, heq ▸ hne⟩
  · rintro ⟨data, hdata, hne⟩
    exact ⟨bytes, backup, data, h, hlatest, hdata, hne⟩

theorem repair_broken {opts : ConnectOptions} {t : Files} {bytes : List UInt8}
    (h : Broken H t (resolveConfigPath (buildProfile client ctx) none) bytes) :
    (repair H client ctx opts).after t = t ↔ ¬ Restorable H t (resolveConfigPath (buildProfile client ctx) none) := by
  have hparse := parseError_iff.2 ⟨bytes, h⟩
  rw [EStateM.after, repair, EStateM.bind_of_ok (detect_eq t), if_pos hparse]
  simp only [bind, EStateM.bind, get, getThe, MonadStateOf.get, EStateM.get]
  cases hlatest : findLatestBackup t (resolveConfigPath (buildProfile client ctx) none) with
  | error e =>
    refine iff_of_true rfl ?_
    rintro ⟨_, backup, _, -, hbackup, -⟩
    rw [hlatest] at hbackup
    cases hbackup
  | ok backup =>
    have hholds := FileTree.holds_of_file h.1
    have hrollback := rollbackInternal_after (H := H) opts.confirmed (findLatestBackup_ne hlatest) hholds
    have hafter := after_return (rollbackInternal H client ctx ⟨some backup, opts.confirmed⟩)
      (fun plan => (⟨true, .rollback, some plan, none⟩ : RepairResult)) t
    rw [hrollback, EStateM.after] at hafter
    refine Eq.congr_left hafter |>.trans ?_
    rw [restorable_iff h hlatest]
    cases hnode : t.node backup with
    | none => simp
    | some x =>
      cases x with
      | directory => simp
      | file data =>
        simp only [FileTree.put_eq_self_iff, h.1, Option.some.injEq, FileNode.file.injEq]
        grind

theorem repair_sound {opts : ConnectOptions} (ho : Unasked opts) {t : Files}
    (h : ¬ ∃ bytes, Broken H t (resolveConfigPath (buildProfile client ctx) none) bytes) :
    (repair H client ctx opts).after t = t := by
  have hparse := mt parseError_iff.1 h
  rw [EStateM.after, repair, EStateM.bind_of_ok (detect_eq t), if_neg hparse]
  split_ifs
  · exact (keeps_bind eq_trans keeps_test fun _ => EStateM.keeps_pure (fun _ => rfl) _) t |>.symm
  · exact (keeps_bind eq_trans (keeps_connect ho) fun _ => EStateM.keeps_pure (fun _ => rfl) _) t |>.symm

/-! ## Consent -/

/-- An operation that may write. -/
inductive Call where
  | connect (opts : ConnectOptions)
  | disconnect (opts : ConnectOptions)
  | repair (opts : ConnectOptions)
  | rollback (opts : RollbackOptions)

/-- The files after an operation. -/
def Call.after (H : Host) (client : ClientId) (ctx : EngineContext) (t : Files) : Call → Files
  | connect opts => (Connector.connect H client ctx opts).after t
  | disconnect opts => (Connector.disconnect H client ctx opts).after t
  | repair opts => (Connector.repair H client ctx opts).after t
  | rollback opts => (Connector.rollback H client ctx opts).after t

/-- The user has not confirmed the operation, or has asked for a dry run. -/
def Call.Unasked : Call → Prop
  | connect opts => Connector.Unasked opts
  | disconnect opts => Connector.Unasked opts
  | repair opts => Connector.Unasked opts
  | rollback opts => opts.confirmed = false

def Call.isRepair : Call → Bool
  | repair _ => true
  | _ => false

/-- **Without consent the engine changes no file, but for a repair that restores a backup.** -/
theorem consent_iff (H : Host) (client : ClientId) (ctx : EngineContext) (t : Files) :
    (detect H client ctx).after t = t ∧ (test H client ctx).after t = t ∧
      (∀ opts, (previewConnect H client ctx opts).after t = t) ∧
      (∀ opts, (previewDisconnect H client ctx opts).after t = t) ∧
      ∀ call : Call, (call.Unasked → call.after H client ctx t = t) ↔
        (call.Unasked → call.isRepair = true → ¬ Restorable H t (resolveConfigPath (buildProfile client ctx) none)) := by
  refine ⟨(keeps_detect t).symm, (keeps_test t).symm, fun opts => (keeps_previewConnect opts t).symm,
    fun opts => (keeps_previewDisconnect opts t).symm, fun call => ?_⟩
  cases call with
  | connect opts => exact iff_of_true (fun ho => (keeps_connect ho t).symm) (fun _ h => nomatch h)
  | disconnect opts => exact iff_of_true (fun ho => (keeps_disconnect ho t).symm) (fun _ h => nomatch h)
  | repair opts =>
    by_cases h : ∃ bytes, Broken H t (resolveConfigPath (buildProfile client ctx) none) bytes
    · obtain ⟨bytes, h⟩ := h
      exact forall_congr' fun ho => (repair_broken h).trans (by simp [Call.isRepair])
    · refine iff_of_true (fun ho => repair_sound ho h) fun _ _ hrest => ?_
      obtain ⟨bytes, _, _, hbroken, -⟩ := hrest
      exact h ⟨bytes, hbroken⟩
  | rollback opts =>
    refine iff_of_true (fun ho => ?_) (fun _ h => nomatch h)
    have hthrow : rollback H client ctx opts = throw .consentRequired := if_pos ho
    exact congrArg (fun x : Engine Plan => x.after t) hthrow

/-! ## A machine -/

/-- A machine on which `{}` is the only text that parses. -/
def plainHost : Host where
  display path := path.reverse.flatMap fun name => js "/" ++ js (String.ofList name)
  ioMessage _ := []
  fromStr bytes := if bytes = [123, 125] then .ok ⟨.obj [], .obj .nil (by simp)⟩ else .error (js "expected value")
  toStringPretty _ := [123, 125]
  toRfc3339 _ := "2026-01-01T00:00:00Z".toList
  processId := 1
  utcNow := 1767225600

def plainContext : EngineContext := ⟨.linux, [], [], ["bundle.json".toList], js "enigma-mcp", true, none⟩

/-- A configuration that is no JSON beside a backup that is. -/
def brokenFiles : Files :=
  EStateM.after (do
    FileTree.createDirAll [".cursor".toList]
    FileTree.write ["mcp.json".toList, ".cursor".toList] [120]
    FileTree.write ["mcp.json.bak.2026".toList, ".cursor".toList] [123, 125]) FileTree.empty

/-- A repair that nobody has agreed to writes the backup over the configuration. -/
theorem unasked_repair_restores :
    Call.Unasked (.repair {}) ∧
      (Call.after plainHost .cursor plainContext brokenFiles (.repair {})).node ["mcp.json".toList, ".cursor".toList] ≠
        brokenFiles.node ["mcp.json".toList, ".cursor".toList] := by
  refine ⟨Or.inl rfl, ?_⟩
  decide

end EnigmaMemory.Connector
