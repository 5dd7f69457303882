import EnigmaMemory.Proof.Backups

/-!
# Calls that fail while they write

`connect` and `disconnect` on a machine that refuses calls on its files, whatever stands in them: a refused call has no effect.
A call that fails leaves the configuration and its backups as they are and no file beside it (`failed_call_intact`).
-/

open EStateM (Keeps keeps_bind)

namespace FileTree

variable {N : Type} [DecidableEq N]

/-- An operation that may be refused. -/
def refusable {α : Type} (refusal : Option IoError) (x : Io N α) : Io N α := fun t =>
  match refusal with
  | some e => .error e t
  | none => x t

theorem refusable_ok {α : Type} {refusal : Option IoError} {x : Io N α} {t t' : FileTree N} {a : α}
    (h : refusable refusal x t = .ok a t') : x t = .ok a t' := by
  cases refusal with
  | some e => cases h
  | none => exact h

theorem keeps_refusable {α : Type} {R : FileTree N → FileTree N → Prop} (hrefl : ∀ t, R t t) (refusal : Option IoError)
    {x : Io N α} (hx : Keeps R x) : Keeps R (refusable refusal x) := by
  cases refusal with
  | some e => exact hrefl
  | none => exact hx

/-- A renaming that fails changes nothing. -/
theorem rename_error {source target : List N} {t t' : FileTree N} {e : IoError} (h : rename source target t = .error e t') :
    t' = t := by
  rcases EStateM.bind_eq_error.1 h with hread | ⟨data, t₁, hread, hmove⟩
  · have hkeeps := keeps_read source t
    rw [EStateM.after, hread] at hkeeps
    exact hkeeps.symm
  · obtain ⟨hs, rfl⟩ := read_ok hread
    split at hmove
    · cases hmove
    · rename_i hne
      rcases EStateM.bind_eq_error.1 hmove with hwrite | ⟨_, t₂, hwrite, hremove⟩
      · rw [write] at hwrite
        split at hwrite
        · cases hwrite
        · cases hwrite
          rfl
      · -- the source is still there, so it can be removed
        obtain ⟨ht, rfl⟩ := write_ok hwrite
        have hs' : (t₁.put target data ht).node source = some (.file data) := by rw [node_put, if_neg hne, hs]
        rw [removeFile_eq hs'] at hremove
        cases hremove

end FileTree

namespace EnigmaMemory.Connector

/-- The calls of a write that are refused, and with which errors. -/
structure Refusals where
  createDirAll : Option IoError := none
  write : Option IoError := none
  copy : Option IoError := none
  rename : Option IoError := none
  removeFile : Option IoError := none

/-! ## The operations on a machine that refuses calls -/

def backUpOn (F : Refusals) (configPath : Path) (backup : Option Path) : FileTree.Io FileName Unit := fun t =>
  match backup with
  | some backup => if t.hasEntry configPath then FileTree.refusable F.copy (FileTree.copy configPath backup) t else .ok () t
  | none => .ok () t

def replaceConfigOn (F : Refusals) (tempPath configPath : Path) (backup : Option Path) (json : List UInt8) :
    FileTree.Io FileName Unit := do
  FileTree.refusable F.write (FileTree.write tempPath json)
  backUpOn F configPath backup
  FileTree.refusable F.rename (FileTree.rename tempPath configPath)

def removedOnErrorOn (F : Refusals) (tempPath : Path) (x : FileTree.Io FileName Unit) : FileTree.Io FileName Unit := fun t =>
  match x t with
  | .ok u t => .ok u t
  | .error e t => .error e ((FileTree.refusable F.removeFile (FileTree.removeFile tempPath)).after t)

def writePlanOn (F : Refusals) (H : Host) (plan : Plan) (client : ClientId) (ctx : EngineContext) (opts : ConnectOptions) :
    Engine Plan := do
  let profile := buildProfile client ctx
  let configPath := resolveConfigPath profile opts.configPathOverride
  io (FileTree.refusable F.createDirAll (FileTree.createDirAll configPath.tail))
  let tempPath := withFileName configPath (tempName H configPath ctx)
  io (removedOnErrorOn F tempPath (replaceConfigOn F tempPath configPath plan.rawBackupPath plan.generatedJson))
  return { plan with writesPerformed := true }

def carryOutOn (F : Refusals) (H : Host) (client : ClientId) (ctx : EngineContext) (opts : ConnectOptions) (plan : Plan) :
    Engine Plan :=
  if plan.dryRun || !plan.changed then pure plan
  else if opts.confirmed = false then throw .consentRequired
  else writePlanOn F H plan client ctx opts

def connectOn (F : Refusals) (H : Host) (client : ClientId) (ctx : EngineContext) (opts : ConnectOptions) : Engine Plan := do
  let plan ← buildConnectPlan H client ctx opts true
  carryOutOn F H client ctx opts plan

def disconnectOn (F : Refusals) (H : Host) (client : ClientId) (ctx : EngineContext) (opts : ConnectOptions) : Engine Plan := do
  let plan ← buildDisconnectPlan H client ctx opts true
  carryOutOn F H client ctx opts plan

/-- A machine that refuses nothing writes as before. -/
theorem carryOutOn_none (H : Host) (client : ClientId) (ctx : EngineContext) (opts : ConnectOptions) (plan : Plan) :
    carryOutOn {} H client ctx opts plan = carryOut H client ctx opts plan := by
  have hbackup : ∀ configPath backup, backUpOn {} configPath backup = backUp configPath backup := by
    intro configPath backup
    funext t
    cases backup <;> rfl
  have hreplace : ∀ tempPath configPath backup json,
      replaceConfigOn {} tempPath configPath backup json = replaceConfig tempPath configPath backup json := by
    intro tempPath configPath backup json
    rw [replaceConfigOn, hbackup]
    rfl
  simp only [carryOutOn, writePlanOn, hreplace]
  rfl

def Edit.callOn (F : Refusals) (H : Host) (e : Edit) : Engine Plan :=
  if e.disconnects then disconnectOn F (e.host H) e.client e.ctx e.opts else connectOn F (e.host H) e.client e.ctx e.opts

theorem Edit.callOn_none (H : Host) (e : Edit) : e.callOn {} H = e.call H := by
  unfold callOn call connectOn disconnectOn connect disconnect
  simp only [carryOutOn_none]

/-! ## The names of backups -/

/-- A backup of the configuration, made in whatever second. -/
def IsBackup (config q : Path) : Prop :=
  Named config q ∨ ∃ suffix, q = withExtension config (extension config ++ ".bak.".toList ++ suffix)

theorem lastPoint_some {name before after : FileName} (h : lastPoint name = some (before, after)) : name = before ++ '.' :: after := by
  have hsplit := List.takeWhile_append_dropWhile (p := fun c : Char => decide (c ≠ '.')) (l := name.reverse)
  rw [lastPoint] at h
  split at h
  · cases h
  · rename_i point rest hdrop
    have hpoint : point = '.' := by
      have hhead := List.head?_dropWhile_not (fun c : Char => decide (c ≠ '.')) name.reverse
      rw [hdrop] at hhead
      simpa using hhead
    obtain ⟨rfl, rfl⟩ := Prod.mk.inj (Option.some.inj h)
    rw [hdrop, hpoint] at hsplit
    calc name = name.reverse.reverse := (List.reverse_reverse name).symm
      _ = (name.reverse.takeWhile (fun c => decide (c ≠ '.')) ++ '.' :: rest).reverse := by rw [hsplit]
      _ = _ := by simp

/-- The name of a configuration, perhaps a point, and the ending. -/
theorem withExtension_backup (name : FileName) (dir : Path) (suffix : FileName) : ∃ point, (point = [] ∨ point = ['.']) ∧
    withExtension (name :: dir) (extension (name :: dir) ++ ".bak.".toList ++ suffix) =
      (name ++ point ++ ".bak.".toList ++ suffix) :: dir := by
  have hne : extension (name :: dir) ++ ".bak.".toList ++ suffix ≠ [] := by simp
  rw [withExtension, if_neg hne, fileStem, extension, fileName]
  have hnone : splitExtension name = (name, none) ∨ ∃ before after, splitExtension name = (before, some after) ∧
      name = before ++ '.' :: after := by
    rw [splitExtension]
    cases hpoint : lastPoint name with
    | none => exact .inl rfl
    | some parts =>
      simp only
      split
      · exact .inl rfl
      · exact .inr ⟨_, _, rfl, lastPoint_some hpoint⟩
  rcases hnone with hnone | ⟨before, after, hsome, hname⟩
  · exact ⟨['.'], .inr rfl, by rw [hnone]; simp⟩
  · refine ⟨[], .inl rfl, ?_⟩
    rw [hsome]
    conv_rhs => rw [hname]
    simp

/-- A backup is neither the configuration nor the file beside it. -/
theorem IsBackup.apart {config q : Path} (h : IsBackup config q) (hq : q ≠ []) (H : Host) (ctx : EngineContext) :
    q ≠ config ∧ q ≠ tempPath H config ctx := by
  have hname : ∃ point rest, (point = [] ∨ point = ['.']) ∧ fileName q = fileName config ++ point ++ ".bak.".toList ++ rest := by
    rcases h with ⟨-, rest, hrest⟩ | ⟨suffix, rfl⟩
    · exact ⟨[], rest, .inl rfl, by rw [← hrest]; simp⟩
    · cases config with
      | nil => exact absurd rfl hq
      | cons name dir =>
        obtain ⟨point, hpoint, heq⟩ := withExtension_backup name dir suffix
        exact ⟨point, suffix, hpoint, by rw [heq]; rfl⟩
  obtain ⟨point, rest, hpoint, hname⟩ := hname
  refine ⟨fun heq => ?_, fun heq => ?_⟩
  · have hlen := congrArg List.length (heq ▸ hname)
    simp only [List.length_append] at hlen
    have hpos : 0 < (".bak.".toList).length := by decide
    omega
  · obtain ⟨mid, hmid⟩ := tempName_eq H config ctx
    have htemp : fileName q = fileName config ++ ".tmp.".toList ++ mid ++ ".tmp".toList := by rw [heq, ← hmid]; rfl
    rw [htemp, List.append_assoc, List.append_assoc, List.append_assoc, List.append_assoc, List.append_cancel_left_eq] at hname
    rcases hpoint with rfl | rfl
    · simp at hname
    · simp at hname

/-! ## A write that fails -/

section Write

variable {F : Refusals} {temp config : Path} {backup : Option Path} {json : List UInt8} {t t' : Files}

theorem keeps_backUpOn {R : Files → Files → Prop} (hrefl : ∀ t, R t t) (htrans : ∀ a b c, R a b → R b c → R a c)
    (hput : ∀ b ∈ backup, ∀ t data (h : FileTree.Holds t b), R t (t.put b data h)) : Keeps R (backUpOn F config backup) := by
  intro t
  rw [EStateM.after]
  unfold backUpOn
  cases backup with
  | none => exact hrefl t
  | some b =>
    simp only
    by_cases h : t.hasEntry config
    · rw [if_pos h]
      exact FileTree.keeps_refusable hrefl F.copy (FileTree.keeps_copy_of hrefl htrans config (hput b rfl)) t
    · rw [if_neg h]
      exact hrefl t

/-- A write that fails has touched the file beside the configuration and the new backup alone. -/
theorem replaceConfigOn_error {e : IoError} (h : replaceConfigOn F temp config backup json t = .error e t') :
    FileTree.Off (fun q => q = temp ∨ some q = backup) t t' := by
  have hwrite : Keeps (FileTree.Off fun q => q = temp ∨ some q = backup) (FileTree.refusable F.write (FileTree.write temp json)) :=
    FileTree.keeps_refusable (FileTree.off_refl _) _
      (FileTree.keeps_write_of (FileTree.off_refl _) fun t => FileTree.off_put (.inl rfl) t json)
  have hbackup : Keeps (FileTree.Off fun q => q = temp ∨ some q = backup) (backUpOn F config backup) :=
    keeps_backUpOn (FileTree.off_refl _) FileTree.off_trans fun b hb t data => FileTree.off_put (.inr hb.symm) t data
  rcases EStateM.bind_eq_error.1 h with hx | ⟨_, t₁, hx, h⟩
  · have hkept := hwrite t
    rw [EStateM.after, hx] at hkept
    exact hkept
  · have hfirst := hwrite t
    rw [EStateM.after, hx] at hfirst
    refine FileTree.off_trans _ _ _ hfirst ?_
    rcases EStateM.bind_eq_error.1 h with hy | ⟨_, t₂, hy, h⟩
    · have hkept := hbackup t₁
      rw [EStateM.after, hy] at hkept
      exact hkept
    · have hsecond := hbackup t₁
      rw [EStateM.after, hy] at hsecond
      -- the renaming comes last and has no effect when it fails
      cases hrename : F.rename with
      | some refusal =>
        rw [hrename] at h
        cases h
        exact hsecond
      | none =>
        rw [hrename] at h
        rw [FileTree.rename_error h]
        exact hsecond

theorem removedOnErrorOn_error {x : FileTree.Io FileName Unit} {e : IoError} (h : removedOnErrorOn F temp x t = .error e t') :
    ∃ t₁, x t = .error e t₁ ∧ FileTree.Off (· = temp) t₁ t' ∧
      (F.removeFile = none → ∀ data, t'.node temp ≠ some (.file data)) := by
  rw [removedOnErrorOn] at h
  split at h
  · cases h
  · rename_i e' t₁ hx
    cases h
    have hremove : Keeps (FileTree.Off (· = temp)) (FileTree.removeFile temp) :=
      FileTree.keeps_removeFile_of (FileTree.off_refl _) fun t => FileTree.off_erase (P := (· = temp)) rfl t
    refine ⟨t₁, hx, FileTree.keeps_refusable (FileTree.off_refl _) _ hremove t₁, fun hnone data => ?_⟩
    rw [hnone]
    change ((FileTree.removeFile temp).after t₁).node temp ≠ some (.file data)
    by_cases hdir : t₁.node temp = some .directory
    · rw [EStateM.after, FileTree.removeFile, dif_neg (not_not.2 hdir)]
      change t₁.node temp ≠ _
      rw [hdir]
      intro h
      cases h
    · rw [FileTree.removeFile_after hdir]
      intro h
      cases h

theorem io_error {α : Type} {x : FileTree.Io FileName α} {err : ConnectorError} (h : io x t = .error err t') :
    ∃ e, x t = .error e t' := by
  rw [io] at h
  split at h
  · cases h
  · rename_i hx
    cases h
    exact ⟨_, hx⟩

variable {H : Host} {client : ClientId} {ctx : EngineContext}

/-- A plan whose write fails has made directories, and perhaps more if it came to the file beside the configuration. -/
theorem writePlanOn_error {plan : Plan} {opts : ConnectOptions} {err : ConnectorError}
    (hp : resolveConfigPath (buildProfile client ctx) opts.configPathOverride = config)
    (h : writePlanOn F H plan client ctx opts t = .error err t') :
    FileTree.Made config.tail t t' ∨ ∃ t₁, FileTree.Made config.tail t t₁ ∧
      FileTree.Off (fun q => q = tempPath H config ctx ∨ some q = plan.rawBackupPath) t₁ t' ∧
      (F.removeFile = none → ∀ data, t'.node (tempPath H config ctx) ≠ some (.file data)) := by
  have hmade : Keeps (FileTree.Made config.tail) (FileTree.refusable F.createDirAll (FileTree.createDirAll config.tail)) :=
    FileTree.keeps_refusable (FileTree.made_refl _) _ (FileTree.keeps_createDirAll List.suffix_rfl)
  rw [writePlanOn, hp] at h
  rcases EStateM.bind_eq_error.1 h with hx | ⟨_, t₁, hx, h⟩
  · obtain ⟨e, hx⟩ := io_error hx
    have hdirs := hmade t
    rw [EStateM.after, hx] at hdirs
    exact .inl hdirs
  · have hdirs := hmade t
    rw [EStateM.after, io_ok hx] at hdirs
    refine .inr ⟨t₁, hdirs, ?_⟩
    rcases EStateM.bind_eq_error.1 h with hy | ⟨_, t₂, -, hdone⟩
    · obtain ⟨e, hy⟩ := io_error hy
      obtain ⟨t₂, hreplace, hremove, htemp⟩ := removedOnErrorOn_error hy
      have hoff := replaceConfigOn_error hreplace
      refine ⟨fun q hq => (hremove q fun heq => hq (.inl heq)).trans (hoff q hq), htemp⟩
    · cases hdone

theorem Edit.callOn_error {e : Edit} {err : ConnectorError} (h : e.callOn F H t = .error err t') :
    t' = t ∨ ∃ plan, e.plan H t = .ok plan t ∧ writePlanOn F (e.host H) plan e.client e.ctx e.opts t = .error err t' := by
  obtain ⟨actions, next, hplan⟩ := e.plan_eq (H := H)
  have hcall : e.callOn F H = e.plan H >>= carryOutOn F (e.host H) e.client e.ctx e.opts := by
    unfold callOn plan
    cases e.disconnects <;> rfl
  rw [hcall] at h
  rcases EStateM.bind_eq_error.1 h with hx | ⟨plan, t₁, hx, hcarry⟩
  · have hkeeps : t = (e.plan H).after t := hplan ▸ keeps_planTo e.opts true actions next t
    rw [EStateM.after, hx] at hkeeps
    exact .inl hkeeps.symm
  · obtain ⟨rfl, -⟩ := Edit.plan_ok hx
    unfold carryOutOn at hcarry
    split at hcarry
    · cases hcarry
    · split at hcarry
      · cases hcarry
        exact .inl rfl
      · exact .inr ⟨plan, hx, hcarry⟩

end Write

/-- The backup of a plan is a new file. -/
theorem unusedBackupPath_fresh {H : Host} {t : Files} {config b : Path} {ctx : EngineContext}
    (h : unusedBackupPath H t config ctx = .ok b) : t.node b = none ∧ IsBackup config b := by
  rw [unusedBackupPath] at h
  split at h
  · rename_i hfree
    cases h
    exact ⟨by simpa [FileTree.hasEntry] using hfree, .inr ⟨_, rfl⟩⟩
  · split at h
    · rename_i index hfind
      cases h
      have hfree := List.find?_some hfind
      refine ⟨by simpa [FileTree.hasEntry] using hfree, .inr ⟨timestampSuffix H (ctx.now.getD H.utcNow) ++ '.' :: (Nat.repr index).toList, ?_⟩⟩
      rw [backupCandidate]
      simp only [List.append_assoc]
    · cases h

/-- **A call that fails leaves every file.** Whatever calls the machine refuses, the configuration is as it was, and so are the
backups; the file beside it is gone unless it could not be removed, or the call never came to write it. -/
theorem failed_call_intact (H : Host) (F : Refusals) (e : Edit) (t t' : Files) (err : ConnectorError)
    (h : e.callOn F H t = .error err t') :
    t'.node e.path = t.node e.path ∧
      (∀ q, IsBackup e.path q → ∀ bytes, t.node q = some (.file bytes) → t'.node q = some (.file bytes)) ∧
      (∀ bytes, t'.node (tempPath (e.host H) e.path e.ctx) = some (.file bytes) →
        F.removeFile ≠ none ∨ FileTree.Made e.path.tail t t') := by
  -- what stands at a path that is neither made nor written
  have hmade : ∀ s, FileTree.Made e.path.tail t s → s.node e.path = t.node e.path ∧
      ∀ q bytes, t.node q = some (.file bytes) → s.node q = some (.file bytes) := by
    intro s hs
    refine ⟨?_, fun q bytes hq => ?_⟩
    · rcases hs e.path with heq | ⟨hnone, -, hsuffix⟩
      · exact heq
      · cases hpath : e.path with
        | nil => rfl
        | cons name dir =>
          rw [hpath] at hsuffix
          have hlen := hsuffix.length_le
          simp only [List.tail_cons, List.length_cons] at hlen
          omega
    · rcases hs q with heq | ⟨hnone, -, -⟩
      · exact heq.trans hq
      · rw [hnone] at hq
        cases hq
  rcases Edit.callOn_error h with rfl | ⟨plan, hplan, hwrite⟩
  · exact ⟨rfl, fun _ _ _ hq => hq, fun _ _ => .inr (FileTree.made_refl _ _)⟩
  · obtain ⟨-, -, -, -, hfresh⟩ := Edit.plan_ok hplan
    rcases writePlanOn_error rfl hwrite with hdirs | ⟨t₁, hdirs, hoff, htemp⟩
    · exact ⟨(hmade t' hdirs).1, fun q _ => (hmade t' hdirs).2 q, fun _ _ => .inr hdirs⟩
    · have hnew : ∀ q, t.node q ≠ none → some q ≠ plan.rawBackupPath := by
        intro q hq heq
        exact hq (unusedBackupPath_fresh (hfresh q heq.symm)).1
      refine ⟨?_, fun q hbackup bytes hq => ?_, fun bytes hfile => ?_⟩
      · have hnot : ¬ (e.path = tempPath (e.host H) e.path e.ctx ∨ some e.path = plan.rawBackupPath) := by
          rintro (htempPath | hb)
          · exact tempPath_ne _ _ _ htempPath.symm
          · obtain ⟨hnone, hback⟩ := unusedBackupPath_fresh (hfresh _ hb.symm)
            have hroot : e.path ≠ [] := by
              intro hnil
              rw [hnil] at hnone
              cases hnone
            exact (hback.apart hroot (e.host H) e.ctx).1 rfl
        exact (hoff _ hnot).trans (hmade t₁ hdirs).1
      · have hroot : q ≠ [] := by
          rintro rfl
          cases hq
        have hnot : ¬ (q = tempPath (e.host H) e.path e.ctx ∨ some q = plan.rawBackupPath) := by
          rintro (htempPath | hb)
          · exact (hbackup.apart hroot (e.host H) e.ctx).2 htempPath
          · exact hnew q (by rw [hq]; exact nofun) hb
        exact (hoff q hnot).trans ((hmade t₁ hdirs).2 q bytes hq)
      · by_cases hremove : F.removeFile = none
        · exact absurd hfile (htemp hremove bytes)
        · exact .inl hremove

def noRename : Refusals := { rename := some .notFound }

/-- A first connection. -/
def refusedEdit : Edit := ⟨.cursor, plainContext, 0, false, { confirmed := true }⟩

theorem failed_call_intact_rename : ∃ err t', refusedEdit.callOn noRename plainHost FileTree.empty = .error err t' ∧
    (t'.node refusedEdit.path = FileTree.empty.node refusedEdit.path ∧
      (∀ q, IsBackup refusedEdit.path q → ∀ bytes, FileTree.empty.node q = some (.file bytes) → t'.node q = some (.file bytes)) ∧
      (∀ bytes, t'.node (tempPath (refusedEdit.host plainHost) refusedEdit.path refusedEdit.ctx) = some (.file bytes) →
        noRename.removeFile ≠ none ∨ FileTree.Made refusedEdit.path.tail FileTree.empty t')) := by
  have hfails : (match refusedEdit.callOn noRename plainHost FileTree.empty with
      | .error _ _ => true
      | .ok _ _ => false) = true := by decide +kernel
  split at hfails
  · rename_i err t' hcall
    exact ⟨err, t', hcall, failed_call_intact plainHost _ refusedEdit FileTree.empty t' err hcall⟩
  · cases hfails

end EnigmaMemory.Connector
