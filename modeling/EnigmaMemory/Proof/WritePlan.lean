import EnigmaMemory.Proof.Connector

/-!
# Writing a plan

What stands in the files after a plan has been written (`writePlan_ok`), and what no call
touches, whether it succeeds or fails.
-/

namespace EnigmaMemory.Connector

open EStateM (Keeps keeps_bind)

variable {H : Host} {client : ClientId} {ctx : EngineContext}

theorem io_ok {α : Type} {x : FileTree.Io FileName α} {a : α} {t t' : Files} (h : io x t = .ok a t') : x t = .ok a t' := by
  rw [io] at h
  split at h
  · rename_i hx
    cases h
    exact hx
  · cases h

theorem backUp_ok {configPath : Path} {backup : Option Path} {t t' : Files} {u : Unit} (hb : ∀ b ∈ backup, b ≠ configPath)
    (h : backUp configPath backup t = .ok u t') (q : Path) :
    t'.node q = if some q = backup ∧ t.hasEntry configPath then t.node configPath else t.node q := by
  unfold backUp at h
  cases backup with
  | none =>
    cases h
    rw [if_neg (fun he => nomatch he.1)]
  | some b =>
    simp only at h
    split at h
    · rename_i hentry
      obtain ⟨data, hdata, hh, rfl⟩ := FileTree.copy_ok (hb b rfl).symm h
      rw [FileTree.node_put, hdata]
      by_cases hq : q = b
      · rw [if_pos hq, if_pos ⟨congrArg some hq, hentry⟩]
      · rw [if_neg hq, if_neg (fun he => hq (Option.some.inj he.1))]
    · rename_i hentry
      cases h
      rw [if_neg (fun he => hentry he.2)]

/-- The new text is in the place of the configuration, and the old one in that of the backup. -/
theorem replaceConfig_ok {tempPath configPath : Path} {backup : Option Path} {json : List UInt8} {t t' : Files} {u : Unit}
    (hne : tempPath ≠ configPath) (hb : ∀ b ∈ backup, b ≠ tempPath ∧ b ≠ configPath)
    (h : replaceConfig tempPath configPath backup json t = .ok u t') (q : Path) :
    t'.node q =
      if q = tempPath then none
      else if q = configPath then some (.file json)
      else if some q = backup ∧ t.hasEntry configPath then t.node configPath
      else t.node q := by
  obtain ⟨_, t₁, hwrite, h⟩ := EStateM.bind_eq_ok.1 h
  obtain ⟨hh, rfl⟩ := FileTree.write_ok hwrite
  obtain ⟨_, t₂, hcopy, h⟩ := EStateM.bind_eq_ok.1 h
  have hnode := backUp_ok (fun b hm => (hb b hm).2) hcopy
  obtain ⟨data, htemp, hrename⟩ := FileTree.rename_ok hne h
  -- the temporary file holds the new text when it is renamed
  obtain rfl : json = data := by
    rw [hnode tempPath, if_neg (fun he => (hb _ he.1.symm).1 rfl), FileTree.node_put, if_pos rfl] at htemp
    simpa using htemp
  rw [hrename q]
  by_cases hq : q = tempPath
  · rw [if_pos hq, if_pos hq]
  · rw [if_neg hq, if_neg hq, hnode q, FileTree.hasEntry, FileTree.hasEntry, FileTree.node_put, FileTree.node_put,
      if_neg hne.symm, if_neg hq]

/-- The file in which the new text waits. -/
def tempPath (H : Host) (configPath : Path) (ctx : EngineContext) : Path := withFileName configPath (tempName H configPath ctx)

theorem tempName_eq (H : Host) (configPath : Path) (ctx : EngineContext) :
    ∃ mid, tempName H configPath ctx = fileName configPath ++ ".tmp.".toList ++ mid ++ ".tmp".toList :=
  ⟨(toString H.processId).toList ++ '.' :: (toString (ctx.now.getD 0)).toList, by simp [tempName]⟩

theorem tempPath_ne (H : Host) (configPath : Path) (ctx : EngineContext) : tempPath H configPath ctx ≠ configPath := by
  intro h
  obtain ⟨mid, hmid⟩ := tempName_eq H configPath ctx
  have hlen := congrArg (fun p => (fileName p).length) h
  simp only [tempPath, withFileName, fileName, hmid, List.length_append] at hlen
  have hpos : 0 < (".tmp.".toList).length := by decide
  omega

/-- **A plan that has been written over a file.** -/
theorem writePlan_ok {plan plan' : Plan} {opts : ConnectOptions} {t t' : Files} {bytes : List UInt8} {b : Path}
    (hfile : t.node (resolveConfigPath (buildProfile client ctx) opts.configPathOverride) = some (.file bytes))
    (hb : plan.rawBackupPath = some b)
    (hne : b ≠ tempPath H (resolveConfigPath (buildProfile client ctx) opts.configPathOverride) ctx ∧
      b ≠ resolveConfigPath (buildProfile client ctx) opts.configPathOverride)
    (h : writePlan H plan client ctx opts t = .ok plan' t') (q : Path) :
    t'.node q =
      if q = tempPath H (resolveConfigPath (buildProfile client ctx) opts.configPathOverride) ctx then none
      else if q = resolveConfigPath (buildProfile client ctx) opts.configPathOverride then some (.file plan.generatedJson)
      else if q = b then some (.file bytes)
      else t.node q := by
  generalize hp : resolveConfigPath (buildProfile client ctx) opts.configPathOverride = p at *
  rw [writePlan, hp] at h
  obtain ⟨_, t₁, hdirs, hwrite⟩ := EStateM.bind_eq_ok.1 h
  -- the directory of a file is there
  have hparent := FileTree.createDirAll_of_directory (FileTree.holds_of_file hfile).1
  obtain rfl : t = t₁ := by
    have hdirs := io_ok hdirs
    rw [hparent] at hdirs
    cases hdirs
    rfl
  obtain ⟨_, t₂, hreplace, hreturn⟩ := EStateM.bind_eq_ok.1 hwrite
  obtain ⟨-, rfl⟩ := EStateM.pure_eq_ok.1 hreturn
  have hreplaced : replaceConfig (tempPath H p ctx) p plan.rawBackupPath plan.generatedJson t = .ok () t₂ := by
    have hremoved := io_ok hreplace
    rw [removedOnError] at hremoved
    split at hremoved
    · rename_i hx
      cases hremoved
      exact hx
    · cases hremoved
  rw [hb] at hreplaced
  rw [replaceConfig_ok (tempPath_ne H p ctx) (by rintro _ ⟨⟩; exact hne) hreplaced q, hfile, FileTree.hasEntry, hfile]
  simp

/-! ## What every call keeps -/

section Rules

variable {R : Files → Files → Prop} (hrefl : ∀ t, R t t) (htrans : ∀ a b c, R a b → R b c → R a c)
include hrefl htrans

theorem keeps_backUp {configPath : Path} {backup : Option Path}
    (hput : ∀ b ∈ backup, ∀ t data (h : FileTree.Holds t b), R t (t.put b data h)) : Keeps R (backUp configPath backup) := by
  intro t
  rw [EStateM.after]
  unfold backUp
  cases backup with
  | none => exact hrefl t
  | some b =>
    simp only
    by_cases h : t.hasEntry configPath
    · rw [if_pos h]
      exact FileTree.keeps_copy_of hrefl htrans configPath (hput b rfl) t
    · rw [if_neg h]
      exact hrefl t

theorem keeps_replaceConfig {tempPath configPath : Path} {backup : Option Path} (json : List UInt8)
    (hput : ∀ target, target = tempPath ∨ target = configPath ∨ some target = backup →
      ∀ t data (h : FileTree.Holds t target), R t (t.put target data h))
    (herase : ∀ t h, R t (FileTree.erase t tempPath h)) : Keeps R (replaceConfig tempPath configPath backup json) := by
  refine keeps_bind htrans (FileTree.keeps_write_of hrefl fun t => hput _ (Or.inl rfl) t json) fun _ => ?_
  refine keeps_bind htrans (keeps_backUp hrefl htrans fun b hb => hput b (Or.inr (Or.inr hb.symm))) fun _ => ?_
  exact FileTree.keeps_rename_of hrefl htrans (hput _ (Or.inr (Or.inl rfl))) herase

theorem keeps_removedOnError {tempPath : Path} {x : FileTree.Io FileName Unit} (hx : Keeps R x)
    (herase : ∀ t h, R t (FileTree.erase t tempPath h)) : Keeps R (removedOnError tempPath x) := by
  intro t
  have h := hx t
  rw [EStateM.after] at h
  rw [EStateM.after, removedOnError]
  cases hxt : x t with
  | ok u t' => rw [hxt] at h; exact h
  | error e t' =>
    rw [hxt] at h
    exact htrans _ _ _ h (FileTree.keeps_removeFile_of hrefl herase t')

/-- A plan is written to the configuration, to the file beside it and to the backup, after the
directories on the way have been made. -/
theorem keeps_writePlan {plan : Plan} {opts : ConnectOptions} {p : Path}
    (hp : resolveConfigPath (buildProfile client ctx) opts.configPathOverride = p)
    (hmade : ∀ s t, FileTree.Made p.tail s t → R s t)
    (hput : ∀ target, target = tempPath H p ctx ∨ target = p ∨ some target = plan.rawBackupPath →
      ∀ t data (h : FileTree.Holds t target), R t (t.put target data h))
    (herase : ∀ t h, R t (FileTree.erase t (tempPath H p ctx) h)) : Keeps R (writePlan H plan client ctx opts) := by
  rw [writePlan, hp]
  refine keeps_bind htrans (keeps_io fun t => hmade _ _ (FileTree.keeps_createDirAll List.suffix_rfl t)) fun _ => ?_
  refine keeps_bind htrans (keeps_io ?_) fun _ => EStateM.keeps_pure hrefl _
  exact keeps_removedOnError hrefl htrans (keeps_replaceConfig hrefl htrans _ hput herase) herase

end Rules

/-- The file beside the configuration does not stay. -/
theorem replaced_temp {tempPath configPath : Path} (backup : Option Path) (json : List UInt8) {t : Files}
    (hne : tempPath ≠ configPath) (h : t.node tempPath = none) :
    ((removedOnError tempPath (replaceConfig tempPath configPath backup json)).after t).node tempPath = none := by
  have hkeeps : Keeps (FileTree.NoDirectory tempPath) (replaceConfig tempPath configPath backup json) :=
    keeps_replaceConfig (FileTree.noDirectory_refl tempPath) FileTree.noDirectory_trans json
      (fun _ _ => FileTree.noDirectory_put tempPath) (FileTree.noDirectory_erase tempPath)
  have hdir := hkeeps t (by rw [h]; exact nofun)
  rw [EStateM.after] at hdir
  rw [EStateM.after, removedOnError]
  cases hx : replaceConfig tempPath configPath backup json t with
  | ok u t' =>
    obtain ⟨_, t₁, -, hrest⟩ := EStateM.bind_eq_ok.1 hx
    obtain ⟨_, t₂, -, hrename⟩ := EStateM.bind_eq_ok.1 hrest
    obtain ⟨data, -, hnode⟩ := FileTree.rename_ok hne hrename
    exact (hnode tempPath).trans (if_pos rfl)
  | error e t' =>
    rw [hx] at hdir
    exact FileTree.removeFile_after hdir

theorem writePlan_temp {plan : Plan} {opts : ConnectOptions} {p : Path} {t : Files}
    (hp : resolveConfigPath (buildProfile client ctx) opts.configPathOverride = p)
    (h : t.node (tempPath H p ctx) = none) : ((writePlan H plan client ctx opts).after t).node (tempPath H p ctx) = none := by
  rw [EStateM.after, writePlan, hp]
  have hmade := FileTree.keeps_createDirAll (List.suffix_rfl (l := p.tail)) t
  have hdirs : ∀ t', FileTree.Made p.tail t t' → t'.node (tempPath H p ctx) = none := by
    intro t' hm
    rcases hm (tempPath H p ctx) with heq | ⟨-, -, hsuffix⟩
    · exact heq.trans h
    · -- it does not lie on the way to itself
      have hlen := hsuffix.length_le
      simp only [tempPath, withFileName, List.length_cons] at hlen
      omega
  simp only [bind, EStateM.bind, io]
  cases hx : FileTree.createDirAll p.tail t with
  | error e t' =>
    rw [EStateM.after, hx] at hmade
    exact hdirs t' hmade
  | ok u t' =>
    rw [EStateM.after, hx] at hmade
    have htemp := replaced_temp plan.rawBackupPath plan.generatedJson (tempPath_ne H p ctx) (hdirs t' hmade)
    rw [EStateM.after] at htemp
    simp only
    cases hy : removedOnError (tempPath H p ctx) (replaceConfig (tempPath H p ctx) p plan.rawBackupPath plan.generatedJson) t' with
    | ok u t'' =>
      rw [hy] at htemp
      rw [← tempPath, hy]
      exact htemp
    | error e t'' =>
      rw [hy] at htemp
      rw [← tempPath, hy]
      exact htemp

end EnigmaMemory.Connector
