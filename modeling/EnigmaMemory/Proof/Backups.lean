import Mathlib.Data.List.Pairwise
import Mathlib.Data.List.Sort
import EnigmaMemory.Lib.Run
import EnigmaMemory.Proof.WritePlan

/-!
# Backups of configuration files

The names that backups get, in the order in which they are listed, and what a run of calls
leaves beside a configuration.
-/

namespace EnigmaMemory.Connector

variable {H : Host} {client : ClientId} {ctx : EngineContext}

/-! ## Times -/

/-- The times of `T` are printed as RFC 3339 has it, with years of four digits: the separators
stand in the same places, the order of the texts is that of the times, and the zone is `Z`. -/
structure Rfc3339 (H : Host) (T : Set ℤ) : Prop where
  places : ∀ a ∈ T, ∀ b ∈ T, List.Forall₂ (fun x y => x = ':' ∨ x = '.' ∨ y = ':' ∨ y = '.' → x = y)
    (H.toRfc3339 a) (H.toRfc3339 b)
  order : ∀ a ∈ T, ∀ b ∈ T, a < b → H.toRfc3339 a < H.toRfc3339 b
  utc : ∀ a ∈ T, (H.toRfc3339 a).getLast? = some 'Z'

/-- Leaving out separators that stand in the same places keeps the order. -/
theorem filter_lt {p : Char → Bool} {xs ys : List Char} (h : List.Forall₂ (fun x y => p x = false ∨ p y = false → x = y) xs ys)
    (hlt : xs < ys) : xs.filter p < ys.filter p := by
  induction h with
  | nil => exact absurd hlt (by simp)
  | @cons x y xs ys hxy _ ih =>
    rw [List.cons_lt_cons_iff] at hlt
    rcases hlt with hlt | ⟨rfl, hlt⟩
    · have hne : ¬ (p x = false ∨ p y = false) := fun hp => absurd (hxy hp ▸ hlt) (lt_irrefl _)
      rw [not_or, Bool.not_eq_false, Bool.not_eq_false] at hne
      rw [List.filter_cons_of_pos hne.1, List.filter_cons_of_pos hne.2, List.cons_lt_cons_iff]
      exact Or.inl hlt
    · cases hp : p x with
      | false => rw [List.filter_cons_of_neg (by simp [hp]), List.filter_cons_of_neg (by simp [hp])]; exact ih hlt
      | true =>
        rw [List.filter_cons_of_pos hp, List.filter_cons_of_pos hp, List.cons_lt_cons_iff]
        exact Or.inr ⟨rfl, ih hlt⟩

theorem filter_length {p : Char → Bool} {xs ys : List Char}
    (h : List.Forall₂ (fun x y => p x = false ∨ p y = false → x = y) xs ys) : (xs.filter p).length = (ys.filter p).length := by
  induction h with
  | nil => rfl
  | @cons x y xs ys hxy _ ih =>
    cases hx : p x with
    | false =>
      obtain rfl := hxy (Or.inl hx)
      rw [List.filter_cons_of_neg (by simp [hx]), List.filter_cons_of_neg (by simp [hx]), ih]
    | true =>
      cases hy : p y with
      | false => rw [hxy (Or.inr hy), hy] at hx; cases hx
      | true => rw [List.filter_cons_of_pos hx, List.filter_cons_of_pos hy, List.length_cons, List.length_cons, ih]

variable {T : Set ℤ}

theorem Rfc3339.aligned (hH : Rfc3339 H T) {a b : ℤ} (ha : a ∈ T) (hb : b ∈ T) :
    List.Forall₂ (fun x y => decide (x ≠ ':' ∧ x ≠ '.') = false ∨ decide (y ≠ ':' ∧ y ≠ '.') = false → x = y)
      (H.toRfc3339 a) (H.toRfc3339 b) :=
  (hH.places a ha b hb).imp fun x y h hsep => h (by grind)

theorem Rfc3339.suffix_lt (hH : Rfc3339 H T) {a b : ℤ} (ha : a ∈ T) (hb : b ∈ T) (h : a < b) :
    timestampSuffix H a < timestampSuffix H b := filter_lt (hH.aligned ha hb) (hH.order a ha b hb h)

theorem Rfc3339.suffix_length (hH : Rfc3339 H T) {a b : ℤ} (ha : a ∈ T) (hb : b ∈ T) :
    (timestampSuffix H a).length = (timestampSuffix H b).length := filter_length (hH.aligned ha hb)

theorem Rfc3339.suffix_getLast (hH : Rfc3339 H T) {a : ℤ} (ha : a ∈ T) : (timestampSuffix H a).getLast? = some 'Z' := by
  obtain ⟨init, hinit⟩ := List.getLast?_eq_some_iff.1 (hH.utc a ha)
  rw [timestampSuffix, hinit, List.filter_append, List.getLast?_append]
  simp

/-! ## Names -/

/-- The end of the name of a backup: the first one of a second has no number. -/
def backupIndex : ℕ → FileName
  | 0 => []
  | i + 1 => '.' :: (Nat.repr (i + 1)).toList

def backupName (H : Host) (name : FileName) (now : ℤ) (i : ℕ) : FileName :=
  name ++ ".bak.".toList ++ (timestampSuffix H now ++ backupIndex i)

theorem backupIndex_inj {i j : ℕ} (h : backupIndex i = backupIndex j) : i = j := by
  cases i with
  | zero => cases j with
    | zero => rfl
    | succ j => cases h
  | succ i => cases j with
    | zero => cases h
    | succ j =>
      rw [backupIndex, backupIndex, List.cons.injEq, Nat.toList_repr, Nat.toList_repr] at h
      rw [← Nat.ofDigitChars_ten_toDigits (n := i + 1), h.2, Nat.ofDigitChars_ten_toDigits]

/-- Up to nine the numbers are in the order of their texts. -/
theorem backupIndex_lt {i j : ℕ} (hij : i < j) (hj : j ≤ 9) : backupIndex i < backupIndex j := by
  have hall : ∀ j ≤ 9, ∀ i < j, backupIndex i < backupIndex j := by decide
  exact hall j hj i hij

theorem append_lt_append {xs ys : List Char} (hlen : xs.length = ys.length) (h : xs < ys) (u v : List Char) :
    xs ++ u < ys ++ v := by
  induction xs generalizing ys with
  | nil =>
    rw [List.length_nil, eq_comm, List.length_eq_zero_iff] at hlen
    exact absurd h (by simp [hlen])
  | cons x xs ih =>
    cases ys with
    | nil => cases hlen
    | cons y ys =>
      rw [List.cons_lt_cons_iff] at h
      rw [List.cons_append, List.cons_append, List.cons_lt_cons_iff]
      exact h.imp_right fun h => ⟨h.1, ih (Nat.succ.inj hlen) h.2⟩

theorem append_lt_append_left (w : List Char) {xs ys : List Char} (h : xs < ys) : w ++ xs < w ++ ys := by
  induction w with
  | nil => exact h
  | cons x w ih => exact List.cons_lt_cons_iff.2 (Or.inr ⟨rfl, ih⟩)

/-- A later backup has the greater name. -/
theorem backupName_lt_of_time (hH : Rfc3339 H T) (name : FileName) {a b : ℤ} (ha : a ∈ T) (hb : b ∈ T) (h : a < b) (i j : ℕ) :
    backupName H name a i < backupName H name b j :=
  append_lt_append_left _ (append_lt_append (hH.suffix_length ha hb) (hH.suffix_lt ha hb h) _ _)

theorem backupName_lt_of_index (name : FileName) (now : ℤ) {i j : ℕ} (hij : i < j) (hj : j ≤ 9) :
    backupName H name now i < backupName H name now j :=
  append_lt_append_left _ (append_lt_append_left _ (backupIndex_lt hij hj))

theorem backupName_inj (hH : Rfc3339 H T) {name : FileName} {a b : ℤ} (ha : a ∈ T) (hb : b ∈ T) {i j : ℕ}
    (h : backupName H name a i = backupName H name b j) : a = b ∧ i = j := by
  rcases lt_trichotomy a b with hlt | rfl | hlt
  · exact absurd (h ▸ backupName_lt_of_time hH name ha hb hlt i j) (lt_irrefl _)
  · rw [backupName, backupName, List.append_cancel_left_eq, List.append_cancel_left_eq] at h
    exact ⟨rfl, backupIndex_inj h⟩
  · exact absurd (h ▸ backupName_lt_of_time hH name hb ha hlt j i) (lt_irrefl _)

/-- A number ends with a digit. -/
theorem backupIndex_getLast {i : ℕ} {c : Char} (h : (backupIndex i).getLast? = some c) : c.isDigit = true := by
  cases i with
  | zero => cases h
  | succ i =>
    have hne : (Nat.repr (i + 1)).toList ≠ [] := by rw [Nat.toList_repr]; exact Nat.toDigits_ne_nil
    rw [backupIndex, List.getLast?_cons_of_ne_nil hne, Nat.toList_repr] at h
    exact Nat.isDigit_of_mem_toDigits (by decide) (le_refl 10) (List.mem_of_getLast? h)

/-- No backup is named as a file that waits to be renamed. -/
theorem backupName_ne_tempName (hH : Rfc3339 H T) {now : ℤ} (hnow : now ∈ T) (name : FileName) (i : ℕ) (H' : Host) (p : Path)
    (ctx : EngineContext) : backupName H name now i ≠ tempName H' p ctx := by
  intro h
  obtain ⟨mid, hmid⟩ := tempName_eq H' p ctx
  have htemp : (tempName H' p ctx).getLast? = some 'p' := by
    rw [hmid, List.getLast?_append]
    rfl
  rw [← h, backupName, List.getLast?_append, List.getLast?_append, hH.suffix_getLast hnow] at htemp
  cases hlast : (backupIndex i).getLast? with
  | none =>
    rw [hlast, Option.none_or, Option.some_or] at htemp
    exact absurd htemp (by decide)
  | some c =>
    rw [hlast] at htemp
    have hdigit := backupIndex_getLast hlast
    obtain rfl : c = 'p' := by simpa using htemp
    exact absurd hdigit (by decide)

/-! ## Configurations of clients -/

/-- The names that the configurations of clients have. -/
def configNames : List FileName :=
  ["claude_desktop_config.json", "mcp.json", "cline_mcp_settings.json", "mcp_settings.json", "opencode.json"].map String.toList

/-- The configuration of a client. -/
def homePath (client : ClientId) (ctx : EngineContext) : Path := resolveConfigPath (buildProfile client ctx) none

theorem homePath_eq (client : ClientId) (ctx : EngineContext) :
    ∃ name ∈ configNames, ∃ dir, homePath client ctx = name :: dir := by
  cases hp : ctx.platform <;> cases client <;>
    simp only [homePath, resolveConfigPath, buildProfile, resolveDefaultConfigPath, hp, Option.getD, joinTargetPath,
      List.foldl] <;>
    exact ⟨_, by decide, _, rfl⟩

theorem splitExtension_configNames : ∀ name ∈ configNames,
    name = (splitExtension name).1 ++ '.' :: (splitExtension name).2.getD [] := by
  decide

/-- A name with its extension, and its extension again with an ending. -/
theorem withExtension_eq {name : FileName} (hname : name ∈ configNames) (dir : Path) (ending : FileName) :
    withExtension (name :: dir) (extension (name :: dir) ++ ".bak.".toList ++ ending) =
      (name ++ ".bak.".toList ++ ending) :: dir := by
  have hne : extension (name :: dir) ++ ".bak.".toList ++ ending ≠ [] := by simp
  rw [withExtension, if_neg hne, fileStem, extension, fileName]
  conv_rhs => rw [splitExtension_configNames name hname]
  simp

theorem backupPathFor_eq {name : FileName} (hname : name ∈ configNames) (dir : Path) (now : ℤ) :
    backupPathFor H (name :: dir) now = backupName H name now 0 :: dir := by
  rw [backupPathFor, withExtension_eq hname, backupName, backupIndex, List.append_nil]

theorem backupCandidate_eq {name : FileName} (hname : name ∈ configNames) (dir : Path) (now : ℤ) (i : ℕ) :
    backupCandidate H (name :: dir) now (i + 1) = backupName H name now (i + 1) :: dir := by
  rw [backupCandidate, List.append_assoc, List.append_assoc, ← List.append_assoc (extension _), withExtension_eq hname,
    backupName, backupIndex]

/-- The first name that is free. -/
theorem unusedBackupPath_ok {t : Files} {name : FileName} (hname : name ∈ configNames) {dir b : Path} {now : ℤ}
    (hnow : ctx.now.getD H.utcNow = now) (h : unusedBackupPath H t (name :: dir) ctx = .ok b) :
    ∃ i, b = backupName H name now i :: dir ∧ t.node b = none ∧
      ∀ j < i, t.node (backupName H name now j :: dir) ≠ none := by
  rw [unusedBackupPath, hnow, backupPathFor_eq hname] at h
  split at h
  · rename_i hfree
    cases h
    exact ⟨0, rfl, by simpa [FileTree.hasEntry] using hfree, fun j hj => nomatch hj⟩
  · rename_i hbase
    split at h
    · rename_i index hfind
      cases h
      rw [List.find?_range'_eq_some] at hfind
      obtain ⟨hfree, hmem, hfirst⟩ := hfind
      obtain ⟨i, rfl⟩ : ∃ i, index = i + 1 := ⟨index - 1, by rw [List.mem_range'_1] at hmem; omega⟩
      refine ⟨i + 1, backupCandidate_eq hname dir now i, by simpa [FileTree.hasEntry] using hfree, fun j hj => ?_⟩
      cases j with
      | zero => simpa [FileTree.hasEntry] using hbase
      | succ j =>
        have hused := hfirst (j + 1) (by omega) hj
        rw [backupCandidate_eq hname] at hused
        simpa [FileTree.hasEntry, Option.isSome_iff_ne_none] using hused
    · cases h

/-! ## Calls -/

/-- A call of `connect` or `disconnect`, with the context and the time in which it is made. -/
structure Edit where
  client : ClientId
  ctx : EngineContext
  utcNow : ℤ
  disconnects : Bool
  opts : ConnectOptions

namespace Edit

def host (H : Host) (e : Edit) : Host := { H with utcNow := e.utcNow }

def time (e : Edit) : ℤ := e.ctx.now.getD e.utcNow

/-- The configuration that the call is about. -/
def path (e : Edit) : Path := resolveConfigPath (buildProfile e.client e.ctx) e.opts.configPathOverride

/-- The configuration that a rollback of the client writes. -/
def home (e : Edit) : Path := homePath e.client e.ctx

def plan (H : Host) (e : Edit) : Engine Plan :=
  if e.disconnects then buildDisconnectPlan (e.host H) e.client e.ctx e.opts true
  else buildConnectPlan (e.host H) e.client e.ctx e.opts true

def call (H : Host) (e : Edit) : Engine Plan :=
  if e.disconnects then disconnect (e.host H) e.client e.ctx e.opts else connect (e.host H) e.client e.ctx e.opts

/-- The call sets out to replace a file. -/
def Replaces (H : Host) (t : Files) (e : Edit) : Prop :=
  e.opts.confirmed = true ∧ e.opts.dryRun = false ∧ ∃ plan t', e.plan H t = .ok plan t' ∧ plan.rawBackupPath ≠ none

variable {e : Edit} {t : Files}

theorem call_eq : e.call H = e.plan H >>= carryOut (e.host H) e.client e.ctx e.opts := by
  unfold call plan
  cases e.disconnects <;> rfl

theorem plan_eq : ∃ actions next, e.plan H = planTo (e.host H) e.client e.ctx e.opts true actions next := by
  unfold plan
  cases e.disconnects with
  | true => rw [if_pos rfl, buildDisconnectPlan]; exact ⟨_, _, rfl⟩
  | false => rw [if_neg Bool.false_ne_true, buildConnectPlan]; exact ⟨_, _, rfl⟩

/-- What the plan of a call says about the files. -/
theorem plan_ok {plan : Plan} {t' : Files} (h : e.plan H t = .ok plan t') :
    t' = t ∧ plan.dryRun = e.opts.dryRun ∧ plan.writesPerformed = (!e.opts.dryRun && plan.changed) ∧
      (∀ bytes, t.node e.path = some (.file bytes) → plan.changed = true → plan.rawBackupPath ≠ none) ∧
      ∀ b, plan.rawBackupPath = some b → unusedBackupPath (e.host H) t e.path e.ctx = .ok b := by
  obtain ⟨actions, next, hplan⟩ := plan_eq (H := H) (e := e)
  rw [hplan] at h
  obtain ⟨rfl, existing, nextConfig, rawBackupPath, hconfig, -, hbackup, rfl⟩ := planTo_ok h
  refine ⟨rfl, rfl, rfl, fun bytes hfile hchanged => ?_, fun b hb => ?_⟩
  · have hsome : existing.isSome = true := by
      rw [configAt, ← path, hfile] at hconfig
      obtain ⟨config, -, rfl⟩ := Except.map_eq_ok.1 hconfig
      rfl
    change (!jsonEqual (existing.getD (.obj [])) nextConfig) = true at hchanged
    rw [hsome, hchanged, allocatedBackup, if_pos (by rfl)] at hbackup
    obtain ⟨b, -, rfl⟩ := Except.map_eq_ok.1 hbackup
    exact nofun
  · change rawBackupPath = some b at hb
    rw [allocatedBackup] at hbackup
    split at hbackup
    · obtain ⟨c, hc, rfl⟩ := Except.map_eq_ok.1 hbackup
      cases hb
      exact hc
    · cases hbackup
      cases hb

/-- A call changes nothing, or it writes its plan. -/
theorem call_after : (e.call H).after t = t ∨ ∃ plan, e.plan H t = .ok plan t ∧ e.opts.confirmed = true ∧
    e.opts.dryRun = false ∧ (e.call H).after t = (writePlan (e.host H) plan e.client e.ctx e.opts).after t := by
  obtain ⟨actions, next, hplan⟩ := plan_eq (H := H) (e := e)
  by_cases ho : Unasked e.opts
  · left
    rw [call_eq, hplan]
    exact (keeps_planned ho actions next t).symm
  · rw [Unasked, not_or, Bool.not_eq_false, Bool.not_eq_true] at ho
    rw [EStateM.after, call_eq]
    cases hp : e.plan H t with
    | error err t' =>
      left
      have hkeeps : t = (e.plan H).after t := hplan ▸ keeps_planTo e.opts true actions next t
      rw [EStateM.after, hp] at hkeeps
      simp only [bind, EStateM.bind, hp]
      exact hkeeps.symm
    | ok plan t' =>
      obtain ⟨rfl, hrun, -⟩ := plan_ok hp
      rw [EStateM.bind_of_ok hp, carryOut]
      by_cases hdone : (plan.dryRun || !plan.changed) = true
      · rw [if_pos hdone]
        exact Or.inl rfl
      · rw [if_neg hdone, if_neg (by simp [ho.1])]
        exact Or.inr ⟨plan, rfl, ho.1, ho.2, rfl⟩

/-- A call that says that it has written has written over a file that was there. -/
theorem call_ok {plan' : Plan} {t' : Files} {bytes : List UInt8} (hfile : t.node e.path = some (.file bytes))
    (h : e.call H t = .ok plan' t') (hwritten : plan'.writesPerformed = true) :
    ∃ plan, e.plan H t = .ok plan t ∧ e.Replaces H t ∧ plan'.rawBackupPath = plan.rawBackupPath ∧
      writePlan (e.host H) plan e.client e.ctx e.opts t = .ok plan' t' := by
  rw [call_eq] at h
  obtain ⟨plan, t₁, hplan, hcarry⟩ := EStateM.bind_eq_ok.1 h
  obtain ⟨rfl, hrun, hwrites, hbackup, -⟩ := plan_ok hplan
  rw [carryOut] at hcarry
  split at hcarry
  · -- a plan that is not carried out says so
    rename_i hnot
    obtain ⟨rfl, -⟩ := EStateM.pure_eq_ok.1 hcarry
    rw [hwrites, ← hrun] at hwritten
    simp_all
  · rename_i hdo
    rw [Bool.or_eq_true, not_or, Bool.not_eq_true, Bool.not_eq_true, Bool.not_eq_false'] at hdo
    split at hcarry
    · cases hcarry
    · rename_i hconfirmed
      rw [Bool.not_eq_false] at hconfirmed
      refine ⟨plan, hplan, ⟨hconfirmed, hrun ▸ hdo.1, plan, _, hplan, hbackup bytes hfile hdo.2⟩, ?_, hcarry⟩
      rw [writePlan] at hcarry
      obtain ⟨_, t₂, -, hrest⟩ := EStateM.bind_eq_ok.1 hcarry
      obtain ⟨_, t₃, -, hreturn⟩ := EStateM.bind_eq_ok.1 hrest
      obtain ⟨rfl, -⟩ := EStateM.pure_eq_ok.1 hreturn
      rfl

end Edit

/-! ## What stands beside a configuration -/

/-- A name that is listed among the backups of a configuration. -/
def Named (config q : Path) : Prop := q.tail = config.tail ∧ (fileName config ++ ".bak.".toList) <+: fileName q

/-- Beside the configuration stand backups that the engine has made, and the first ones of each second. -/
structure Kept (H : Host) (T : Set ℤ) (config : Path) (t : Files) : Prop where
  made : ∀ q, Named config q → t.node q ≠ none → ∃ now ∈ T, ∃ i, q = backupName H (fileName config) now i :: config.tail
  closed : ∀ now ∈ T, ∀ i j, j ≤ i → t.node (backupName H (fileName config) now i :: config.tail) ≠ none →
    t.node (backupName H (fileName config) now j :: config.tail) ≠ none

/-- A call comes at its time: no part of its path has the name of a backup, and if it replaces
a file, then that of its client; its backup is the last one, and one of the first ten of its second. -/
structure Orderly (H : Host) (T : Set ℤ) (config : Path) (t : Files) (e : Edit) : Prop where
  unnamed : ∀ q, q <:+ e.path → ¬ Named config q
  own : e.Replaces H t → e.path = e.home
  timed : e.Replaces H t → e.path = config → e.time ∈ T
  last : e.Replaces H t → e.path = config → ∀ now ∈ T, e.time < now → t.hasEntry (backupPathFor H config now) = false
  tenth : e.Replaces H t → e.path = config → t.hasEntry (backupCandidate H config e.time 9) = false

theorem named_backup (name dir : _) (now : ℤ) (i : ℕ) : Named (name :: dir) (backupName H name now i :: dir) :=
  ⟨rfl, List.prefix_append _ _⟩

/-- The backups of one client are not listed among those of another. -/
theorem configNames_prefix {F N rest : FileName} (hF : F ∈ configNames) (hN : N ∈ configNames)
    (h : F ++ ".bak.".toList <+: N ++ ".bak.".toList ++ rest) : F = N := by
  have hall : ∀ F ∈ configNames, ∀ N ∈ configNames,
      F ++ ".bak.".toList <+: N ++ ".bak.".toList ∨ N ++ ".bak.".toList <+: F ++ ".bak.".toList → F = N := by
    decide
  exact hall F hF N hN (List.prefix_or_prefix_of_prefix h (List.prefix_append _ rest))

section Kept

variable {config : Path} {e : Edit} {t : Files}

theorem Kept.temp_free (hH : Rfc3339 H T) (hk : Kept H T config t) (H' : Host) (p : Path) (ctx : EngineContext)
    (hq : Named config (tempPath H' p ctx)) : t.node (tempPath H' p ctx) = none := by
  by_contra hne
  obtain ⟨now, hnow, i, heq⟩ := hk.made _ hq hne
  exact backupName_ne_tempName hH hnow _ i H' p ctx (List.cons.inj heq).1.symm

/-- **What a call does beside a configuration**: it leaves everything alone, or its backup is new there. -/
theorem named_after (hH : Rfc3339 H T) {name : FileName} (hname : name ∈ configNames) {dir : Path}
    (hk : Kept H T (name :: dir) t) (he : Orderly H T (name :: dir) t e) {q : Path} (hq : Named (name :: dir) q) :
    ((e.call H).after t).node q = t.node q ∨
      e.Replaces H t ∧ e.path = name :: dir ∧ ∃ i, q = backupName H name e.time i :: dir ∧ t.node q = none ∧
        ∀ j < i, t.node (backupName H name e.time j :: dir) ≠ none := by
  rcases e.call_after (H := H) (t := t) with heq | ⟨plan, hplan, hconfirmed, hdry, hafter⟩
  · exact Or.inl (by rw [heq])
  rw [hafter]
  obtain ⟨-, -, -, -, hbackup⟩ := Edit.plan_ok hplan
  by_cases htemp : q = tempPath (e.host H) e.path e.ctx
  · -- the temporary file was not there and does not stay
    left
    have hnone := hk.temp_free hH (e.host H) e.path e.ctx (htemp ▸ hq)
    rw [htemp, hnone]
    exact writePlan_temp rfl hnone
  by_cases hb : some q = plan.rawBackupPath
  · have hrep : e.Replaces H t := ⟨hconfirmed, hdry, plan, t, hplan, by rw [← hb]; exact nofun⟩
    have hunused := hbackup q hb.symm
    obtain ⟨name', hname', dir', hhome⟩ := homePath_eq e.client e.ctx
    rw [he.own hrep, Edit.home, hhome] at hunused
    obtain ⟨i, rfl, hfree, hfirst⟩ := unusedBackupPath_ok hname' rfl hunused
    obtain ⟨hdir, hprefix⟩ := hq
    obtain rfl : dir' = dir := hdir
    obtain rfl := configNames_prefix hname hname' hprefix
    exact Or.inr ⟨hrep, (he.own hrep).trans hhome, i, rfl, hfree, hfirst⟩
  · left
    have hkeeps : EStateM.Keeps (FileTree.Off fun q => q <:+ e.path ∨ q = tempPath (e.host H) e.path e.ctx ∨ some q = plan.rawBackupPath)
        (writePlan (e.host H) plan e.client e.ctx e.opts) := by
      refine keeps_writePlan (FileTree.off_refl _) FileTree.off_trans rfl (fun s t hm => ?_) (fun target htarget => ?_) ?_
      · exact hm.off fun q hq => Or.inl (hq.trans (List.tail_suffix _))
      · refine FileTree.off_put ?_
        rcases htarget with rfl | rfl | htarget
        · exact Or.inr (Or.inl rfl)
        · exact Or.inl List.suffix_rfl
        · exact Or.inr (Or.inr htarget)
      · exact FileTree.off_erase (Or.inr (Or.inl rfl))
    refine hkeeps t q ?_
    rintro (hsuffix | h | h)
    · exact he.unnamed q hsuffix hq
    · exact htemp h
    · exact hb h

/-- An entry beside the configuration stays as it is. -/
theorem named_stays (hH : Rfc3339 H T) {name : FileName} (hname : name ∈ configNames) {dir : Path}
    (hk : Kept H T (name :: dir) t) (he : Orderly H T (name :: dir) t e) {q : Path} (hq : Named (name :: dir) q)
    (hnode : t.node q ≠ none) : ((e.call H).after t).node q = t.node q := by
  rcases named_after hH hname hk he hq with h | ⟨-, -, _, -, hfree, -⟩
  · exact h
  · exact absurd hfree hnode

theorem kept_after (hH : Rfc3339 H T) {name : FileName} (hname : name ∈ configNames) {dir : Path}
    (hk : Kept H T (name :: dir) t) (he : Orderly H T (name :: dir) t e) : Kept H T (name :: dir) ((e.call H).after t) where
  made := by
    intro q hq hnode
    rcases named_after hH hname hk he hq with h | ⟨hrep, hpath, i, heq, -⟩
    · exact hk.made q hq (h ▸ hnode)
    · exact ⟨e.time, he.timed hrep hpath, i, heq⟩
  closed := by
    intro now hnow i j hji hnode
    change ((e.call H).after t).node (backupName H name now j :: dir) ≠ none
    have hstays : t.node (backupName H name now j :: dir) ≠ none →
        ((e.call H).after t).node (backupName H name now j :: dir) ≠ none :=
      fun h => by rwa [named_stays hH hname hk he (named_backup name dir now j) h]
    rcases named_after hH hname hk he (named_backup name dir now i) with h | ⟨hrep, hpath, i', heq, -, hfirst⟩
    · exact hstays (hk.closed now hnow i j hji (h ▸ hnode))
    · -- the new backup is the first that was missing
      obtain ⟨rfl, rfl⟩ := backupName_inj hH hnow (he.timed hrep hpath) (List.cons.inj heq).1
      rcases hji.eq_or_lt with rfl | hlt
      · exact hnode
      · exact hstays (hfirst j hlt)

theorem tempPath_ne_config {name : FileName} (hname : name ∈ configNames) (dir p : Path) (H' : Host) (ctx : EngineContext) :
    tempPath H' p ctx ≠ name :: dir := by
  intro h
  obtain ⟨mid, hmid⟩ := tempName_eq H' p ctx
  have htemp : (tempName H' p ctx).getLast? = some 'p' := by
    rw [hmid, List.getLast?_append]
    rfl
  have hlast : ∀ name ∈ configNames, name.getLast? = some 'n' := by decide
  rw [(List.cons.inj h).1, hlast name hname] at htemp
  exact absurd htemp (by decide)

theorem call_staysFile {name : FileName} (hname : name ∈ configNames) (dir : Path) :
    FileTree.StaysFile (name :: dir) t ((e.call H).after t) := by
  rcases e.call_after (H := H) (t := t) with heq | ⟨plan, -, -, -, hafter⟩
  · rw [heq]
    exact FileTree.staysFile_refl _ t
  · rw [hafter]
    refine keeps_writePlan (FileTree.staysFile_refl (name :: dir)) FileTree.staysFile_trans rfl
      (fun s t hm => hm.staysFile _) (fun target _ => FileTree.staysFile_put (name :: dir)) ?_ t
    exact FileTree.staysFile_erase (tempPath_ne_config hname dir e.path (e.host H) e.ctx)

/-! ## The last backup -/

theorem getLast?_insertionSort {l : List FileName} {x : FileName} (hx : x ∈ l) (hmax : ∀ y ∈ l, y ≤ x) :
    (l.insertionSort (· ≤ ·)).getLast? = some x := by
  have hmem : x ∈ l.insertionSort (· ≤ ·) := (List.mem_insertionSort _).2 hx
  have hne := List.ne_nil_of_mem hmem
  rw [List.getLast?_eq_some_getLast hne]
  have hlast := (List.mem_insertionSort _).1 (List.getLast_mem hne)
  exact congrArg some (le_antisymm (hmax _ hlast) ((List.pairwise_insertionSort _ l).rel_getLast hmem))

theorem mem_backupCandidates {name n : FileName} {dir : Path} :
    n ∈ backupCandidates t (name :: dir) ↔ Named (name :: dir) (n :: dir) ∧ t.node (n :: dir) ≠ none := by
  rw [backupCandidates, List.mem_filter, List.isPrefixOf_iff_prefix, List.tail_cons, FileTree.mem_readDir, and_comm]
  exact and_congr_left fun _ => ⟨fun h => ⟨rfl, h⟩, fun h => h.2⟩

/-- The last backup, if all the others are of earlier seconds or have a smaller number of one digit. -/
theorem findLatestBackup_eq (hH : Rfc3339 H T) {name : FileName} {dir : Path} (hk : Kept H T (name :: dir) t) {now : ℤ}
    (hnow : now ∈ T) {i : ℕ} (hi : i ≤ 9) (hnode : t.node (backupName H name now i :: dir) ≠ none)
    (hlast : ∀ a ∈ T, ∀ j, t.node (backupName H name a j :: dir) ≠ none → a < now ∨ a = now ∧ j ≤ i) :
    findLatestBackup t (name :: dir) = .ok (backupName H name now i :: dir) := by
  rw [findLatestBackup, getLast?_insertionSort (mem_backupCandidates.2 ⟨named_backup name dir now i, hnode⟩)]
  · rfl
  · intro n hn
    obtain ⟨hnamed, hentry⟩ := mem_backupCandidates.1 hn
    obtain ⟨a, ha, j, heq⟩ := hk.made _ hnamed hentry
    obtain rfl := (List.cons.inj heq).1
    rcases hlast a ha j hentry with hlt | ⟨rfl, hji⟩
    · exact (backupName_lt_of_time hH name ha hnow hlt j i).le
    · rcases hji.eq_or_lt with rfl | hlt
      · exact le_rfl
      · exact (backupName_lt_of_index name a hlt hi).le

/-- **A call that replaces a configuration leaves its old bytes in the last backup.** -/
theorem replaced_backup (hH : Rfc3339 H T) {name : FileName} (hname : name ∈ configNames) {dir : Path}
    (hk : Kept H T (name :: dir) t) (he : Orderly H T (name :: dir) t e) (hpath : e.path = name :: dir)
    {bytes : List UInt8} (hfile : t.node e.path = some (.file bytes)) {plan : Plan} {t' : Files}
    (hcall : e.call H t = .ok plan t') (hwritten : plan.writesPerformed = true) :
    ∃ b, plan.rawBackupPath = some b ∧ Named (name :: dir) b ∧ t'.node b = some (.file bytes) ∧
      findLatestBackup t' (name :: dir) = .ok b := by
  obtain ⟨plan₀, hplan, hrep, hraw, hwrite⟩ := e.call_ok hfile hcall hwritten
  obtain ⟨-, -, -, -, hbackup⟩ := Edit.plan_ok hplan
  have hne : plan₀.rawBackupPath ≠ none := by
    obtain ⟨-, -, plan₁, t₁, hplan₁, hne⟩ := hrep
    obtain ⟨rfl, -⟩ := EStateM.Result.ok.inj (hplan.symm.trans hplan₁)
    exact hne
  obtain ⟨b, hb⟩ := Option.ne_none_iff_exists'.1 hne
  have htime := he.timed hrep hpath
  have hunused := hbackup b hb
  rw [hpath] at hunused
  obtain ⟨i, rfl, hfree, hfirst⟩ : ∃ i, b = backupName H name e.time i :: dir ∧ t.node b = none ∧
      ∀ j < i, t.node (backupName H name e.time j :: dir) ≠ none := by
    exact unusedBackupPath_ok (H := e.host H) hname rfl hunused
  have hi : i ≤ 9 := by
    by_contra hlt
    refine hfirst 9 (by omega) ?_
    have htenth := he.tenth hrep hpath
    rw [backupCandidate_eq hname] at htenth
    simpa [FileTree.hasEntry] using htenth
  have hnamed : Named (name :: dir) (backupName H name e.time i :: dir) := named_backup name dir e.time i
  have hafter : (e.call H).after t = t' := by rw [EStateM.after, hcall]
  -- the backup is neither the waiting file nor the configuration
  have htemp : backupName H name e.time i :: dir ≠ tempPath (e.host H) e.path e.ctx :=
    fun h => backupName_ne_tempName hH htime name i (e.host H) e.path e.ctx (List.cons.inj h).1
  have hown : backupName H name e.time i :: dir ≠ e.path := fun h => he.unnamed _ (h ▸ List.suffix_rfl) hnamed
  have hstored : t'.node (backupName H name e.time i :: dir) = some (.file bytes) := by
    have hnode := writePlan_ok hfile hb ⟨htemp, hown⟩ hwrite (backupName H name e.time i :: dir)
    rwa [← Edit.path, if_neg htemp, if_neg hown, if_pos rfl] at hnode
  refine ⟨_, hraw.trans hb, hnamed, hstored, ?_⟩
  refine findLatestBackup_eq hH (hafter ▸ kept_after hH hname hk he) htime hi (by rw [hstored]; exact Option.some_ne_none _) ?_
  intro a ha j hj
  rw [← hafter] at hj
  rcases named_after hH hname hk he (named_backup name dir a j) with h | ⟨-, -, i', heq, hnone, hfirst'⟩
  · -- an older one
    rw [h] at hj
    have hle : a ≤ e.time := by
      by_contra hlt
      have hlast := he.last hrep hpath a ha (by omega)
      rw [backupPathFor_eq hname, FileTree.hasEntry, Option.isSome_eq_false_iff, Option.isNone_iff_eq_none] at hlast
      exact hk.closed a ha j 0 (Nat.zero_le j) hj hlast
    rcases hle.lt_or_eq with hlt | rfl
    · exact Or.inl hlt
    · refine Or.inr ⟨rfl, ?_⟩
      by_contra hlt
      exact hk.closed _ ha j i (by omega) hj hfree
  · -- the new one
    obtain ⟨rfl, rfl⟩ := backupName_inj hH ha htime (List.cons.inj heq).1
    refine Or.inr ⟨rfl, ?_⟩
    by_contra hlt
    exact hfirst' i (by omega) hfree

end Kept

/-! ## Rollbacks -/

theorem rollback_latest {t : Files} {b : Path} (h : findLatestBackup t (homePath client ctx) = .ok b) :
    rollback H client ctx ⟨none, true⟩ t = rollback H client ctx ⟨some b, true⟩ t := by
  have hchosen : chosenBackup t (homePath client ctx) ⟨none, true⟩ = chosenBackup t (homePath client ctx) ⟨some b, true⟩ := by
    simp only [chosenBackup, h]
  rw [homePath] at hchosen
  rw [rollback, rollback, if_neg (by simp), if_neg (by simp), rollbackInternal, rollbackInternal]
  simp only [bind, EStateM.bind, get, getThe, MonadStateOf.get, EStateM.get, hchosen]

/-- A rollback writes the bytes of the backup over the configuration. -/
theorem rollback_restores {t : Files} {b : Path} {bytes data : List UInt8} (hb : t.node b = some (.file bytes))
    (hne : b ≠ homePath client ctx) (hconfig : t.node (homePath client ctx) = some (.file data)) :
    ((rollback H client ctx ⟨some b, true⟩).after t).node (homePath client ctx) = some (.file bytes) := by
  have hholds := FileTree.holds_of_file hconfig
  have hafter := rollbackInternal_after (H := H) true hne hholds
  rw [hb] at hafter
  rw [rollback, if_neg (by simp), hafter]
  change (t.put (homePath client ctx) bytes hholds).node _ = _
  rw [FileTree.node_put, if_pos rfl]

/-! ## Runs -/

/-- The files after a call, whatever comes of it. -/
def step (H : Host) (t : Files) (e : Edit) : Option Files := some ((e.call H).after t)

/-- What a run from `s` keeps beside a configuration. -/
structure Stays (H : Host) (T : Set ℤ) (config : Path) (s t : Files) : Prop where
  kept : Kept H T config t
  backups : ∀ q, Named config q → s.node q ≠ none → t.node q = s.node q
  file : FileTree.StaysFile config s t

theorem run_stays (hH : Rfc3339 H T) {name : FileName} (hname : name ∈ configNames) {dir : Path} {edits : List Edit}
    {s t : Files} (hk : Kept H T (name :: dir) s) (hall : Run.All (step H) (Orderly H T (name :: dir)) s edits)
    (h : Run.run (step H) s edits = some t) : Stays H T (name :: dir) s t := by
  refine Run.run_induction (I := Stays H T (name :: dir) s) (C := Orderly H T (name :: dir)) ?_ edits s t
    ⟨hk, fun _ _ _ => rfl, FileTree.staysFile_refl _ s⟩ hall h
  rintro u e w hu he hstep
  obtain rfl := Option.some.inj hstep
  refine ⟨kept_after hH hname hu.kept he, fun q hq hnode => ?_, fun hfile => call_staysFile hname dir (hu.file hfile)⟩
  have hsame := hu.backups q hq hnode
  rw [named_stays hH hname hu.kept he hq (hsame ▸ hnode), hsame]

/-- **Rollbacks restore what calls replaced.** In a run of calls that come at their times, no
backup of a client's configuration changes, a rollback to the backup of a call restores what
the call replaced whenever it is made, and so does one to the last backup right after the call. -/
theorem backups_restore (H : Host) (T : Set ℤ) (hH : Rfc3339 H T) (client : ClientId) (ctx : EngineContext)
    (edits : List Edit) (t₀ t : Files) (hkept : Kept H T (homePath client ctx) t₀)
    (hall : Run.All (step H) (Orderly H T (homePath client ctx)) t₀ edits) (hrun : Run.run (step H) t₀ edits = some t) :
    (∀ before after s, edits = before ++ after → Run.run (step H) t₀ before = some s →
      ∀ q, Named (homePath client ctx) q → s.node q ≠ none → t.node q = s.node q) ∧
    ∀ before e after s s' plan bytes, edits = before ++ e :: after → Run.run (step H) t₀ before = some s →
      e.home = homePath client ctx → s.node e.path = some (.file bytes) → e.call H s = .ok plan s' →
      plan.writesPerformed = true →
      ∃ b, plan.rawBackupPath = some b ∧
        ((rollback H client ctx ⟨some b, true⟩).after t).node e.path = some (.file bytes) ∧
        ((rollback H client ctx ⟨some b, true⟩).after s').node e.path = some (.file bytes) ∧
        ((rollback H client ctx ⟨none, true⟩).after s').node e.path = some (.file bytes) := by
  obtain ⟨name, hname, dir, hhome⟩ := homePath_eq client ctx
  rw [hhome] at hkept hall ⊢
  -- what stays from a state of the run to its end
  have hlater : ∀ before after s, edits = before ++ after → Run.run (step H) t₀ before = some s →
      Kept H T (name :: dir) s ∧ Run.All (step H) (Orderly H T (name :: dir)) s after ∧ Stays H T (name :: dir) s t := by
    rintro before after s rfl hs
    have hbefore : Run.All (step H) (Orderly H T (name :: dir)) t₀ before :=
      fun l i u hl hu => hall l i u (hl.trans (List.prefix_append _ _)) hu
    have hk := (run_stays hH hname hkept hbefore hs).kept
    have hafter := Run.All.of_append hall hs
    rw [Run.run_append, hs, Option.bind_some] at hrun
    exact ⟨hk, hafter, run_stays hH hname hk hafter hrun⟩
  refine ⟨fun before after s h hs => (hlater before after s h hs).2.2.backups, ?_⟩
  intro before e after s s' plan bytes h hs he hfile hcall hwritten
  obtain ⟨hk, hafter, -⟩ := hlater before (e :: after) s h hs
  have hstep : step H s e = some s' := by rw [step, EStateM.after, hcall]
  have horderly := ((Run.all_cons hstep).1 hafter).1
  obtain ⟨-, -, hrep, -, -⟩ := e.call_ok hfile hcall hwritten
  have hpath : e.path = name :: dir := (horderly.own hrep).trans he
  obtain ⟨b, hb, hnamed, hstored, hlatest⟩ := replaced_backup hH hname hk horderly hpath hfile hcall hwritten
  have hs' : Run.run (step H) t₀ (before ++ [e]) = some s' := by rw [Run.run_snoc hs, hstep]
  have hstays := (hlater (before ++ [e]) after s' (by rw [h]; simp) hs').2.2
  have hne : b ≠ name :: dir := by
    rintro rfl
    exact horderly.unnamed _ (hpath ▸ List.suffix_rfl) hnamed
  obtain ⟨data, hdata⟩ : ∃ data, s'.node (name :: dir) = some (.file data) := by
    have hafter' : (e.call H).after s = s' := by rw [EStateM.after, hcall]
    exact hafter' ▸ call_staysFile hname dir ⟨bytes, hpath ▸ hfile⟩
  obtain ⟨data', hdata'⟩ := hstays.file ⟨data, hdata⟩
  rw [← hhome] at hdata hdata' hne hlatest
  have hsoon : ((rollback H client ctx ⟨some b, true⟩).after s').node e.path = some (.file bytes) := by
    rw [hpath, ← hhome]
    exact rollback_restores hstored hne hdata
  refine ⟨b, hb, ?_, hsoon, ?_⟩
  · rw [hpath, ← hhome]
    refine rollback_restores ?_ hne hdata'
    rw [hstays.backups b hnamed (by rw [hstored]; exact Option.some_ne_none _), hstored]
  · rw [EStateM.after, rollback_latest hlatest]
    exact hsoon

/-! ## Two configurations -/

/-- Cursor is connected while its configuration is an empty object. -/
def cursorEdit (configPathOverride : Option Path) : Edit :=
  ⟨.cursor, plainContext, plainHost.utcNow, false, { confirmed := true, configPathOverride := configPathOverride }⟩

def cursorPath : Path := ["mcp.json".toList, ".cursor".toList]

def workPath : Path := ["mcp.json".toList, "work".toList]

def emptyConfigs : Files :=
  EStateM.after (do
    FileTree.createDirAll [".cursor".toList]
    FileTree.write cursorPath [123, 125]
    FileTree.createDirAll ["work".toList]
    FileTree.write workPath [123, 125]) FileTree.empty

theorem plainHost_rfc3339 : Rfc3339 plainHost {plainHost.utcNow} where
  places := by
    rintro _ rfl _ rfl
    exact List.forall₂_same.2 fun _ _ _ => rfl
  order := by
    rintro _ rfl _ rfl h
    exact absurd h (lt_irrefl _)
  utc := by
    rintro _ rfl
    decide

theorem named_emptyConfigs {q : Path} (hq : Named (homePath .cursor plainContext) q) : emptyConfigs.node q = none := by
  have hkeys : ∀ q ∈ emptyConfigs.nodes.keys, fileName q = "mcp.json".toList ∨ (fileName q).length = 7 ∨ (fileName q).length = 4 := by
    decide
  obtain ⟨-, hprefix⟩ := hq
  have hhome : fileName (homePath .cursor plainContext) = "mcp.json".toList := rfl
  rw [hhome] at hprefix
  have hlen := hprefix.length_le
  cases q with
  | nil => exact absurd hlen (by decide)
  | cons n dir =>
    by_contra hne
    have hmem : n :: dir ∈ emptyConfigs.nodes.keys := by
      rw [OrdMap.mem_keys, OrdMap.has]
      exact Option.isSome_iff_ne_none.2 hne
    have hjson : ("mcp.json".toList ++ ".bak.".toList).length = 13 := by decide
    have hname : ("mcp.json".toList).length = 8 := by decide
    rcases hkeys _ hmem with h | h | h <;> simp only [h] at hlen <;> omega

theorem kept_emptyConfigs : Kept plainHost {plainHost.utcNow} (homePath .cursor plainContext) emptyConfigs where
  made _ hq hnode := absurd (named_emptyConfigs hq) hnode
  closed now _ i _ _ hnode := absurd (named_emptyConfigs (named_backup _ _ now i)) hnode

theorem orderly_cursorEdit :
    Orderly plainHost {plainHost.utcNow} (homePath .cursor plainContext) emptyConfigs (cursorEdit none) where
  unnamed q hq hnamed := by
    have hall : ∀ q ∈ (cursorEdit none).path.tails,
        ¬ fileName (homePath .cursor plainContext) ++ ".bak.".toList <+: fileName q := by decide
    exact hall q ((List.mem_tails _ _).2 hq) hnamed.2
  own _ := rfl
  timed _ _ := rfl
  last _ _ now hnow hlt := absurd (hnow ▸ hlt) (lt_irrefl _)
  tenth _ _ := by decide

theorem backups_restore_cursor :
    ∃ b, ((rollback plainHost .cursor plainContext ⟨some b, true⟩).after
        (((cursorEdit none).call plainHost).after emptyConfigs)).node cursorPath = some (.file [123, 125]) := by
  obtain ⟨plan, t, hcall, hwritten⟩ : ∃ plan t, (cursorEdit none).call plainHost emptyConfigs = .ok plan t ∧
      plan.writesPerformed = true := ⟨_, _, rfl, by decide⟩
  have hstep : step plainHost emptyConfigs (cursorEdit none) = some (((cursorEdit none).call plainHost).after emptyConfigs) := rfl
  have hall := (Run.all_cons hstep).2 ⟨orderly_cursorEdit, Run.All.nil _ _⟩
  have hrun : Run.run (step plainHost) emptyConfigs [cursorEdit none] =
      some (((cursorEdit none).call plainHost).after emptyConfigs) := rfl
  obtain ⟨b, -, hrestored, -⟩ := (backups_restore plainHost {plainHost.utcNow} plainHost_rfc3339 .cursor plainContext
    [cursorEdit none] emptyConfigs _ kept_emptyConfigs hall hrun).2 [] (cursorEdit none) [] emptyConfigs t plan [123, 125]
    rfl rfl rfl (by decide) hcall hwritten
  exact ⟨b, hrestored⟩

/-- A call that is directed elsewhere replaces a file that no rollback restores. -/
theorem override_not_restored :
    ∃ plan t, (cursorEdit (some workPath)).call plainHost emptyConfigs = .ok plan t ∧ plan.writesPerformed = true ∧
      emptyConfigs.node workPath = some (.file [123, 125]) ∧
      ((rollback plainHost .cursor plainContext ⟨plan.rawBackupPath, true⟩).after t).node workPath ≠ some (.file [123, 125]) := by
  refine ⟨_, _, rfl, by decide, by decide, by decide⟩

end EnigmaMemory.Connector
