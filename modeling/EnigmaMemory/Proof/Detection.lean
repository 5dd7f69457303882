import EnigmaMemory.Proof.Backups
import EnigmaMemory.Proof.JsonEqual
import EnigmaMemory.Proof.JsString

/-!
# Detection against planning

`detect` compares single fields of the entry in a configuration with what the engine expects,
the planner compares whole values. What both say about one configuration, and what `detect`
and `repair` make of the configuration that `connect` has written.
-/

namespace EnigmaMemory.Connector

open Json

variable {H : Host} {client : ClientId} {ctx : EngineContext}

/-! ## The entry of a configuration -/

/-- The entry of the server in a configuration. -/
def entryAt (config : Json) : Option Json := path (some config) ["mcpServers", "enigma"]

theorem entryAt_eq (config : Json) : entryAt config = (config.get (js "mcpServers")).bind (·.get (js "enigma")) := rfl

theorem get_isPlainRecord {j v : Json} {key : JsString} (h : j.get key = some v) : j.isPlainRecord = true := by
  cases j with
  | obj fs => rfl
  | _ => cases h

/-- The container of the servers. -/
theorem ensureContainer_servers {config : Json} (h : config.isPlainRecord = true) (create : Bool) :
    ensureContainer config (buildProfile client ctx).serverContainerPath create =
      ((config.get (js "mcpServers")).or (if create then some (.obj []) else none)).bind fun child =>
        if child.isPlainRecord then some (child, fun x => config.set (js "mcpServers") x) else none := by
  change ensureContainer config [js "mcpServers"] create = _
  rw [ensureContainer, if_neg (by simp [h])]
  cases (config.get (js "mcpServers")).or (if create then some (.obj []) else none) with
  | none => rfl
  | some child =>
    simp only [Option.bind_some]
    cases hc : child.isPlainRecord <;> simp [ensureContainer]

theorem applyServer_ok {config entry next : Json} (h : config.isPlainRecord = true)
    (hnext : applyServer config (buildProfile client ctx) (js "enigma") entry = .ok next) :
    ∃ child : Json, (config.get (js "mcpServers")).getD (.obj []) = child ∧ child.isPlainRecord = true ∧
      next = config.set (js "mcpServers") (child.set (js "enigma") entry) := by
  rw [applyServer, ensureContainer_servers h, if_pos rfl] at hnext
  cases hget : config.get (js "mcpServers") with
  | none =>
    rw [hget, Option.none_or, Option.bind_some, if_pos (by rfl)] at hnext
    cases hnext
    exact ⟨.obj [], rfl, rfl, rfl⟩
  | some child =>
    rw [hget, Option.some_or, Option.bind_some] at hnext
    cases hc : child.isPlainRecord with
    | false => rw [hc] at hnext; cases hnext
    | true =>
      rw [hc] at hnext
      cases hnext
      exact ⟨child, rfl, hc, rfl⟩

/-- A configuration with an entry takes another one in its place. -/
theorem applyServer_of_entry {config e : Json} (h : config.isPlainRecord = true) (he : entryAt config = some e) (entry : Json) :
    ∃ next, applyServer config (buildProfile client ctx) (js "enigma") entry = .ok next := by
  rw [entryAt_eq, Option.bind_eq_some_iff] at he
  obtain ⟨child, hchild, he⟩ := he
  rw [applyServer, ensureContainer_servers h, hchild, Option.some_or, Option.bind_some, if_pos (get_isPlainRecord he)]
  exact ⟨_, rfl⟩

theorem entryAt_set (config child entry : Json) :
    entryAt (config.set (js "mcpServers") (child.set (js "enigma") entry)) = some entry := by
  rw [entryAt_eq, get_set, if_pos rfl, Option.bind_some, get_set, if_pos rfl]

/-- **A plan changes nothing exactly when the entry is there as it would be written.** -/
theorem jsonEqual_next_iff {config entry next : Json} (h : config.isPlainRecord = true) (hu : config.UniqueKeys)
    (hentry : entry.UniqueKeys) (hnext : applyServer config (buildProfile client ctx) (js "enigma") entry = .ok next) :
    jsonEqual config next = true ↔ ∃ e, entryAt config = some e ∧ Same e entry := by
  obtain ⟨child, hchild, hrecord, rfl⟩ := applyServer_ok h hnext
  have hcu : child.UniqueKeys := by
    cases hget : config.get (js "mcpServers") with
    | none => rw [hget] at hchild; exact hchild ▸ uniqueKeys_empty
    | some c => rw [hget] at hchild; exact hchild ▸ hu.get hget
  have hinner : (child.set (js "enigma") entry).UniqueKeys := hcu.fields.set hentry
  rw [jsonEqual_iff_same hu (hu.fields.set hinner)]
  obtain ⟨fs, rfl⟩ : ∃ fs, config = .obj fs := by
    cases config with
    | obj fs => exact ⟨fs, rfl⟩
    | _ => cases h
  obtain ⟨gs, rfl⟩ : ∃ gs, child = .obj gs := by
    cases child with
    | obj gs => exact ⟨gs, rfl⟩
    | _ => cases hrecord
  rw [same_set_iff (uniqueKeys_obj_iff.1 hu).1, entryAt_eq]
  cases hget : (Json.obj fs).get (js "mcpServers") with
  | none => simp
  | some c =>
    rw [hget, Option.getD_some] at hchild
    obtain rfl := hchild
    simp only [Option.some.injEq, exists_eq_left', Option.bind_some]
    exact same_set_iff (uniqueKeys_obj_iff.1 hcu).1 _ _

/-! ## Entries that are written -/

/-- The command, the environment and the entry that a call writes. -/
def serverCommand (ctx : EngineContext) (opts : ConnectOptions) : JsString := opts.commandOverride.getD ctx.mcpCommand

/-- An environment with further vars. -/
def withVariables (env : Json) (vars : List (JsString × JsString)) : Json :=
  vars.foldl (fun (env : Json) e => env.set e.1 (.str e.2)) env

def serverEnv (H : Host) (ctx : EngineContext) (opts : ConnectOptions) : Json :=
  (withVariables (.obj []) opts.env).set (js "ENIGMA_BUNDLE") (.str (H.display ctx.bundlePath))

theorem buildServerEntry_eq (opts : ConnectOptions) : buildServerEntry H ctx opts =
    .obj [(js "command", .str (serverCommand ctx opts)), (js "args", .arr (opts.args.map .str)), (js "env", serverEnv H ctx opts)] :=
  rfl

theorem withVariables_unique (env : Json) (h : env.UniqueKeys) (vars : List (JsString × JsString)) :
    (withVariables env vars).UniqueKeys := by
  induction vars generalizing env with
  | nil => exact h
  | cons e vars ih => exact ih _ (h.fields.set (.str _))

theorem get_withVariables (env : Json) (vars : List (JsString × JsString)) (key : JsString) :
    ((withVariables env vars).get key).isSome = (decide (key ∈ vars.map Prod.fst) || (env.get key).isSome) := by
  induction vars generalizing env with
  | nil => simp [withVariables]
  | cons e vars ih =>
    have hstep : withVariables env (e :: vars) = withVariables (env.set e.1 (.str e.2)) vars := rfl
    rw [hstep, ih, get_set, List.map_cons]
    by_cases hk : key = e.1
    · simp [hk]
    · simp [hk, beq_eq_false_iff_ne.2 hk]

theorem serverEnv_unique (H : Host) (ctx : EngineContext) (opts : ConnectOptions) : (serverEnv H ctx opts).UniqueKeys :=
  (withVariables_unique _ uniqueKeys_empty _).fields.set (.str _)

theorem serverEntry_keys : [js "command", js "args", js "env"].Nodup := by decide

theorem serverEntry_unique (H : Host) (ctx : EngineContext) (opts : ConnectOptions) : (buildServerEntry H ctx opts).UniqueKeys := by
  rw [buildServerEntry_eq, uniqueKeys_obj_iff]
  refine ⟨serverEntry_keys, ?_⟩
  rintro f hf
  simp only [List.mem_cons, List.not_mem_nil, or_false] at hf
  rcases hf with rfl | rfl | rfl
  · exact .str _
  · refine .arr fun x hx => ?_
    obtain ⟨s, -, rfl⟩ := List.mem_map.1 hx
    exact .str s
  · exact serverEnv_unique H ctx opts

theorem get_serverEntry (opts : ConnectOptions) (key : JsString) : (buildServerEntry H ctx opts).get key =
    if key = js "command" then some (.str (serverCommand ctx opts))
    else if key = js "args" then some (.arr (opts.args.map .str))
    else if key = js "env" then some (serverEnv H ctx opts)
    else none := by
  rw [buildServerEntry_eq, get_obj_cons, get_obj_cons, get_obj_cons]
  rfl

theorem same_str_iff {j : Json} {s : JsString} : Same j (.str s) ↔ j = .str s := by
  cases j <;> simp [Same, Json.normalize]

theorem same_texts_iff {j : Json} {texts : List JsString} : Same j (.arr (texts.map .str)) ↔ j = .arr (texts.map .str) := by
  refine ⟨fun h => ?_, fun h => h ▸ rfl⟩
  have htexts : (texts.map Json.str).map Json.normalize = texts.map Json.str := by
    rw [List.map_map]
    rfl
  cases j with
  | arr xs =>
    rw [Same, Json.normalize, Json.normalize, normalizeItems_eq, normalizeItems_eq, htexts, arr.injEq] at h
    rw [arr.injEq]
    have hall : ∀ x ∈ xs, x.normalize = x := by
      intro x hx
      have hmem : x.normalize ∈ texts.map Json.str := h ▸ List.mem_map_of_mem hx
      obtain ⟨s, -, hs⟩ := List.mem_map.1 hmem
      have hsame : Same x (.str s) := hs.symm
      rw [same_str_iff.1 hsame]
      rfl
    rw [← h]
    exact (List.map_id' xs).symm.trans (List.map_congr_left fun x hx => (hall x hx).symm)
  | _ => simp [Same, Json.normalize] at h

/-- An entry is the one that is written, up to the order of keys. -/
theorem same_entry_iff {fs : List (JsString × Json)} (hu : (Json.obj fs).UniqueKeys) (opts : ConnectOptions) :
    Same (.obj fs) (buildServerEntry H ctx opts) ↔
      (∀ key ∈ (Json.obj fs).keys, key = js "command" ∨ key = js "args" ∨ key = js "env") ∧
        (Json.obj fs).get (js "command") = some (.str (serverCommand ctx opts)) ∧
        (Json.obj fs).get (js "args") = some (.arr (opts.args.map .str)) ∧
        ∃ env, (Json.obj fs).get (js "env") = some env ∧ Same env (serverEnv H ctx opts) := by
  have hmap : ∀ {o : Option Json} {x : Json}, o.map Json.normalize = some x.normalize ↔ ∃ v, o = some v ∧ Same v x :=
    Option.map_eq_some_iff
  have hentry := serverEntry_unique H ctx opts
  rw [buildServerEntry_eq] at hentry
  rw [buildServerEntry_eq, same_obj_iff (uniqueKeys_obj_iff.1 hu).1 (uniqueKeys_obj_iff.1 hentry).1, ← buildServerEntry_eq]
  constructor
  · intro h
    refine ⟨fun key hkey => ?_, ?_, ?_, ?_⟩
    · by_contra hne
      rw [not_or, not_or] at hne
      have hget := h key
      rw [get_serverEntry, if_neg hne.1, if_neg hne.2.1, if_neg hne.2.2, Option.map_none, Option.map_eq_none_iff] at hget
      rw [mem_keys_iff, hget] at hkey
      cases hkey
    · have hget := h (js "command")
      rw [get_serverEntry, if_pos rfl, Option.map_some] at hget
      obtain ⟨v, hv, hsame⟩ := hmap.1 hget
      rw [hv, same_str_iff.1 hsame]
    · have hget := h (js "args")
      rw [get_serverEntry, if_neg (by decide), if_pos rfl, Option.map_some] at hget
      obtain ⟨v, hv, hsame⟩ := hmap.1 hget
      rw [hv, same_texts_iff.1 hsame]
    · have hget := h (js "env")
      rw [get_serverEntry, if_neg (by decide), if_neg (by decide), if_pos rfl, Option.map_some] at hget
      exact hmap.1 hget
  · rintro ⟨hkeys, hcommand, hargs, env, henv, hsame⟩ key
    rw [get_serverEntry]
    split
    · rename_i hk
      rw [hk, hcommand]
    · split
      · rename_i hk
        rw [hk, hargs]
      · split
        · rename_i hk
          rw [hk, henv, Option.map_some, Option.map_some, hsame]
        · rename_i h1 h2 h3
          rw [Option.map_none, Option.map_eq_none_iff]
          by_contra hne
          rcases hkeys key (mem_keys_iff.2 (Option.isSome_iff_ne_none.2 hne)) with h | h | h
          · exact h1 h
          · exact h2 h
          · exact h3 h

/-! ## What is detected -/

theorem installedState_eq {config : Json} (h : config.isPlainRecord = true) (opts : ConnectOptions) :
    installedState H config (buildProfile client ctx) ctx opts =
      match entryAt config with
      | some (.obj fs) => entryState (.obj fs) (buildServerEntry H ctx opts)
      | _ => emptyInstalledState := by
  rw [installedState, ensureContainer_servers h, entryAt_eq]
  simp only [Bool.false_eq_true, if_false, Option.or_none]
  cases hget : config.get (js "mcpServers") with
  | none => rfl
  | some child =>
    rw [Option.bind_some, Option.bind_some]
    cases child with
    | obj fs => rfl
    | _ => rfl

/-- The entry has the fields that are expected and no others, its command is text and its arguments are a list. -/
def PlainEntry (entry : Json) : Prop :=
  (∀ key ∈ entry.keys, key = js "command" ∨ key = js "args" ∨ key = js "env") ∧
    (∃ s, entry.get (js "command") = some (.str s)) ∧ ∃ xs, entry.get (js "args") = some (.arr xs)

/-- What is compared of an entry. -/
theorem entryState_ok (e : Json) (opts : ConnectOptions) :
    recommendedAction (entryState e (buildServerEntry H ctx opts)) none = .alreadyConfigured ↔
      asStr (e.get (js "command")) = serverCommand ctx opts ∧ asStrings (e.get (js "args")) = opts.args ∧
        jsonEqual ((e.get (js "env")).getD (.obj [])) (serverEnv H ctx opts) = true := by
  have hcommand : (buildServerEntry H ctx opts).get (js "command") = some (.str (serverCommand ctx opts)) := by
    rw [get_serverEntry, if_pos rfl]
  have hargs : (buildServerEntry H ctx opts).get (js "args") = some (.arr (opts.args.map .str)) := by
    rw [get_serverEntry, if_neg (by decide), if_pos rfl]
  have henv : (buildServerEntry H ctx opts).get (js "env") = some (serverEnv H ctx opts) := by
    rw [get_serverEntry, if_neg (by decide), if_neg (by decide), if_pos rfl]
  have htexts : asStrings (some (.arr (opts.args.map .str))) = opts.args := by
    rw [asStrings, List.map_map]
    exact List.map_id _
  have hstr : asStr (some (.str (serverCommand ctx opts))) = serverCommand ctx opts := rfl
  rw [entryState, hcommand, hargs, henv, htexts, hstr, recommendedAction, if_neg (by simp), if_neg (by simp)]
  simp only [Option.getD_some]
  by_cases h : asStr (e.get (js "command")) = serverCommand ctx opts ∧ asStrings (e.get (js "args")) = opts.args ∧
      jsonEqual ((e.get (js "env")).getD (.obj [])) (serverEnv H ctx opts) = true
  · rw [if_pos (by simp [h])]
    exact iff_of_true rfl h
  · rw [if_neg (by simpa [and_assoc] using h)]
    exact iff_of_false nofun h

/-- What the default options expect. -/
theorem action_iff {config : Json} (h : config.isPlainRecord = true) :
    (detected H client ctx (.ok (some config))).action = .alreadyConfigured ↔
      ∃ fs, entryAt config = some (.obj fs) ∧
        recommendedAction (entryState (.obj fs) (buildServerEntry H ctx {})) none = .alreadyConfigured := by
  have haction : (detected H client ctx (.ok (some config))).action =
      recommendedAction (installedState H config (buildProfile client ctx) ctx {}) none := rfl
  rw [haction, installedState_eq h]
  split
  · rename_i fs hentry
    simp [hentry]
  · rename_i hno
    refine iff_of_false nofun ?_
    rintro ⟨fs, hentry, -⟩
    exact hno fs hentry

theorem not_same_empty_env (opts : ConnectOptions) : ¬ Same (.obj []) (serverEnv H ctx opts) := by
  intro h
  have hget := get_normalize (serverEnv H ctx opts) (js "ENIGMA_BUNDLE")
  rw [← h, serverEnv, get_set, if_pos rfl] at hget
  cases hget

/-- A plain entry that is read as the one that is expected is that one. -/
theorem plain_entry_iff {fs : List (JsString × Json)} (hu : (Json.obj fs).UniqueKeys) :
    recommendedAction (entryState (.obj fs) (buildServerEntry H ctx {})) none = .alreadyConfigured ∧ PlainEntry (.obj fs) ↔
      Same (.obj fs) (buildServerEntry H ctx {}) := by
  rw [entryState_ok, same_entry_iff hu]
  constructor
  · rintro ⟨⟨hcommand, hargs, henv⟩, hkeys, ⟨s, hs⟩, xs, hxs⟩
    rw [hs, asStr] at hcommand
    rw [hxs, asStrings, List.map_eq_nil_iff] at hargs
    refine ⟨hkeys, by rw [hs, hcommand], by rw [hxs, hargs]; rfl, ?_⟩
    cases hget : (Json.obj fs).get (js "env") with
    | none =>
      rw [hget, Option.getD_none, jsonEqual_iff_same uniqueKeys_empty (serverEnv_unique H ctx {})] at henv
      exact absurd henv (not_same_empty_env {})
    | some env =>
      rw [hget, Option.getD_some, jsonEqual_iff_same (hu.get hget) (serverEnv_unique H ctx {})] at henv
      exact ⟨env, rfl, henv⟩
  · rintro ⟨hkeys, hcommand, hargs, env, henv, hsame⟩
    refine ⟨⟨by rw [hcommand]; rfl, by rw [hargs]; rfl, ?_⟩, hkeys, ⟨_, hcommand⟩, _, hargs⟩
    rw [henv, Option.getD_some, jsonEqual_iff_same (hu.get henv) (serverEnv_unique H ctx {})]
    exact hsame

/-! ## What is planned -/

/-- A readable configuration has no key twice. -/
theorem configAt_ok {t : Files} {p : Path} {config : Json} (h : configAt H t p = .ok (some config)) :
    config.isPlainRecord = true ∧ config.UniqueKeys := by
  unfold configAt at h
  split at h
  · cases h
  · cases h
  · obtain ⟨c, hparse, hc⟩ := Except.map_eq_ok.1 h
    cases hc
    unfold parseConfig at hparse
    split at hparse
    · cases hparse
    · rename_i value _
      split at hparse
      · rename_i hrecord
        cases hparse
        exact ⟨hrecord, value.2⟩
      · cases hparse

/-- A plan that changes nothing. -/
theorem planTo_unchanged {opts : ConnectOptions} {allocateBackup : Bool} {actions : Action × Action}
    {next : Json → Except ConnectorError Json} {t : Files} {config nextConfig : Json}
    (h : configAt H t (resolveConfigPath (buildProfile client ctx) opts.configPathOverride) = .ok (some config))
    (hnext : next config = .ok nextConfig) (hequal : jsonEqual config nextConfig = true) :
    planTo H client ctx opts allocateBackup actions next t =
      .ok (planOf H client ctx opts actions (some config) nextConfig none) t := by
  have hread : readJsonConfig H (resolveConfigPath (buildProfile client ctx) opts.configPathOverride) t = .ok (some config) t := by
    rw [readJsonConfig_eq, h]
    rfl
  have hlift : liftExcept (next ((some config).getD (.obj []))) t = .ok nextConfig t := by
    rw [Option.getD_some, hnext]
    rfl
  rw [planTo, EStateM.bind_of_ok hread, EStateM.bind_of_ok hlift]
  simp only [Option.getD_some, hequal, Bool.not_true, Bool.and_false, Bool.false_and, allocatedBackup]
  rfl

theorem planOf_changed (opts : ConnectOptions) (actions : Action × Action) (existing : Option Json) (nextConfig : Json)
    (rawBackupPath : Option Path) : (planOf H client ctx opts actions existing nextConfig rawBackupPath).changed =
      !jsonEqual (existing.getD (.obj [])) nextConfig := rfl

/-- The plan for a configuration that can be read leaves it, or changes it or fails. -/
theorem planTo_config {opts : ConnectOptions} {allocateBackup : Bool} {actions : Action × Action}
    {next : Json → Except ConnectorError Json} {t : Files} {config : Json}
    (h : configAt H t (resolveConfigPath (buildProfile client ctx) opts.configPathOverride) = .ok (some config)) :
    (∃ plan t', planTo H client ctx opts allocateBackup actions next t = .ok plan t' ∧ plan.changed = false) ↔
      ∃ nextConfig, next config = .ok nextConfig ∧ jsonEqual config nextConfig = true := by
  constructor
  · rintro ⟨plan, t', hplan, hchanged⟩
    obtain ⟨-, existing, nextConfig, rawBackupPath, hconfig, hnext, -, rfl⟩ := planTo_ok hplan
    rw [h, Except.ok.injEq] at hconfig
    obtain rfl := hconfig
    rw [planOf_changed, Bool.not_eq_false'] at hchanged
    exact ⟨nextConfig, hnext, hchanged⟩
  · rintro ⟨nextConfig, hnext, hequal⟩
    refine ⟨_, t, planTo_unchanged h hnext hequal, ?_⟩
    rw [planOf_changed, Option.getD_some, hequal, Bool.not_true]

/-- A connection would change nothing exactly when the entry is there as it would be written. -/
theorem connectPlan_unchanged_iff {opts : ConnectOptions} {allocateBackup : Bool} {t : Files} {config : Json}
    (h : configAt H t (resolveConfigPath (buildProfile client ctx) opts.configPathOverride) = .ok (some config)) :
    (∃ plan t', buildConnectPlan H client ctx opts allocateBackup t = .ok plan t' ∧ plan.changed = false) ↔
      ∃ e, entryAt config = some e ∧ Same e (buildServerEntry H ctx opts) := by
  obtain ⟨hrecord, hu⟩ := configAt_ok h
  have hentry := serverEntry_unique H ctx opts
  rw [buildConnectPlan, planTo_config h]
  constructor
  · rintro ⟨nextConfig, hnext, hequal⟩
    exact (jsonEqual_next_iff hrecord hu hentry hnext).1 hequal
  · rintro ⟨e, he, hsame⟩
    obtain ⟨next, hnext⟩ : ∃ next, applyServer config (buildProfile client ctx) (js "enigma") (buildServerEntry H ctx opts) =
        .ok next := applyServer_of_entry hrecord he _
    exact ⟨next, hnext, (jsonEqual_next_iff hrecord hu hentry hnext).2 ⟨e, he, hsame⟩⟩

/-- An entry that is the same as an object is one. -/
theorem exists_of_same {e : Json} {opts : ConnectOptions} (h : Same e (buildServerEntry H ctx opts)) :
    ∃ fs, e = .obj fs := by
  rw [buildServerEntry_eq] at h
  cases e with
  | obj fs => exact ⟨fs, rfl⟩
  | _ => simp [Same, Json.normalize] at h

theorem entryAt_unique {config e : Json} (hu : config.UniqueKeys) (h : entryAt config = some e) : e.UniqueKeys := by
  rw [entryAt_eq, Option.bind_eq_some_iff] at h
  obtain ⟨child, hchild, he⟩ := h
  exact (hu.get hchild).get he

/-- **Detection and the preview agree on plain entries.** -/
theorem detected_iff_unchanged {t : Files} {config : Json}
    (h : configAt H t (resolveConfigPath (buildProfile client ctx) none) = .ok (some config)) :
    ((detected H client ctx (.ok (some config))).action = .alreadyConfigured ∧ ∃ e, entryAt config = some e ∧ PlainEntry e) ↔
      ∃ plan t', previewConnect H client ctx {} t = .ok plan t' ∧ plan.changed = false := by
  obtain ⟨hrecord, hu⟩ := configAt_ok h
  rw [previewConnect, connectPlan_unchanged_iff h, action_iff hrecord]
  constructor
  · rintro ⟨⟨fs, hfs, hok⟩, e, he, hplain⟩
    obtain rfl := Option.some.inj (hfs.symm.trans he)
    exact ⟨_, hfs, (plain_entry_iff (entryAt_unique hu hfs)).1 ⟨hok, hplain⟩⟩
  · rintro ⟨e, he, hsame⟩
    obtain ⟨fs, rfl⟩ := exists_of_same hsame
    obtain ⟨hok, hplain⟩ := (plain_entry_iff (entryAt_unique hu he)).2 hsame
    exact ⟨⟨fs, he, hok⟩, _, he, hplain⟩

/-! ## What is read back -/

mutual
/-- The value with other numbers. -/
def mapNumbers (f : ℚ → ℚ) : Json → Json
  | .num q => .num (f q)
  | .arr xs => .arr (mapNumbersItems f xs)
  | .obj fs => .obj (mapNumbersFields f fs)
  | j => j

def mapNumbersItems (f : ℚ → ℚ) : List Json → List Json
  | [] => []
  | x :: xs => mapNumbers f x :: mapNumbersItems f xs

def mapNumbersFields (f : ℚ → ℚ) : List (JsString × Json) → List (JsString × Json)
  | [] => []
  | (key, x) :: fs => (key, mapNumbers f x) :: mapNumbersFields f fs
end

/-- A configuration that is printed with a line end is read back up to the order of its keys,
its numbers perhaps rounded. -/
def Rereads (H : Host) (config : Json) : Prop :=
  ∃ w f, H.fromStr (H.toStringPretty config ++ [10]) = .ok w ∧ Same w.1 (mapNumbers f config)

theorem get_mapNumbers (f : ℚ → ℚ) (j : Json) (key : JsString) : (mapNumbers f j).get key = (j.get key).map (mapNumbers f) := by
  cases j with
  | obj fs =>
    rw [mapNumbers]
    induction fs with
    | nil => rfl
    | cons p fs ih =>
      obtain ⟨k, v⟩ := p
      rw [mapNumbersFields, get_obj_cons, get_obj_cons, ih]
      split <;> rfl
  | _ => rfl

theorem mapNumbers_str (f : ℚ → ℚ) (s : JsString) : mapNumbers f (.str s) = .str s := by
  rw [mapNumbers] <;> exact nofun

theorem mapNumbers_set (f : ℚ → ℚ) {env : Json} (h : mapNumbers f env = env) (key s : JsString) :
    mapNumbers f (env.set key (.str s)) = env.set key (.str s) := by
  have hfields : mapNumbersFields f env.fields = env.fields := by
    cases env with
    | obj fs => rw [mapNumbers, obj.injEq] at h; exact h
    | _ => rfl
  have hset : ∀ fs : List (JsString × Json), mapNumbersFields f fs = fs →
      mapNumbersFields f (setField key (.str s) fs) = setField key (.str s) fs := by
    intro fs
    induction fs with
    | nil => exact fun _ => rfl
    | cons p fs ih =>
      obtain ⟨k, v⟩ := p
      rw [mapNumbersFields, List.cons.injEq]
      rintro ⟨hv, hfs⟩
      rw [setField]
      split
      · rw [mapNumbersFields, hfs]
        rfl
      · rw [mapNumbersFields, hv, ih hfs]
  rw [Json.set, mapNumbers, hset _ hfields]

/-- An entry that is written has no numbers. -/
theorem mapNumbers_serverEntry (f : ℚ → ℚ) (opts : ConnectOptions) :
    mapNumbers f (buildServerEntry H ctx opts) = buildServerEntry H ctx opts := by
  have henv : ∀ (vars : List (JsString × JsString)) (env : Json), mapNumbers f env = env →
      mapNumbers f (withVariables env vars) = withVariables env vars := by
    intro vars
    induction vars with
    | nil => exact fun _ h => h
    | cons e vars ih => exact fun env h => ih _ (mapNumbers_set f h e.1 e.2)
  have hitems : ∀ texts : List JsString, mapNumbersItems f (texts.map .str) = texts.map .str := by
    intro texts
    induction texts with
    | nil => rfl
    | cons s texts ih => rw [List.map_cons, mapNumbersItems, ih]; rfl
  rw [buildServerEntry_eq, mapNumbers, mapNumbersFields, mapNumbersFields, mapNumbersFields, mapNumbersFields, mapNumbers_str,
    mapNumbers, hitems, serverEnv, mapNumbers_set f (henv opts.env (.obj []) rfl)]

theorem entryAt_same {v w : Json} (h : Same v w) : (entryAt v).map Json.normalize = (entryAt w).map Json.normalize := by
  rw [entryAt_eq, entryAt_eq, Option.map_bind, Option.map_bind]
  have hget : ∀ j : Json, (j.get (js "mcpServers")).bind (Option.map Json.normalize ∘ fun x => x.get (js "enigma")) =
      (j.normalize.get (js "mcpServers")).bind fun x => x.get (js "enigma") := by
    intro j
    rw [get_normalize, Option.bind_map]
    congr 1
    funext x
    exact (get_normalize x (js "enigma")).symm
  rw [hget, hget, h]

/-- **What has been written is read back with its entry.** -/
theorem Rereads.entry {next : Json} {opts : ConnectOptions} (h : Rereads H next) (hrecord : next.isPlainRecord = true)
    (hentry : entryAt next = some (buildServerEntry H ctx opts)) :
    ∃ config, parseConfig H (H.toStringPretty next ++ [10]) = .ok config ∧
      ∃ e, entryAt config = some e ∧ Same e (buildServerEntry H ctx opts) := by
  obtain ⟨w, f, hw, hsame⟩ := h
  have hplain : w.1.isPlainRecord = true := by
    cases next with
    | obj fs =>
      rw [mapNumbers] at hsame
      cases hval : w.1 with
      | obj gs => rfl
      | _ => rw [hval] at hsame; simp [Same, Json.normalize] at hsame
    | _ => cases hrecord
  refine ⟨w.1, by rw [parseConfig, hw]; exact if_pos hplain, ?_⟩
  have hmapped : entryAt (mapNumbers f next) = some (buildServerEntry H ctx opts) := by
    rw [entryAt_eq, get_mapNumbers]
    rw [entryAt_eq, Option.bind_eq_some_iff] at hentry
    obtain ⟨child, hchild, he⟩ := hentry
    rw [hchild, Option.map_some, Option.bind_some, get_mapNumbers, he, Option.map_some, mapNumbers_serverEntry]
  have hnorm := entryAt_same hsame
  rw [hmapped, Option.map_some] at hnorm
  exact Option.map_eq_some_iff.1 hnorm

/-! ## What a connection leaves -/

/-- The backup of a client's own configuration is another file, and none that waits. -/
theorem ownBackup_ne {t : Files} {b : Path} (h : unusedBackupPath H t (homePath client ctx) ctx = .ok b) :
    b ≠ tempPath H (homePath client ctx) ctx ∧ b ≠ homePath client ctx := by
  obtain ⟨name, hname, dir, hhome⟩ := homePath_eq client ctx
  rw [hhome] at h ⊢
  obtain ⟨i, rfl, -⟩ := unusedBackupPath_ok hname rfl h
  constructor
  · intro heq
    obtain ⟨mid, hmid⟩ := tempName_eq H (name :: dir) ctx
    have hnames := (List.cons.inj heq).1
    rw [hmid, backupName, fileName, List.append_assoc, List.append_assoc, List.append_assoc, List.append_cancel_left_eq] at hnames
    have hsecond := congrArg (fun l : List Char => l[1]?) hnames
    exact absurd hsecond (by simp)
  · intro heq
    have hlen := congrArg List.length (List.cons.inj heq).1
    simp only [backupName, List.length_append] at hlen
    have hpos : 0 < (".bak.".toList).length := by decide
    omega

/-- The configuration that a written plan leaves. -/
theorem writePlan_config {plan plan' : Plan} {opts : ConnectOptions} {t t' : Files}
    (hhome : resolveConfigPath (buildProfile client ctx) opts.configPathOverride = homePath client ctx)
    (hb : ∀ b ∈ plan.rawBackupPath, b ≠ tempPath H (homePath client ctx) ctx ∧ b ≠ homePath client ctx)
    (h : writePlan H plan client ctx opts t = .ok plan' t') :
    t'.node (homePath client ctx) = some (.file plan.generatedJson) ∧ plan'.config = plan.config := by
  rw [writePlan, hhome] at h
  obtain ⟨_, t₁, -, hwrite⟩ := EStateM.bind_eq_ok.1 h
  obtain ⟨_, t₂, hreplace, hreturn⟩ := EStateM.bind_eq_ok.1 hwrite
  obtain ⟨rfl, rfl⟩ := EStateM.pure_eq_ok.1 hreturn
  refine ⟨?_, rfl⟩
  have hremoved := io_ok hreplace
  rw [removedOnError] at hremoved
  split at hremoved
  · rename_i hx
    cases hremoved
    rw [replaceConfig_ok (tempPath_ne H (homePath client ctx) ctx) hb hx, if_neg (tempPath_ne H _ ctx).symm, if_pos rfl]
  · cases hremoved

/-- **After a connection the configuration has the entry that the options ask for.** -/
theorem connect_entry {opts : ConnectOptions} {plan : Plan} {t t' : Files} (hdry : opts.dryRun = false)
    (hpath : opts.configPathOverride = none) (h : connect H client ctx opts t = .ok plan t') (hread : Rereads H plan.config) :
    ∃ config, configAt H t' (homePath client ctx) = .ok (some config) ∧
      ∃ e, entryAt config = some e ∧ Same e (buildServerEntry H ctx opts) := by
  have hhome : resolveConfigPath (buildProfile client ctx) opts.configPathOverride = homePath client ctx := by
    rw [hpath]
    rfl
  obtain ⟨plan₀, t₁, hplan, hcarry⟩ := EStateM.bind_eq_ok.1 h
  rw [buildConnectPlan] at hplan
  obtain ⟨rfl, existing, next, rawBackupPath, hconfig, hnext, hbackup, rfl⟩ := planTo_ok hplan
  rw [hhome] at hconfig hbackup
  have hentry := serverEntry_unique H ctx opts
  have hrecord : (existing.getD (.obj [])).isPlainRecord = true ∧ (existing.getD (.obj [])).UniqueKeys := by
    cases existing with
    | none => exact ⟨rfl, uniqueKeys_empty⟩
    | some config => exact configAt_ok hconfig
  rw [carryOut] at hcarry
  split at hcarry
  · -- nothing to change: the entry was there
    rename_i hnot
    obtain ⟨-, rfl⟩ := EStateM.pure_eq_ok.1 hcarry
    have hequal : jsonEqual (existing.getD (.obj [])) next = true := by
      rw [planOf_changed] at hnot
      simpa [planOf, hdry] using hnot
    obtain ⟨e, he, hsame⟩ := (jsonEqual_next_iff hrecord.1 hrecord.2 hentry hnext).1 hequal
    cases existing with
    | none => cases he
    | some config => exact ⟨config, hconfig, e, he, hsame⟩
  · split at hcarry
    · cases hcarry
    · obtain ⟨child, -, -, rfl⟩ := applyServer_ok hrecord.1 hnext
      have hb : ∀ b ∈ rawBackupPath, b ≠ tempPath H (homePath client ctx) ctx ∧ b ≠ homePath client ctx := by
        rintro b rfl
        rw [allocatedBackup] at hbackup
        split at hbackup
        · obtain ⟨c, hc, hcb⟩ := Except.map_eq_ok.1 hbackup
          cases hcb
          exact ownBackup_ne hc
        · cases hbackup
      obtain ⟨hfile, hsameconfig⟩ := writePlan_config hhome hb hcarry
      rw [hsameconfig] at hread
      obtain ⟨config, hparse, hfound⟩ := hread.entry rfl (entryAt_set _ child _)
      refine ⟨config, ?_, hfound⟩
      rw [configAt, hfile]
      exact congrArg (Except.map some) hparse

/-- The options ask for what the default options ask for. -/
def AsDefault (ctx : EngineContext) (opts : ConnectOptions) : Prop :=
  opts.args = [] ∧ serverCommand ctx opts = ctx.mcpCommand ∧ ∀ v ∈ opts.env, v.1 = js "ENIGMA_BUNDLE"

theorem same_serverEnv_iff (opts : ConnectOptions) :
    Same (serverEnv H ctx opts) (serverEnv H ctx {}) ↔ ∀ v ∈ opts.env, v.1 = js "ENIGMA_BUNDLE" := by
  have hu := serverEnv_unique H ctx opts
  have hu' := serverEnv_unique H ctx {}
  have hget : ∀ opts : ConnectOptions, ∀ key, (serverEnv H ctx opts).get key =
      if key = js "ENIGMA_BUNDLE" then some (.str (H.display ctx.bundlePath)) else (withVariables (.obj []) opts.env).get key :=
    fun opts key => get_set _ _ _ _
  rw [serverEnv, serverEnv, Json.set, Json.set, same_obj_iff (uniqueKeys_obj_iff.1 hu).1 (uniqueKeys_obj_iff.1 hu').1]
  refine (forall_congr' fun key => ?_ : _ ↔ ∀ key, key ≠ js "ENIGMA_BUNDLE" → key ∉ opts.env.map Prod.fst).trans ?_
  · change ((serverEnv H ctx opts).get key).map Json.normalize = ((serverEnv H ctx {}).get key).map Json.normalize ↔ _
    rw [hget, hget]
    by_cases hk : key = js "ENIGMA_BUNDLE"
    · simp [hk]
    · have hsome := get_withVariables (.obj []) opts.env key
      rw [if_neg hk, if_neg hk]
      change _ = none ↔ _
      rw [Option.map_eq_none_iff, ← Option.isNone_iff_eq_none, ← Option.isSome_eq_false_iff, hsome]
      simp [hk]
  · constructor
    · intro h v hv
      by_contra hne
      exact h v.1 hne (List.mem_map_of_mem hv)
    · intro h key hne hmem
      obtain ⟨v, hv, rfl⟩ := List.mem_map.1 hmem
      exact hne (h v hv)

theorem recommendedAction_installed {state : InstalledState} (h : state.installed = true)
    (hne : recommendedAction state none ≠ .alreadyConfigured) : recommendedAction state none = .repair := by
  rw [recommendedAction, if_neg (by simp), if_neg (by simp [h])] at hne ⊢
  split at hne
  · exact absurd rfl hne
  · rw [if_neg ‹_›]

/-- What is detected of an entry that was written with other options. -/
theorem action_of_entry {config e : Json} {opts : ConnectOptions} (hrecord : config.isPlainRecord = true)
    (hu : config.UniqueKeys) (he : entryAt config = some e) (hsame : Same e (buildServerEntry H ctx opts)) :
    (AsDefault ctx opts → (detected H client ctx (.ok (some config))).action = .alreadyConfigured) ∧
      (¬ AsDefault ctx opts → (detected H client ctx (.ok (some config))).action = .repair) := by
  obtain ⟨fs, rfl⟩ := exists_of_same hsame
  have heu := entryAt_unique hu he
  obtain ⟨-, hcommand, hargs, env, henv, henvsame⟩ := (same_entry_iff heu opts).1 hsame
  have htexts : asStrings (some (.arr (opts.args.map .str))) = opts.args := by
    rw [asStrings, List.map_map]
    exact List.map_id _
  have hiff : (detected H client ctx (.ok (some config))).action = .alreadyConfigured ↔ AsDefault ctx opts := by
    rw [action_iff hrecord, AsDefault, and_left_comm, ← same_serverEnv_iff (H := H)]
    have hdefault : recommendedAction (entryState (.obj fs) (buildServerEntry H ctx {})) none = .alreadyConfigured ↔
        serverCommand ctx opts = ctx.mcpCommand ∧ opts.args = [] ∧ Same (serverEnv H ctx opts) (serverEnv H ctx {}) := by
      rw [entryState_ok, hcommand, hargs, htexts, henv, Option.getD_some,
        jsonEqual_iff_same (heu.get henv) (serverEnv_unique H ctx {}), Same, henvsame]
      rfl
    rw [← hdefault]
    constructor
    · rintro ⟨gs, hgs, hok⟩
      obtain rfl := Json.obj.inj (Option.some.inj (he.symm.trans hgs))
      exact hok
    · exact fun hok => ⟨fs, he, hok⟩
  refine ⟨hiff.2, fun hno => ?_⟩
  have haction : (detected H client ctx (.ok (some config))).action =
      recommendedAction (installedState H config (buildProfile client ctx) ctx {}) none := rfl
  have hne := mt hiff.1 hno
  rw [haction, installedState_eq hrecord, he] at hne ⊢
  exact recommendedAction_installed rfl hne

/-- A repair with the options that were connected changes nothing. -/
theorem repair_unchanged {config e : Json} {opts : ConnectOptions} {t : Files} (hpath : opts.configPathOverride = none)
    (hconfig : configAt H t (homePath client ctx) = .ok (some config)) (he : entryAt config = some e)
    (hsame : Same e (buildServerEntry H ctx opts)) : (repair H client ctx opts).after t = t := by
  have hhome : resolveConfigPath (buildProfile client ctx) opts.configPathOverride = homePath client ctx := by
    rw [hpath]
    rfl
  obtain ⟨hrecord, hu⟩ := configAt_ok hconfig
  have hentry := serverEntry_unique H ctx opts
  rw [EStateM.after, repair, EStateM.bind_of_ok (detect_eq t), ← homePath, hconfig, if_neg (by exact Bool.false_ne_true)]
  split_ifs
  · rw [EStateM.bind_of_ok (test_eq t)]
    rfl
  · -- the connection finds its entry
    obtain ⟨next, hnext⟩ : ∃ next, applyServer config (buildProfile client ctx) (js "enigma") (buildServerEntry H ctx opts) =
        .ok next := applyServer_of_entry hrecord he _
    have hequal := (jsonEqual_next_iff hrecord hu hentry hnext).2 ⟨e, he, hsame⟩
    have hplan : buildConnectPlan H client ctx opts true t =
        .ok (planOf H client ctx opts (.connect, .alreadyConfigured) (some config) next none) t := by
      rw [buildConnectPlan]
      exact planTo_unchanged (by rw [hhome]; exact hconfig) hnext hequal
    have hconnect : connect H client ctx opts t =
        .ok (planOf H client ctx opts (.connect, .alreadyConfigured) (some config) next none) t := by
      rw [connect, EStateM.bind_of_ok hplan, carryOut, if_pos]
      · rfl
      · rw [planOf_changed, Option.getD_some, hequal]
        simp
    rw [EStateM.bind_of_ok hconnect]
    rfl

/-- **Detection agrees with planning**, for entries that are plain and options that are the
default ones; a repair after a connection changes nothing whatever the options are. -/
theorem detection_agrees (H : Host) (client : ClientId) (ctx : EngineContext) :
    (∀ t config, configAt H t (homePath client ctx) = .ok (some config) → ∃ detection,
      detect H client ctx t = .ok detection t ∧
        (detection.action = .alreadyConfigured ∧ (∃ e, entryAt config = some e ∧ PlainEntry e) ↔
          ∃ plan t', previewConnect H client ctx {} t = .ok plan t' ∧ plan.changed = false)) ∧
    ∀ opts t plan t', opts.dryRun = false → opts.configPathOverride = none → connect H client ctx opts t = .ok plan t' →
      Rereads H plan.config → ∃ detection, detect H client ctx t' = .ok detection t' ∧
        (AsDefault ctx opts → detection.action = .alreadyConfigured) ∧
        (¬ AsDefault ctx opts → detection.action = .repair) ∧
        (repair H client ctx opts).after t' = t' := by
  constructor
  · intro t config hconfig
    refine ⟨_, detect_eq t, ?_⟩
    rw [← homePath, hconfig]
    exact detected_iff_unchanged hconfig
  · intro opts t plan t' hdry hpath hconnect hread
    obtain ⟨config, hconfig, e, he, hsame⟩ := connect_entry hdry hpath hconnect hread
    obtain ⟨hrecord, hu⟩ := configAt_ok hconfig
    obtain ⟨hdefault, hother⟩ : (AsDefault ctx opts → (detected H client ctx (.ok (some config))).action = .alreadyConfigured) ∧
        (¬ AsDefault ctx opts → (detected H client ctx (.ok (some config))).action = .repair) :=
      action_of_entry hrecord hu he hsame
    refine ⟨_, detect_eq t', ?_⟩
    rw [← homePath, hconfig]
    exact ⟨hdefault, hother, repair_unchanged hpath hconfig he hsame⟩

/-! ## Two texts -/

def asciiBytes (text : String) : List UInt8 := text.toList.map fun c => c.toNat.toUInt8

/-- A machine on which one more text parses, with or without a line end, and is printed. -/
def textHost (text : String) (config : { v : Json // v.UniqueKeys }) : Host :=
  { plainHost with
    fromStr := fun bytes =>
      if bytes = asciiBytes text ∨ bytes = asciiBytes text ++ [10] then .ok config else plainHost.fromStr bytes
    toStringPretty := fun _ => asciiBytes text }

theorem textHost_fromStr (text : String) (config : { v : Json // v.UniqueKeys }) :
    (textHost text config).fromStr (asciiBytes text) = .ok config ∧
      (textHost text config).fromStr (asciiBytes text ++ [10]) = .ok config := by
  simp [textHost]

def bundleEnv : Json := .obj [(js "ENIGMA_BUNDLE", .str (js "/bundle.json"))]

def serversOf (entry : List (JsString × Json)) : Json := .obj [(js "mcpServers", .obj [(js "enigma", .obj entry)])]

theorem serversOf_unique {entry : List (JsString × Json)} (h : (Json.obj entry).UniqueKeys) : (serversOf entry).UniqueKeys := by
  refine .obj (List.nodup_singleton _) fun f hf => ?_
  obtain rfl := List.mem_singleton.1 hf
  refine .obj (List.nodup_singleton _) fun f hf => ?_
  obtain rfl := List.mem_singleton.1 hf
  exact h

theorem bundleEnv_unique : bundleEnv.UniqueKeys := by
  refine .obj (List.nodup_singleton _) fun f hf => ?_
  obtain rfl := List.mem_singleton.1 hf
  exact .str _

/-- An entry as `connect` writes it. -/
def connectedEntry : List (JsString × Json) :=
  [(js "command", .str (js "enigma-mcp")), (js "args", .arr []), (js "env", bundleEnv)]

/-- An entry without a list of arguments. -/
def bareEntry : List (JsString × Json) := [(js "command", .str (js "enigma-mcp")), (js "env", bundleEnv)]

theorem connectedEntry_unique : (Json.obj connectedEntry).UniqueKeys := by
  refine .obj (by decide) fun f hf => ?_
  simp only [connectedEntry, List.mem_cons, List.not_mem_nil, or_false] at hf
  rcases hf with rfl | rfl | rfl
  · exact .str _
  · exact .arr fun _ h => nomatch h
  · exact bundleEnv_unique

theorem bareEntry_unique : (Json.obj bareEntry).UniqueKeys := by
  refine .obj (by decide) fun f hf => ?_
  simp only [bareEntry, List.mem_cons, List.not_mem_nil, or_false] at hf
  rcases hf with rfl | rfl
  · exact .str _
  · exact bundleEnv_unique

def connectedHost : Host :=
  textHost "\x7b\n  \"mcpServers\": \x7b\n    \"enigma\": \x7b\n      \"args\": [],\n      \"command\": \"enigma-mcp\",\n      \"env\": \x7b\n        \"ENIGMA_BUNDLE\": \"/bundle.json\"\n      \x7d\n    \x7d\n  \x7d\n\x7d"
    ⟨serversOf connectedEntry, serversOf_unique connectedEntry_unique⟩

def bareText : String :=
  "\x7b\"mcpServers\":\x7b\"enigma\":\x7b\"command\":\"enigma-mcp\",\"env\":\x7b\"ENIGMA_BUNDLE\":\"/bundle.json\"\x7d\x7d\x7d\x7d"

def bareHost : Host := textHost bareText ⟨serversOf bareEntry, serversOf_unique bareEntry_unique⟩

def bareFiles : Files :=
  EStateM.after (do
    FileTree.createDirAll [".cursor".toList]
    FileTree.write cursorPath (asciiBytes bareText)) FileTree.empty

set_option maxRecDepth 4000 in
/-- The empty configuration is connected; the detection finds the entry and the repair nothing to do. -/
theorem detection_agrees_cursor :
    ∃ plan t', connect connectedHost .cursor plainContext { confirmed := true } emptyConfigs = .ok plan t' ∧
      (∃ detection, detect connectedHost .cursor plainContext t' = .ok detection t' ∧ detection.action = .alreadyConfigured) ∧
      (repair connectedHost .cursor plainContext { confirmed := true }).after t' = t' ∧
      ∃ detection, detect connectedHost .cursor plainContext emptyConfigs = .ok detection emptyConfigs ∧
        (detection.action = .alreadyConfigured ∧ (∃ e, entryAt (.obj []) = some e ∧ PlainEntry e) ↔
          ∃ plan t', previewConnect connectedHost .cursor plainContext {} emptyConfigs = .ok plan t' ∧ plan.changed = false) := by
  obtain ⟨hpreview, hconnected⟩ := detection_agrees connectedHost .cursor plainContext
  obtain ⟨plan, t', hconnect, hconfig⟩ : ∃ plan t',
      connect connectedHost .cursor plainContext { confirmed := true } emptyConfigs = .ok plan t' ∧
        plan.config = serversOf connectedEntry := ⟨_, _, rfl, rfl⟩
  have hread : Rereads connectedHost plan.config := by
    refine ⟨⟨serversOf connectedEntry, serversOf_unique connectedEntry_unique⟩, id, ?_, ?_⟩
    · exact (textHost_fromStr _ _).2
    · rw [hconfig]
      rfl
  obtain ⟨detection, hdetect, hdefault, -, hrepair⟩ := hconnected { confirmed := true } emptyConfigs plan t' rfl rfl hconnect hread
  exact ⟨plan, t', hconnect, ⟨detection, hdetect, hdefault ⟨rfl, rfl, by simp⟩⟩, hrepair, hpreview emptyConfigs (.obj []) rfl⟩

theorem configAt_bareFiles :
    configAt bareHost bareFiles (homePath .cursor plainContext) = .ok (some (serversOf bareEntry)) := by
  have hnode : bareFiles.node (homePath .cursor plainContext) = some (.file (asciiBytes bareText)) := rfl
  have hparse : bareHost.fromStr (asciiBytes bareText) = .ok ⟨serversOf bareEntry, serversOf_unique bareEntry_unique⟩ :=
    (textHost_fromStr _ _).1
  rw [configAt, hnode]
  simp only [parseConfig, hparse]
  rfl

/-- An entry without arguments is detected as configured, and the preview would still change it. -/
theorem bare_entry_disagrees :
    ∃ detection plan t', detect bareHost .cursor plainContext bareFiles = .ok detection bareFiles ∧
      detection.action = .alreadyConfigured ∧
      previewConnect bareHost .cursor plainContext {} bareFiles = .ok plan t' ∧ plan.changed = true := by
  have hread : readJsonConfig bareHost (resolveConfigPath (buildProfile .cursor plainContext) none) bareFiles =
      .ok (some (serversOf bareEntry)) bareFiles := by
    rw [readJsonConfig_eq, ← homePath, configAt_bareFiles]
    rfl
  have hplan : previewConnect bareHost .cursor plainContext {} bareFiles =
      .ok (planOf bareHost .cursor plainContext {} (.connect, .alreadyConfigured) (some (serversOf bareEntry))
        (serversOf connectedEntry) none) bareFiles := by
    rw [previewConnect, buildConnectPlan, planTo, EStateM.bind_of_ok hread]
    rfl
  have hdetect : detect bareHost .cursor plainContext bareFiles =
      .ok (detected bareHost .cursor plainContext (.ok (some (serversOf bareEntry)))) bareFiles := by
    rw [detect_eq, ← homePath, configAt_bareFiles]
  exact ⟨_, _, bareFiles, hdetect, by decide, hplan, by decide⟩

end EnigmaMemory.Connector
