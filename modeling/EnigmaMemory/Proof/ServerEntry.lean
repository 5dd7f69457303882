import EnigmaMemory.Proof.Detection
import EnigmaMemory.Proof.Filed
import EnigmaMemory.Spec.Connector

/-!
# The entry of the server

What connecting and disconnecting leave of a configuration beside the entry of the server, in the engine of the desktop app
and on the command line (`server_entry_only`).
-/

namespace EnigmaMemory

open Json

/-! ## Paths into values -/

/-- A step into a value: to a key of an object or to a place of an array. -/
inductive Segment where
  | key (k : JsString)
  | index (i : ℕ)

def Segment.child : Segment → Json → Option Json
  | .key k, j => j.get k
  | .index i, .arr xs => xs[i]?
  | .index _, _ => none

/-- The value at a path. -/
def valueAt : Json → List Segment → Option Json
  | j, [] => some j
  | j, s :: p => (s.child j).bind fun child => valueAt child p

theorem valueAt_index {j : Json} (h : j.isPlainRecord = true) (i : ℕ) (p : List Segment) : valueAt j (.index i :: p) = none := by
  cases j with
  | obj fs => rfl
  | _ => cases h

theorem valueAt_key (j : Json) (key : JsString) (p : List Segment) :
    valueAt j (.key key :: p) = (j.get key).bind fun child => valueAt child p := rfl

/-! ## Writing fields again -/

theorem set_self {j x : Json} {key : JsString} (h : j.get key = some x) : j.set key x = j := by
  cases j with
  | obj fs => exact set_eq_self h
  | _ => cases h

theorem setField_twice (key : JsString) (x y : Json) (fs : List (JsString × Json)) :
    setField key y (setField key x fs) = setField key y fs := by
  induction fs with
  | nil => simp [setField]
  | cons f fs ih =>
    by_cases h : f.1 = key
    · simp [setField, h]
    · simp [setField, h, ih]

theorem set_twice (j : Json) (key : JsString) (x y : Json) : (j.set key x).set key y = j.set key y :=
  congrArg Json.obj (setField_twice key x y j.fields)

/-- What is taken out does not matter. -/
theorem without_of_set (j : Json) (key : JsString) (x : Json) : (j.set key x).without key = j.without key := by
  have hfields : ∀ fs : List (JsString × Json), (setField key x fs).filter (·.1 ≠ key) = fs.filter (·.1 ≠ key) := by
    intro fs
    induction fs with
    | nil => simp [setField]
    | cons f fs ih =>
      by_cases h : f.1 = key
      · simp [setField, h]
      · rw [setField, if_neg h, List.filter_cons_of_pos (by simpa using h), List.filter_cons_of_pos (by simpa using h), ih]
  exact congrArg Json.obj (hfields j.fields)

namespace Connector

variable {H : Host} {client : ClientId} {ctx : EngineContext}

/-! ## Beside the entry -/

/-- Where the entry of the server stands. -/
def serverPath : List Segment := [.key (js "mcpServers"), .key (js "enigma")]

/-- The values off the entry of the server are the same, and the objects around it stay objects. -/
structure SameBeside (c d : Json) : Prop where
  beside : ∀ p, ¬ p <+: serverPath → ¬ serverPath <+: p → valueAt d p = valueAt c p
  around : ∀ p, p <+: serverPath → p ≠ serverPath → valueAt d p = valueAt c p ∨
    ∃ fs gs, valueAt c p = some (.obj fs) ∧ valueAt d p = some (.obj gs)

/-- The configuration with a container for servers. -/
def withServers (c : Json) : Json := if (c.get (js "mcpServers")).isSome then c else c.set (js "mcpServers") (.obj [])

theorem exists_fields {j : Json} (h : j.isPlainRecord = true) : ∃ fs, j = .obj fs := by
  cases j with
  | obj fs => exact ⟨fs, rfl⟩
  | _ => cases h

theorem valueAt_serverPath (c : Json) : valueAt c serverPath = entryAt c := by
  have hentry : ∀ child : Json, valueAt child [.key (js "enigma")] = child.get (js "enigma") := fun child =>
    Option.bind_fun_some (child.get (js "enigma"))
  rw [serverPath, valueAt_key, entryAt_eq]
  simp only [hentry]

theorem SameBeside.refl (c : Json) : SameBeside c c := ⟨fun _ _ _ => rfl, fun _ _ _ => .inl rfl⟩

/-- Another container that differs from the old one in the entry alone. -/
theorem sameBeside_set {c child child' : Json} (hc : c.isPlainRecord = true) (hget : c.get (js "mcpServers") = some child)
    (hchild : child.isPlainRecord = true) (hchild' : child'.isPlainRecord = true)
    (hsame : ∀ key, key ≠ js "enigma" → child'.get key = child.get key) : SameBeside c (c.set (js "mcpServers") child') := by
  obtain ⟨fs, rfl⟩ := exists_fields hc
  obtain ⟨gs, rfl⟩ := exists_fields hchild
  obtain ⟨gs', rfl⟩ := exists_fields hchild'
  have hnew : ((Json.obj fs).set (js "mcpServers") (.obj gs')).get (js "mcpServers") = some (.obj gs') := by
    rw [get_set, if_pos rfl]
  refine ⟨fun p habove hbelow => ?_, fun p habove hne => ?_⟩
  · cases p with
    | nil => exact absurd List.nil_prefix habove
    | cons s p =>
      cases s with
      | index i => rw [valueAt_index rfl, valueAt_index rfl]
      | key key =>
        rw [valueAt_key, valueAt_key]
        by_cases hkey : key = js "mcpServers"
        · subst hkey
          rw [hnew, hget, Option.bind_some, Option.bind_some]
          cases p with
          | nil => exact absurd ⟨_, rfl⟩ habove
          | cons s p =>
            cases s with
            | index i => rw [valueAt_index rfl, valueAt_index rfl]
            | key key =>
              have hname : key ≠ js "enigma" := by
                rintro rfl
                exact hbelow ⟨p, rfl⟩
              rw [valueAt_key, valueAt_key, hsame key hname]
        · rw [get_set, if_neg hkey]
  · obtain ⟨q, hq⟩ := habove
    rcases p with _ | ⟨s, _ | ⟨s', p⟩⟩
    · exact .inr ⟨fs, _, rfl, rfl⟩
    · obtain rfl : s = .key (js "mcpServers") := (List.cons.inj hq).1
      refine .inr ⟨gs, gs', ?_, ?_⟩
      · rw [valueAt_key, hget]
        rfl
      · rw [valueAt_key, hnew]
        rfl
    · obtain ⟨-, htail⟩ := List.cons.inj hq
      obtain ⟨rfl, hrest⟩ := List.cons.inj htail
      obtain rfl : p = [] := (List.append_eq_nil_iff.1 hrest).1
      obtain rfl := (List.cons.inj hq).1
      exact absurd rfl hne

theorem withServers_get (c : Json) : (withServers c).get (js "mcpServers") = some ((c.get (js "mcpServers")).getD (.obj [])) := by
  rw [withServers]
  cases hget : c.get (js "mcpServers") with
  | none =>
    rw [if_neg (by simp), get_set, if_pos rfl]
    rfl
  | some child =>
    simp [hget]

theorem withServers_record {c : Json} (h : c.isPlainRecord = true) : (withServers c).isPlainRecord = true := by
  rw [withServers]
  split
  · exact h
  · rfl

theorem set_withServers (c x : Json) : (withServers c).set (js "mcpServers") x = c.set (js "mcpServers") x := by
  rw [withServers]
  split
  · rfl
  · exact set_twice c _ _ _

/-! ## Connecting -/

theorem removeServer_eq {c : Json} (h : c.isPlainRecord = true) : removeServer c (buildProfile client ctx) (js "enigma") =
    match c.get (js "mcpServers") with
    | some (.obj fs) => c.set (js "mcpServers") ((Json.obj fs).without (js "enigma"))
    | _ => c := by
  rw [removeServer, ensureContainer_servers h]
  cases c.get (js "mcpServers") with
  | none => rfl
  | some child => cases child <;> rfl

theorem applyServer_beside {c d entry : Json} (h : c.isPlainRecord = true)
    (hd : applyServer c (buildProfile client ctx) (js "enigma") entry = .ok d) :
    SameBeside (withServers c) d ∧ valueAt d serverPath = some entry := by
  obtain ⟨child, hchild, hrecord, rfl⟩ := applyServer_ok h hd
  refine ⟨?_, (valueAt_serverPath _).trans (entryAt_set c child entry)⟩
  rw [← set_withServers]
  refine sameBeside_set (withServers_record h) ((withServers_get c).trans (congrArg some hchild)) hrecord rfl fun key hkey => ?_
  rw [get_set, if_neg hkey]

/-- Connecting again changes nothing. -/
theorem applyServer_again {c d entry : Json} (h : c.isPlainRecord = true)
    (hd : applyServer c (buildProfile client ctx) (js "enigma") entry = .ok d) :
    applyServer d (buildProfile client ctx) (js "enigma") entry = .ok d := by
  obtain ⟨child, hchild, hrecord, rfl⟩ := applyServer_ok h hd
  have hget : (c.set (js "mcpServers") (child.set (js "enigma") entry)).get (js "mcpServers") = some (child.set (js "enigma") entry) := by
    rw [get_set, if_pos rfl]
  have hset : ∀ x : Json, (child.set (js "enigma") x).isPlainRecord = true := fun _ => rfl
  rw [applyServer, ensureContainer_servers rfl, hget, Option.some_or, Option.bind_some, if_pos (hset entry)]
  simp only [set_twice]

/-- Disconnecting after connecting. -/
theorem removeServer_applied {c d entry : Json} (h : c.isPlainRecord = true)
    (hd : applyServer c (buildProfile client ctx) (js "enigma") entry = .ok d) :
    removeServer d (buildProfile client ctx) (js "enigma") =
      withServers (removeServer c (buildProfile client ctx) (js "enigma")) := by
  obtain ⟨child, hchild, hrecord, rfl⟩ := applyServer_ok h hd
  have hget : (c.set (js "mcpServers") (child.set (js "enigma") entry)).get (js "mcpServers") = some (child.set (js "enigma") entry) := by
    rw [get_set, if_pos rfl]
  have hleft : removeServer (c.set (js "mcpServers") (child.set (js "enigma") entry)) (buildProfile client ctx) (js "enigma") =
      c.set (js "mcpServers") (child.without (js "enigma")) := by
    rw [removeServer_eq rfl, hget]
    exact (set_twice c _ _ _).trans (congrArg _ (without_of_set child _ _))
  rw [hleft, removeServer_eq h]
  cases hservers : c.get (js "mcpServers") with
  | none =>
    rw [hservers] at hchild
    obtain rfl : Json.obj [] = child := hchild
    rw [withServers, hservers]
    rfl
  | some servers =>
    rw [hservers] at hchild
    obtain rfl : servers = child := hchild
    obtain ⟨fs, rfl⟩ := exists_fields hrecord
    simp [withServers]

theorem removeServer_beside {c : Json} (h : c.isPlainRecord = true) :
    SameBeside c (removeServer c (buildProfile client ctx) (js "enigma")) ∧
      valueAt (removeServer c (buildProfile client ctx) (js "enigma")) serverPath = none := by
  rw [removeServer_eq h]
  cases hservers : c.get (js "mcpServers") with
  | none =>
    refine ⟨.refl c, ?_⟩
    rw [serverPath, valueAt_key, hservers]
    rfl
  | some servers =>
    by_cases hrecord : servers.isPlainRecord = true
    · obtain ⟨fs, rfl⟩ := exists_fields hrecord
      refine ⟨sameBeside_set h hservers rfl rfl fun key hkey => ?_, ?_⟩
      · rw [get_without, if_neg hkey]
      · rw [serverPath, valueAt_key, get_set, if_pos rfl, Option.bind_some, valueAt_key, get_without, if_pos rfl]
        rfl
    · cases servers <;> first
        | exact absurd rfl hrecord
        | exact ⟨.refl c, by rw [serverPath, valueAt_key, hservers]; rfl⟩

/-! ## The command line -/

/-- Both engines find the same container. -/
theorem ensureContainer_eq (path : List JsString) (create : Bool) : ∀ cursor : Json,
    ensureContainer cursor path create = (ClientConfig.ensureContainer cursor path create).toOption.join := by
  induction path with
  | nil => exact fun _ => rfl
  | cons segment path ih =>
    intro cursor
    rw [ensureContainer, ClientConfig.ensureContainer]
    split
    · rfl
    · cases (cursor.get segment).or (if create then some (.obj []) else none) with
      | none => rfl
      | some child =>
        simp only
        split
        · rfl
        · rw [ih child]
          cases ClientConfig.ensureContainer child path create with
          | error e => rfl
          | ok found => cases found <;> rfl

theorem applyServer_toOption (c : Json) (profile : ClientProfile) (serverName : JsString) (entry : Json) :
    (applyServer c profile serverName entry).toOption =
      (ClientConfig.applyServer c profile.serverContainerPath serverName entry).toOption := by
  rw [applyServer, ClientConfig.applyServer, ensureContainer_eq]
  cases ClientConfig.ensureContainer c profile.serverContainerPath true with
  | error e => rfl
  | ok found => cases found <;> rfl

theorem get_without_none {j : Json} {key : JsString} (h : j.isPlainRecord = true) (hget : j.get key = none) : j.without key = j := by
  obtain ⟨fs, rfl⟩ := exists_fields h
  refine congrArg Json.obj (List.filter_eq_self.2 fun f hf => ?_)
  have hfresh := get_eq_none_iff.1 hget
  simpa using fun heq : f.1 = key => hfresh (heq ▸ List.mem_map_of_mem hf)

/-- The command line refuses a container that is no object, which the app leaves as it is. -/
theorem removeServer_command {c : Json} (h : c.isPlainRecord = true) :
    ClientConfig.removeServer c (buildProfile client ctx).serverContainerPath (js "enigma") =
      if ((c.get (js "mcpServers")).all Json.isPlainRecord) then .ok (removeServer c (buildProfile client ctx) (js "enigma"))
      else .error (ClientConfig.invalidConfig (js "mcpServers") " is not an object.") := by
  have hpath : (buildProfile client ctx).serverContainerPath = [js "mcpServers"] := rfl
  rw [ClientConfig.removeServer, hpath, ClientConfig.ensureContainer, if_neg (by simp [h]), removeServer_eq h]
  cases hservers : c.get (js "mcpServers") with
  | none => rfl
  | some servers =>
    by_cases hrecord : servers.isPlainRecord = true
    · obtain ⟨fs, rfl⟩ := exists_fields hrecord
      have hremoved : (if ((Json.obj fs).get (js "enigma")).isSome then c.set (js "mcpServers") ((Json.obj fs).without (js "enigma"))
          else c) = c.set (js "mcpServers") ((Json.obj fs).without (js "enigma")) := by
        split
        · rfl
        · rename_i hmissing
          rw [get_without_none rfl (Option.not_isSome_iff_eq_none.1 hmissing), set_self hservers]
      exact congrArg Except.ok hremoved
    · cases servers <;> first
        | exact absurd rfl hrecord
        | rfl

/-! ## The entry alone -/

/-- **Connecting and disconnecting change the entry of the server alone.** -/
theorem server_entry_only (H : Host) (client : ClientId) (ctx : EngineContext) (opts : ConnectOptions) (c : Json)
    (h : c.isPlainRecord = true) :
    let profile := buildProfile client ctx
    let entry := buildServerEntry H ctx opts
    (∀ d, applyServer c profile profile.serverName entry = .ok d →
      SameBeside (withServers c) d ∧ valueAt d serverPath = some entry ∧
      applyServer d profile profile.serverName entry = .ok d ∧
      removeServer d profile profile.serverName = withServers (removeServer c profile profile.serverName)) ∧
    (SameBeside c (removeServer c profile profile.serverName) ∧
      valueAt (removeServer c profile profile.serverName) serverPath = none) ∧
    (∀ entry, (ClientConfig.applyServer c ClientConfig.MCP_CONTAINER_PATH ClientConfig.DEFAULT_SERVER_NAME entry).toOption =
      (applyServer c profile profile.serverName entry).toOption) ∧
    ∀ d, ClientConfig.removeServer c ClientConfig.MCP_CONTAINER_PATH ClientConfig.DEFAULT_SERVER_NAME = .ok d →
      d = removeServer c profile profile.serverName := by
  refine ⟨fun d hd => ?_, removeServer_beside h, fun entry => (applyServer_toOption c (buildProfile client ctx) (js "enigma") entry).symm,
    fun d hd => ?_⟩
  · obtain ⟨hbeside, hentry⟩ := applyServer_beside h hd
    exact ⟨hbeside, hentry, applyServer_again h hd, removeServer_applied h hd⟩
  · have hcommand : ClientConfig.removeServer c (buildProfile client ctx).serverContainerPath (js "enigma") = _ := removeServer_command h
    split at hcommand
    · exact Except.ok.inj (hd.symm.trans hcommand)
    · cases hd.symm.trans hcommand

/-- A configuration with another server and another setting. -/
def sharedConfig : Json :=
  .obj [(js "theme", .str (js "dark")), (js "mcpServers", .obj [(js "files", .obj [(js "command", .str (js "files"))])])]

theorem server_entry_only_shared :
    let profile := buildProfile .cursor plainContext
    let entry := buildServerEntry plainHost plainContext {}
    (∀ d, applyServer sharedConfig profile profile.serverName entry = .ok d →
      SameBeside (withServers sharedConfig) d ∧ valueAt d serverPath = some entry ∧
      applyServer d profile profile.serverName entry = .ok d ∧
      removeServer d profile profile.serverName = withServers (removeServer sharedConfig profile profile.serverName)) ∧
    (SameBeside sharedConfig (removeServer sharedConfig profile profile.serverName) ∧
      valueAt (removeServer sharedConfig profile profile.serverName) serverPath = none) ∧
    (∀ entry, (ClientConfig.applyServer sharedConfig ClientConfig.MCP_CONTAINER_PATH ClientConfig.DEFAULT_SERVER_NAME entry).toOption =
      (applyServer sharedConfig profile profile.serverName entry).toOption) ∧
    ∀ d, ClientConfig.removeServer sharedConfig ClientConfig.MCP_CONTAINER_PATH ClientConfig.DEFAULT_SERVER_NAME = .ok d →
      d = removeServer sharedConfig profile profile.serverName :=
  server_entry_only plainHost .cursor plainContext {} sharedConfig rfl

end Connector

end EnigmaMemory
