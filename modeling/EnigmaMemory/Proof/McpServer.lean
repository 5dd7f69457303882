import EnigmaMemory.Proof.ByteChain
import EnigmaMemory.Proof.JsString
import EnigmaMemory.Proof.Reference
import EnigmaMemory.Spec.McpServer

/-!
# Scopes at the MCP server

* `toolsCall_ok`: a tool that gives a result is one of the table, and its scope is held.
* `resourcesRead_ok_iff`: what a read that gives a result has passed. Every URI of the scheme is authorized
  by the template for memories (`templateFor_eq`).
* `scopes_enforced_iff`: so a result is given without its scope exactly for budgets and attestations that are
  there to be read, to callers who may read memories.
-/

namespace EnigmaMemory.McpServer

open EStateM (bind_eq_ok pure_eq_ok bind_of_ok)

variable {V : Type}

/-! ## What is required -/

/-- The scopes contain `*` or the given one. -/
def Holds (auth : Auth) (scope : JsString) : Prop :=
  ∃ xs, auth.scopes = some (.arr xs) ∧ (.str (js "*") ∈ xs ∨ .str scope ∈ xs)

/-- The URI has the form of the template. -/
def Instantiates (uri template : JsString) : Prop := withoutNames false template <+: uri

/-- `request.params[key]`. -/
def param (request : Request) (key : String) : Option Json := request.params.bind (·.get (js key))

/-- The caller has the scope of the tool that is called, or of the template that the URI instantiates. -/
def Entitled (auth : Auth) (request : Request) : Prop :=
  (request.method = some (.str (js "tools/call")) → ∃ tool scope, param request "name" = some (.str tool) ∧
    TOOL_SCOPES.lookup tool = some scope ∧ Holds auth scope) ∧
  (request.method = some (.str (js "resources/read")) → ∃ uri, param request "uri" = some (.str uri) ∧
    ∀ template scope, (template, scope) ∈ RESOURCE_SCOPES → Instantiates uri template → Holds auth scope)

theorem hasScope_iff {auth : Auth} {scope : JsString} : hasScope auth.scopes (some scope) = true ↔ Holds auth scope := by
  simp only [hasScope, Holds]
  split
  · rename_i xs hxs
    simp [hxs]
  · rename_i h
    exact iff_of_false Bool.false_ne_true fun ⟨xs, hxs, _⟩ => h xs hxs

theorem authorize_ok {auth : Auth} {required : Option JsString} {s t : State V} :
    authorize auth required s = .ok () t ↔ hasScope auth.scopes required = true ∧ s = t := by
  unfold authorize
  split
  · rename_i h
    simp [h, pure_eq_ok]
  · rename_i h
    exact iff_of_false (fun h => nomatch h) fun ha => h ha.1

theorem ofExcept_ok {α : Type} {x : Except JsError α} {a : α} {s t : State V} :
    ofExcept x s = .ok a t ↔ x = .ok a ∧ s = t := by
  cases x <;> simp [ofExcept]

theorem readParams_ok {request : Request} {params : Json} (h : readParams request = .ok params) (key : String) :
    params.get (js key) = param request key := by
  unfold readParams at h
  unfold param
  split at h
  · cases h
  · cases h
  · rename_i j _ hj
    rw [hj, ← Except.ok.inj h]
    rfl

theorem readText_ok {value : Option Json} {text : JsString} : readText value = .ok text ↔ value = some (.str text) := by
  unfold readText
  split <;> simp_all

/-! ## Tools -/

/-- The tools that exist are those of the table. -/
theorem lookup_of_toolNamed (S : Server V) {env : Ambient} {store : Option JsString} {name : JsString} {tool : Json → McpM V Json}
    (h : toolNamed S env store name = some tool) : ∃ scope, TOOL_SCOPES.lookup name = some scope := by
  have hmem : name ∈ TOOL_SCOPES.map Prod.fst := by
    unfold toolNamed at h
    simp only [TOOL_SCOPES, List.map_cons, List.map_nil, List.mem_cons]
    grind
  cases hlookup : TOOL_SCOPES.lookup name with
  | none =>
    obtain ⟨e, he, rfl⟩ := List.mem_map.1 hmem
    exact absurd rfl (bne_iff_ne.1 (List.lookup_eq_none_iff.1 hlookup e he))
  | some scope => exact ⟨scope, rfl⟩

theorem callTool_ok (S : Server V) {env : Ambient} {store : Option JsString} {name : Option Json} {args r : Json} {s t : State V}
    (h : callTool S env store name args s = .ok r t) : ∃ tool run, name = some (.str tool) ∧ toolNamed S env store tool = some run := by
  cases hrun : toolOf S env store name with
  | none =>
    simp only [callTool, hrun] at h
    cases h
  | some run =>
    unfold toolOf at hrun
    split at hrun
    · exact ⟨_, run, rfl, hrun⟩
    · cases hrun

/-- **A tool that gives a result has its scope.** -/
theorem toolsCall_ok (S : Server V) {ledger : Cortex.Ledger Cortex.Pubkey} {env : Ambient} {auth : Auth} {request : Request} {r : Json}
    {s t : State V} (h : toolsCall S ledger env auth request s = .ok r t) :
    ∃ tool scope, param request "name" = some (.str tool) ∧ TOOL_SCOPES.lookup tool = some scope ∧ Holds auth scope := by
  simp only [toolsCall, bind_eq_ok, ofExcept_ok] at h
  obtain ⟨params, s₀, ⟨hparams, -⟩, _, s₁, hauthorized, _, s₂, -, store, s₃, -, hcall⟩ := h
  rw [readParams_ok hparams "name"] at hauthorized hcall
  obtain ⟨tool, run, hname, hrun⟩ := callTool_ok S hcall
  obtain ⟨scope, hscope⟩ := lookup_of_toolNamed S hrun
  have htext : textOf S.platform.toNumberFormat (some (.str tool)) = tool := rfl
  rw [hname, authorizeTool, htext, hscope] at hauthorized
  exact ⟨tool, scope, hname, hscope, hasScope_iff.1 (authorize_ok.1 hauthorized).1⟩

/-! ## Resources -/

/-- **One template authorizes all**: what is compared is the scheme. -/
theorem templateFor_eq (uri : JsString) : templateFor uri = if js "cortex:" <+: uri then some memoryTemplate else none := by
  have hscheme : ∀ t ∈ RESOURCE_TEMPLATES.map Prod.fst, beforeSlashes (withoutNames false t) = js "cortex:" ∧
      js "cortex:" <+: withoutNames false t := by decide
  unfold templateFor
  split
  · rename_i h
    rw [RESOURCE_TEMPLATES, List.map_cons, List.find?_cons_of_pos]
    exact decide_eq_true (.inl h)
  · rename_i h
    refine List.find?_eq_none.2 fun t ht hmatch => h ?_
    obtain ⟨hstart, hlong⟩ := hscheme t ht
    simp only [hstart] at hmatch
    exact (of_decide_eq_true hmatch).elim id hlong.trans

theorem behind_eq_some {start uri value : JsString} : behind start uri = some value ↔ uri = start ++ value := by
  unfold behind
  split
  · rename_i h
    obtain ⟨rest, rfl⟩ := h
    simp [eq_comm]
  · rename_i h
    exact iff_of_false (fun h => nomatch h) fun he => h ⟨value, he.symm⟩

theorem behind_eq_none {start uri : JsString} : behind start uri = none ↔ ¬ start <+: uri := by
  unfold behind
  split <;> simp [*]

/-- Of the starts of URIs none begins with another one. -/
theorem starts_apart {a b uri : JsString} (hab : ¬ a <+: b) (hba : ¬ b <+: a) (ha : a <+: uri) : ¬ b <+: uri := fun hb =>
  (List.prefix_or_prefix_of_prefix ha hb).elim hab hba

/-- The store of a user, opened if it was not. -/
def storeOf (S : Server V) (s : State V) (userId : Option Json) : Except JsError (EncryptedStore V) :=
  if S.shared || !Json.truthy userId then .ok s.system
  else
    match s.owners.get (textOf S.platform.toNumberFormat userId) with
    | some store => .ok store
    | none => openStore S (textOf S.platform.toNumberFormat userId)

/-- A URI that can be read: the store that it is looked up in opens, and an attestation is there. -/
def Readable (S : Server V) (auth : Auth) (s : State V) (uri : JsString) : Prop :=
  ∃ store, storeOf S s (resourceUser auth uri) = .ok store ∧ (memoryUri <+: uri ∨ budgetUri <+: uri ∨
    ∃ model, uri = capabilityUri ++ model ∧ Json.truthy (store.find (capabilityKeyOf model)) = true)

theorem getStoreForUser_ok (S : Server V) {userId : Option Json} {s : State V} {store : EncryptedStore V} :
    (∃ place t, getStoreForUser S userId s = .ok place t ∧ t.storeAt place = store) ↔ storeOf S s userId = .ok store := by
  unfold getStoreForUser storeOf
  split
  · simp [State.storeAt]
  · simp only
    split
    · rename_i hhas
      obtain ⟨known, hknown⟩ := OrdMap.has_eq_true.1 hhas
      simp [State.storeAt, hknown]
    · rename_i hhas
      rw [OrdMap.has_eq_false.1 (Bool.eq_false_iff.2 hhas)]
      cases hopen : openStore S (textOf S.platform.toNumberFormat userId) with
      | ok opened => simp [State.storeAt]
      | error e => simp

theorem readResource_ok (S : Server V) {store : EncryptedStore V} {uri : JsString} {s : State V} :
    (∃ r t, readResource S store uri s = .ok r t) ↔ memoryUri <+: uri ∨ budgetUri <+: uri ∨
      ∃ model, uri = capabilityUri ++ model ∧ Json.truthy (store.find (capabilityKeyOf model)) = true := by
  unfold readResource
  cases hmemory : behind memoryUri uri with
  | some user => exact iff_of_true ⟨_, _, rfl⟩ (.inl ⟨user, (behind_eq_some.1 hmemory).symm⟩)
  | none =>
    rw [iff_false_intro (behind_eq_none.1 hmemory), false_or]
    cases hbudget : behind budgetUri uri with
    | some user => exact iff_of_true ⟨_, _, rfl⟩ (.inl ⟨user, (behind_eq_some.1 hbudget).symm⟩)
    | none =>
      rw [iff_false_intro (behind_eq_none.1 hbudget), false_or]
      cases hcapability : behind capabilityUri uri with
      | none =>
        refine iff_of_false (fun ⟨r, t, h⟩ => nomatch h) ?_
        rintro ⟨model, h, -⟩
        exact behind_eq_none.1 hcapability ⟨model, h.symm⟩
      | some model =>
        obtain rfl := behind_eq_some.1 hcapability
        simp only [List.append_cancel_left_eq, exists_eq_left']
        split
        · rename_i h
          exact iff_of_true ⟨_, _, rfl⟩ h
        · rename_i h
          exact iff_of_false (fun ⟨r, t, he⟩ => nomatch he) h

/-- The start of every URI that can be read. -/
theorem Readable.scheme {S : Server V} {auth : Auth} {s : State V} {uri : JsString} (h : Readable S auth s uri) :
    js "cortex:" <+: uri := by
  obtain ⟨store, -, h | h | ⟨model, rfl, -⟩⟩ := h
  · exact List.IsPrefix.trans (by decide) h
  · exact List.IsPrefix.trans (by decide) h
  · exact List.IsPrefix.trans (by decide) (List.prefix_append capabilityUri model)

theorem authorizeResource_ok {auth : Auth} {uri : JsString} {s t : State V} (h : js "cortex:" <+: uri) :
    authorizeResource auth (templateFor uri) s = .ok () t ↔ Holds auth (js "memory:read") ∧ s = t := by
  have hscope : (some memoryTemplate).bind (fun t => RESOURCE_SCOPES.lookup t) = some (js "memory:read") := by decide
  rw [templateFor_eq, if_pos h, authorizeResource, hscope, authorize_ok, hasScope_iff]

theorem readUri_ok_iff (S : Server V) {auth : Auth} {uri : JsString} {s : State V} :
    (∃ r t, readUri S auth uri s = .ok r t) ↔ Holds auth (js "memory:read") ∧ Readable S auth s uri := by
  constructor
  · rintro ⟨r, t, h⟩
    obtain ⟨⟨⟩, s₁, hauthorized, h⟩ := bind_eq_ok.1 h
    obtain rfl := (authorize_ok.1 hauthorized).2
    obtain ⟨place, s₂, hopen, h⟩ := bind_eq_ok.1 h
    obtain ⟨content, _, hcontent, h⟩ := bind_eq_ok.1 h
    obtain ⟨rfl, rfl⟩ := pure_eq_ok.1 hcontent
    obtain ⟨resource, s₃, hresource, -⟩ := bind_eq_ok.1 h
    have hreadable : Readable S auth s uri :=
      ⟨_, (getStoreForUser_ok S).1 ⟨place, s₂, hopen, rfl⟩, (readResource_ok S).1 ⟨resource, s₃, hresource⟩⟩
    exact ⟨((authorizeResource_ok hreadable.scheme).1 hauthorized).1, hreadable⟩
  · rintro ⟨hholds, hreadable⟩
    have hauthorized := (authorizeResource_ok (s := s) hreadable.scheme).2 ⟨hholds, rfl⟩
    obtain ⟨store, hstore, hfound⟩ := hreadable
    obtain ⟨place, t, hopen, rfl⟩ := (getStoreForUser_ok S).2 hstore
    obtain ⟨resource, u, hresource⟩ := (readResource_ok S (s := t)).2 hfound
    refine ⟨.obj [(js "contents", .arr [resource])], u, ?_⟩
    rw [readUri, bind_of_ok hauthorized, bind_of_ok hopen, bind_of_ok (show readStore place t = .ok (t.storeAt place) t from rfl),
      bind_of_ok hresource]
    rfl

/-- **A read gives a result** of what is readable, to those who may read memories. -/
theorem resourcesRead_ok_iff (S : Server V) {auth : Auth} {request : Request} {s : State V} :
    (∃ r t, resourcesRead S auth request s = .ok r t) ↔
      ∃ uri, param request "uri" = some (.str uri) ∧ Holds auth (js "memory:read") ∧ Readable S auth s uri := by
  simp only [← readUri_ok_iff]
  constructor
  · rintro ⟨r, t, h⟩
    obtain ⟨params, s₁, hread, h⟩ := bind_eq_ok.1 h
    obtain ⟨hparams, rfl⟩ := ofExcept_ok.1 hread
    obtain ⟨uri, s₂, htext, h⟩ := bind_eq_ok.1 h
    obtain ⟨huri, rfl⟩ := ofExcept_ok.1 htext
    rw [readParams_ok hparams "uri", readText_ok] at huri
    exact ⟨uri, huri, r, t, h⟩
  · rintro ⟨uri, huri, r, t, h⟩
    refine ⟨r, t, ?_⟩
    obtain ⟨params, hparams⟩ : ∃ params, readParams request = .ok params := by
      unfold param at huri
      unfold readParams
      split
      · simp_all
      · simp_all [Json.get]
      · exact ⟨_, rfl⟩
    have htext : readText (params.get (js "uri")) = .ok uri := by
      rw [readParams_ok hparams "uri", huri]
      rfl
    rw [resourcesRead, bind_of_ok (ofExcept_ok.2 ⟨hparams, rfl⟩), bind_of_ok (ofExcept_ok.2 ⟨htext, rfl⟩)]
    exact h

/-! ## The scope of what is read -/

/-- A budget or an attestation is read by a caller without its scope who may read memories. -/
def Slips (S : Server V) (auth : Auth) (s : State V) (request : Request) : Prop :=
  request.method = some (.str (js "resources/read")) ∧ ∃ uri scope, param request "uri" = some (.str uri) ∧
    (budgetUri <+: uri ∧ scope = js "budget:spend" ∨ capabilityUri <+: uri ∧ scope = js "capability:grant") ∧
    Holds auth (js "memory:read") ∧ ¬ Holds auth scope ∧ Readable S auth s uri

/-- The scopes that a URI needs: that of the start it has. -/
theorem required_iff {uri : JsString} {P : JsString → Prop} :
    (∀ template scope, (template, scope) ∈ RESOURCE_SCOPES → Instantiates uri template → P scope) ↔
      (memoryUri <+: uri → P (js "memory:read")) ∧ (budgetUri <+: uri → P (js "budget:spend")) ∧
        (capabilityUri <+: uri → P (js "capability:grant")) := by
  have hstarts : withoutNames false memoryTemplate = memoryUri ∧ withoutNames false budgetTemplate = budgetUri ∧
      withoutNames false capabilityTemplate = capabilityUri := by decide
  simp only [RESOURCE_SCOPES, Instantiates, List.mem_cons, List.not_mem_nil, or_false, Prod.mk.injEq]
  constructor
  · intro h
    exact ⟨fun hu => h _ _ (.inl ⟨rfl, rfl⟩) (hstarts.1 ▸ hu), fun hu => h _ _ (.inr (.inl ⟨rfl, rfl⟩)) (hstarts.2.1 ▸ hu),
      fun hu => h _ _ (.inr (.inr ⟨rfl, rfl⟩)) (hstarts.2.2 ▸ hu)⟩
  · rintro ⟨hmemory, hbudget, hcapability⟩ template scope (⟨rfl, rfl⟩ | ⟨rfl, rfl⟩ | ⟨rfl, rfl⟩) hu
    · exact hmemory (hstarts.1 ▸ hu)
    · exact hbudget (hstarts.2.1 ▸ hu)
    · exact hcapability (hstarts.2.2 ▸ hu)

/-- A request by its method. -/
theorem handle_call (S : Server V) {ledger : Cortex.Ledger Cortex.Pubkey} {env : Ambient} {auth : Option Auth} {request : Request}
    (h : request.method = some (.str (js "tools/call"))) :
    handle S ledger env auth request = some <$> toolsCall S ledger env (authOf auth) request := by
  unfold handle
  rw [h]
  rfl

theorem handle_read (S : Server V) {ledger : Cortex.Ledger Cortex.Pubkey} {env : Ambient} {auth : Option Auth} {request : Request}
    (h : request.method = some (.str (js "resources/read"))) :
    handle S ledger env auth request = some <$> resourcesRead S (authOf auth) request := by
  unfold handle
  rw [h]
  rfl

theorem map_ok {α β : Type} {x : McpM V α} {f : α → β} {s t : State V} {b : β} :
    (f <$> x) s = .ok b t ↔ ∃ a, x s = .ok a t ∧ f a = b := by
  simp only [Functor.map, EStateM.map]
  cases x s <;> simp [and_comm]

theorem slip (S : Server V) (ledger : Cortex.Ledger Cortex.Pubkey) (env : Ambient) {auth : Option Auth} {request : Request}
    {s : State V} (h : Slips S (authOf auth) s request) :
    ∃ reply t, handle S ledger env auth request s = .ok reply t ∧ ¬ Entitled (authOf auth) request := by
  obtain ⟨hmethod, uri, scope, huri, hkind, hmemory, hlacks, hreadable⟩ := h
  obtain ⟨r, t, hread⟩ := (resourcesRead_ok_iff S).2 ⟨uri, huri, hmemory, hreadable⟩
  refine ⟨some r, t, ?_, fun hentitled => ?_⟩
  · rw [handle_read S hmethod]
    exact map_ok.2 ⟨r, hread, rfl⟩
  · obtain ⟨uri', huri', hall⟩ := hentitled.2 hmethod
    obtain rfl : uri = uri' := Json.str.inj (Option.some.inj (huri.symm.trans huri'))
    obtain ⟨-, hbudget, hcapability⟩ := required_iff.1 hall
    obtain ⟨hstart, rfl⟩ | ⟨hstart, rfl⟩ := hkind
    · exact hlacks (hbudget hstart)
    · exact hlacks (hcapability hstart)

theorem entitled_of_ok (S : Server V) {ledger : Cortex.Ledger Cortex.Pubkey} {env : Ambient} {auth : Option Auth} {request : Request}
    {s t : State V} {reply : Option Json} (hslips : ¬ Slips S (authOf auth) s request)
    (h : handle S ledger env auth request s = .ok reply t) : Entitled (authOf auth) request := by
  refine ⟨fun hmethod => ?_, fun hmethod => ?_⟩
  · rw [handle_call S hmethod] at h
    obtain ⟨r, hcall, -⟩ := map_ok.1 h
    exact toolsCall_ok S hcall
  · rw [handle_read S hmethod] at h
    obtain ⟨r, hread, -⟩ := map_ok.1 h
    obtain ⟨uri, huri, hmemory, hreadable⟩ := (resourcesRead_ok_iff S).1 ⟨r, t, hread⟩
    refine ⟨uri, huri, required_iff.2 ⟨fun _ => hmemory, fun hstart => ?_, fun hstart => ?_⟩⟩
    · by_contra hlacks
      exact hslips ⟨hmethod, uri, _, huri, .inl ⟨hstart, rfl⟩, hmemory, hlacks, hreadable⟩
    · by_contra hlacks
      exact hslips ⟨hmethod, uri, _, huri, .inr ⟨hstart, rfl⟩, hmemory, hlacks, hreadable⟩

/-- **Scopes are enforced but for budgets and attestations.** -/
theorem scopes_enforced_iff (S : Server V) (ledger : Cortex.Ledger Cortex.Pubkey) (env : Ambient) (auth : Option Auth)
    (request : Request) (s : State V) :
    (∀ reply t, handle S ledger env auth request s = .ok reply t → Entitled (authOf auth) request) ↔
      ¬ Slips S (authOf auth) s request := by
  constructor
  · intro h hslips
    obtain ⟨reply, t, hreply, hlacks⟩ := slip S ledger env hslips
    exact hlacks (h reply t hreply)
  · intro hslips reply t h
    exact entitled_of_ok S hslips h

/-! ## A budget read without its scope -/

/-- A server with one store for all users. -/
def sharedServer : Server Unit where
  platform := reference
  chain := Cortex.byteChain
  web3 := Cortex.ByteChain.web3
  encoding := Cortex.ByteChain.encoding
  skipSessionVerification := false
  shared := true
  options := ⟨none, []⟩
  createStore _ _ := .ok .empty
  bound _ := .ok none
  initialBudget := .finite 0
  capabilityKey := utf8 (js "cortex-dev")

def newState : State Unit := ⟨.empty, .empty, []⟩

def readerAuth : Auth := ⟨some (.str (js "mallory")), some (.arr [.str (js "memory:read")]), none⟩

def readRequest (uri : String) : Request := ⟨some (.str (js "resources/read")), some (.obj [(js "uri", .str (js uri))])⟩

/-- Who may read memories reads the budget of another user. -/
theorem budget_read_by_reader : ¬ ∀ reply t, handle sharedServer Cortex.genesis referenceEnv (some readerAuth)
    (readRequest "cortex://budget/alice") newState = .ok reply t → Entitled readerAuth (readRequest "cortex://budget/alice") := by
  intro h
  have hlacks : ¬ Holds readerAuth (js "budget:spend") := fun hholds =>
    absurd (hasScope_iff.2 hholds) (by decide)
  have hslips : Slips sharedServer (authOf (some readerAuth)) newState (readRequest "cortex://budget/alice") :=
    ⟨rfl, js "cortex://budget/alice", js "budget:spend", rfl, .inl ⟨by decide, rfl⟩, ⟨_, rfl, .inr List.mem_cons_self⟩, hlacks,
      .empty, rfl, .inr (.inl (by decide))⟩
  obtain ⟨reply, t, hreply, hentitled⟩ := slip sharedServer Cortex.genesis referenceEnv hslips
  exact hentitled (h reply t hreply)

end EnigmaMemory.McpServer
