import EnigmaMemory.Proof.ByteChain
import EnigmaMemory.Proof.JsString
import EnigmaMemory.Proof.Reference
import EnigmaMemory.Spec.NodeServer

/-!
# Owners' stores are session-checked

A handler that checks the session does so first, and holds one store from then on, that of the owner in
the headers (`Uses`).

* `checked_of_verify`: such a handler uses an owner's store only after the check.
* `owner_access_checked_iff`: the requests that use an owner's store without a check are those for
  `/search/…` with both headers.
-/

namespace EnigmaMemory.Node

open EStateM (Keeps keeps_bind)

variable {V : Type} (S : Server V)

/-! ## One store -/

/-- The owner whose store a request is for. -/
def ownerOf (req : HttpRequest) : Option JsString := (authFromRequest req).map OwnerAuth.userId

/-- What has been done in between is the use of one store. -/
def Uses (owner : Option JsString) (s t : Handling V) : Prop :=
  ∃ uses, t.log = s.log ++ uses ∧ ∀ a ∈ uses, a = .store owner

variable {owner : Option JsString}

theorem uses_refl (s : Handling V) : Uses owner s s := ⟨[], (List.append_nil _).symm, fun _ h => absurd h List.not_mem_nil⟩

theorem uses_trans (s t u : Handling V) (h : Uses owner s t) (h' : Uses owner t u) : Uses owner s u := by
  obtain ⟨l, hl, hall⟩ := h
  obtain ⟨l', hl', hall'⟩ := h'
  refine ⟨l ++ l', by rw [hl', hl, List.append_assoc], ?_⟩
  intro a ha
  rcases List.mem_append.1 ha with ha | ha
  · exact hall a ha
  · exact hall' a ha

theorem uses_of_log {s t : Handling V} (h : t.log = s.log) : Uses owner s t :=
  ⟨[], by rw [h, List.append_nil], fun _ h => absurd h List.not_mem_nil⟩

theorem uses_bind {α β : Type} {x : NodeM V α} {f : α → NodeM V β} (hx : Keeps (Uses owner) x)
    (hf : ∀ a, Keeps (Uses owner) (f a)) : Keeps (Uses owner) (x >>= f) := keeps_bind uses_trans hx hf

theorem uses_pure {α : Type} (a : α) : Keeps (Uses owner) (pure a : NodeM V α) := EStateM.keeps_pure uses_refl a

theorem uses_throw {α : Type} (e : JsError) : Keeps (Uses owner) (throw e : NodeM V α) := fun s => uses_refl s

theorem uses_get : Keeps (Uses owner) (get : NodeM V (Handling V)) := EStateM.keeps_get uses_refl

theorem uses_ofExcept {α : Type} (x : Except JsError α) : Keeps (Uses owner) (ofExcept x : NodeM V α) := by
  intro s
  cases x <;> exact uses_refl s

theorem uses_record : Keeps (Uses owner) (record (.store owner) : NodeM V Unit) := fun _ =>
  ⟨[.store owner], rfl, fun _ h => List.mem_singleton.1 h⟩

theorem uses_readStore : Keeps (Uses owner) (readStore S owner) :=
  uses_bind uses_record fun _ => uses_bind uses_get fun _ => uses_pure _

theorem uses_updateStore (f : EncryptedStore V → Except JsError (EncryptedStore V)) :
    Keeps (Uses owner) (updateStore S owner f) := by
  refine uses_bind uses_get fun s => uses_bind (uses_ofExcept _) fun store => uses_bind uses_record fun _ => ?_
  exact fun _ => uses_of_log rfl

theorem uses_attempt {x : NodeM V Unit} (hx : Keeps (Uses owner) x) : Keeps (Uses owner) (attempt x) := hx

theorem uses_embedStored (key text : Json) : Keeps (Uses owner) (embedStored S owner key text) :=
  uses_attempt (uses_bind (uses_ofExcept _) fun _ => uses_updateStore S _)

theorem uses_readFields (req : HttpRequest) : Keeps (Uses owner) (readFields S req) := by
  refine uses_bind (uses_ofExcept _) fun body => uses_bind (uses_ofExcept _) fun value => ?_
  cases value with
  | null => exact uses_throw _
  | _ => exact uses_pure _

/-- The owner has a store that can be opened. -/
def Opens (n : NodeState V) (owner : JsString) : Prop := S.shared = true ∨ n.owners.has owner = true ∨ hasStoreFile owner = true

theorem getStoreForOwner_ok {s : Handling V} {owner : JsString} (h : Opens S s.node owner) :
    ∃ t, getStoreForOwner S owner s = .ok (some owner) t ∧ t.log = s.log := by
  unfold getStoreForOwner
  split
  · exact ⟨s, rfl, rfl⟩
  · rename_i hnew
    rw [not_or] at hnew
    rw [if_pos ((h.resolve_left hnew.1).resolve_left hnew.2)]
    exact ⟨_, rfl, rfl⟩

theorem getStoreForOwner_error {s : Handling V} {owner : JsString} (h : ¬ Opens S s.node owner) :
    getStoreForOwner S owner s = .error ownerError s := by
  simp only [Opens, not_or] at h
  rw [getStoreForOwner, if_neg (not_or.2 ⟨h.1, h.2.1⟩), if_neg h.2.2]

/-- Opening a store uses none, and gives the store of the owner in the headers. -/
theorem storeFor_cases (req : HttpRequest) (s : Handling V) :
    (∃ t, storeFor S (authFromRequest req) s = .ok (ownerOf req) t ∧ t.log = s.log) ∨
      storeFor S (authFromRequest req) s = .error ownerError s := by
  rw [ownerOf]
  cases authFromRequest req with
  | none => exact .inl ⟨s, rfl, rfl⟩
  | some auth =>
    by_cases hopens : Opens S s.node auth.userId
    · exact .inl (getStoreForOwner_ok S hopens)
    · exact .inr (getStoreForOwner_error S hopens)

theorem uses_storeFor (req : HttpRequest) {α : Type} {f : Option JsString → NodeM V α} (hf : Keeps (Uses (ownerOf req)) (f (ownerOf req))) :
    Keeps (Uses (ownerOf req)) (storeFor S (authFromRequest req) >>= f) := by
  intro s
  rcases storeFor_cases S req s with ⟨t, hopen, hlog⟩ | hopen
  · rw [EStateM.after, EStateM.bind_of_ok hopen]
    exact uses_trans _ _ _ (uses_of_log hlog) (hf t)
  · simp only [EStateM.after, bind, EStateM.bind, hopen]
    exact uses_refl s

/-! ## The handlers after the check -/

theorem uses_ite {α : Type} {p : Prop} [Decidable p] {x y : NodeM V α} (hx : Keeps (Uses owner) x) (hy : Keeps (Uses owner) y) :
    Keeps (Uses owner) (if p then x else y) := by
  split
  · exact hx
  · exact hy

theorem uses_semanticSearch (query : Json) : Keeps (Uses owner) (semanticSearch S owner query) :=
  uses_bind (uses_ofExcept _) fun _ => uses_bind (uses_readStore S) fun _ => uses_pure _

theorem uses_searchFor (req : HttpRequest) (query : Option Json) : Keeps (Uses (ownerOf req)) (searchFor S req query) :=
  uses_ite (uses_pure _) (uses_storeFor S req (uses_bind (uses_semanticSearch S _) fun _ => uses_pure _))

theorem uses_processTurn (turn : Json) : Keeps (Uses owner) (processTurn S owner turn) := by
  unfold processTurn
  split
  · refine uses_bind ?_ fun _ => uses_pure _
    induction S.saves turn with
    | nil => exact uses_pure _
    | cons memory rest ih =>
      exact uses_bind (uses_bind (uses_updateStore S _) fun _ => uses_embedStored S _ _) fun _ => ih
  · exact uses_throw _

/-- **A handler that checks the session first**: what it does is the check, if any, and then uses of one
store. -/
theorem log_of_verify (ledger : Cortex.Ledger Cortex.Pubkey) (env : Ambient) {req : HttpRequest} {action : JsString}
    (hskip : S.skipSessionVerification = false) (haction : actionForEndpoint req.method req.pathname = some action)
    {rest : NodeM V Reply} (hrest : Keeps (Uses (ownerOf req)) rest) (n : NodeState V) :
    ∃ uses, (∀ a ∈ uses, a = .store (ownerOf req)) ∧
      (((maybeVerifySession S ledger env req >>= fun _ => rest).after ⟨n, []⟩).log = uses ∧ (ownerOf req = none ∨ uses = []) ∨
        ∃ auth, authFromRequest req = some auth ∧
          ((maybeVerifySession S ledger env req >>= fun _ => rest).after ⟨n, []⟩).log = .verified auth.solana action :: uses) := by
  rw [maybeVerifySession, hskip, if_neg Bool.false_ne_true, haction]
  cases hauth : authFromRequest req with
  | none =>
    obtain ⟨uses, hlog, hall⟩ := hrest ⟨n, []⟩
    exact ⟨uses, hall, .inl ⟨hlog, .inl (by rw [ownerOf, hauth]; rfl)⟩⟩
  | some auth =>
    simp only
    cases hverify : Cortex.verifyOnChainSession S.platform.toNumberFormat S.chain S.web3 S.encoding ledger auth.solana action
      (env.clock 0 / 1000) with
    | error e => exact ⟨[], fun _ h => absurd h List.not_mem_nil, .inl ⟨rfl, .inr rfl⟩⟩
    | ok u =>
      obtain ⟨uses, hlog, hall⟩ := hrest ⟨n, [.verified auth.solana action]⟩
      exact ⟨uses, hall, .inr ⟨auth, rfl, hlog⟩⟩

/-! ## Checked accesses -/

/-- Every use of an owner's store comes after a session of that owner, with the key in the headers, has been
found valid. -/
def Checked (req : HttpRequest) (log : List Access) : Prop :=
  ∀ before owner after, log = before ++ .store (some owner) :: after → ∃ solana action, .verified solana action ∈ before ∧
    req.header "x-cortex-owner" = some owner ∧ solana.owner = some (.str owner) ∧
    solana.sessionKey = (req.header "x-cortex-session-key").map .str

theorem authFromRequest_owner {req : HttpRequest} {auth : OwnerAuth} (h : authFromRequest req = some auth) :
    req.header "x-cortex-owner" = some auth.userId ∧ auth.solana.owner = some (.str auth.userId) ∧
      auth.solana.sessionKey = (req.header "x-cortex-session-key").map .str := by
  simp only [authFromRequest] at h
  split at h
  · cases h
  · rename_i hpresent
    obtain rfl := Option.some.inj h
    cases howner : req.header "x-cortex-owner" with
    | none => rw [howner] at hpresent; exact absurd rfl hpresent
    | some owner => exact ⟨rfl, rfl, rfl⟩

/-- Uses of the system store need no check. -/
theorem checked_of_system {req : HttpRequest} {log : List Access} (h : ∀ a ∈ log, a = .store none) : Checked req log := by
  intro before owner after hlog
  have huse := h (.store (some owner)) (by rw [hlog]; simp)
  cases huse

theorem checked_of_verify {ledger : Cortex.Ledger Cortex.Pubkey} {env : Ambient} {req : HttpRequest} {action : JsString}
    (hskip : S.skipSessionVerification = false) (haction : actionForEndpoint req.method req.pathname = some action)
    {rest : NodeM V Reply} (hrest : Keeps (Uses (ownerOf req)) rest) (n : NodeState V) :
    Checked req ((maybeVerifySession S ledger env req >>= fun _ => rest).after ⟨n, []⟩).log := by
  obtain ⟨uses, hall, ⟨hlog, hnone⟩ | ⟨auth, hauth, hlog⟩⟩ := log_of_verify S ledger env hskip haction hrest n
  · refine checked_of_system fun a ha => ?_
    rw [hlog] at ha
    rcases hnone with hnone | rfl
    · rw [hall a ha, hnone]
    · exact absurd ha List.not_mem_nil
  · intro before owner after hsplit
    rw [hlog] at hsplit
    cases before with
    | nil => cases (List.cons.inj hsplit).1
    | cons first before =>
      obtain ⟨rfl, hrestlog⟩ := List.cons.inj hsplit
      have huse := hall (.store (some owner)) (by rw [hrestlog]; simp)
      rw [ownerOf, hauth] at huse
      obtain rfl : owner = auth.userId := Option.some.inj (Access.store.inj huse)
      exact ⟨auth.solana, action, List.mem_cons_self, authFromRequest_owner hauth⟩

theorem after_caught (x : NodeM V Reply) (s : Handling V) : (caught x).after s = x.after s := by
  simp only [EStateM.after, caught]
  cases x s <;> rfl

theorem serve_log (ledger : Cortex.Ledger Cortex.Pubkey) (env : Ambient) (req : HttpRequest) (n : NodeState V) :
    (serve S ledger env req n).2.2 = ((route S ledger env req).after ⟨n, []⟩).log := by
  simp only [serve, EStateM.after]
  cases route S ledger env req ⟨n, []⟩ <;> rfl

theorem uses_onSystem (f : EncryptedStore V → Reply × EncryptedStore V) : Keeps (Uses none) (onSystem f) :=
  fun _ => ⟨[.store none], rfl, fun _ h => List.mem_singleton.1 h⟩

theorem uses_handleOAuthRequest (env : Ambient) (req : HttpRequest) : Keeps (Uses none) (handleOAuthRequest S env req) := by
  refine uses_ite (uses_pure _) (uses_ite (uses_pure _) (uses_ite (uses_onSystem _) (uses_ite ?_ (uses_ite (uses_onSystem _) (uses_pure _)))))
  split
  · exact uses_onSystem _
  · exact uses_pure _

/-- A handler that uses the system store only. -/
theorem checked_of_uses {req : HttpRequest} {x : NodeM V Reply} (hx : Keeps (Uses none) x) (n : NodeState V) :
    Checked req (x.after ⟨n, []⟩).log := by
  obtain ⟨uses, hlog, hall⟩ := hx ⟨n, []⟩
  rw [hlog]
  exact checked_of_system hall

/-- A request for `/search/…`. -/
def SearchesPrefix (req : HttpRequest) : Prop := req.method = js "GET" ∧ js "/search/" <+: req.pathname

theorem action_retrieve {method pathname : JsString} (hpost : method ≠ js "POST")
    (h : method = js "GET" ∧ js "/retrieve/" <+: pathname ∨ pathname = js "/search" ∨ method = js "POST" ∧ pathname = js "/search") :
    actionForEndpoint method pathname = some (js "retrieve_memory") := by
  rw [actionForEndpoint, if_neg fun hp => hpost hp.1]
  exact if_pos h

theorem action_search {method pathname : JsString} (h : pathname = js "/search") :
    actionForEndpoint method pathname = some (js "retrieve_memory") := by
  rw [actionForEndpoint, if_neg, if_pos (.inr (.inl h))]
  rintro ⟨-, hp | hp⟩
  · exact absurd (h.symm.trans hp) (js_inj.not.2 (by decide))
  · exact absurd (h.symm.trans hp) (js_inj.not.2 (by decide))

theorem get_ne_post : js "GET" ≠ js "POST" := js_inj.not.2 (by decide)

/-- **All other requests are checked.** -/
theorem checked_elsewhere (hskip : S.skipSessionVerification = false) (ledger : Cortex.Ledger Cortex.Pubkey) (env : Ambient)
    {req : HttpRequest} (h : ¬ SearchesPrefix req) (n : NodeState V) :
    Checked req ((route S ledger env req).after ⟨n, []⟩).log := by
  unfold route
  split
  · exact checked_of_uses (uses_handleOAuthRequest S env req) n
  split
  · exact checked_of_uses (uses_pure _) n
  split
  · rename_i _ _ hroute
    rw [after_caught]
    refine checked_of_verify S hskip (by rw [actionForEndpoint, if_pos ⟨hroute.1, .inl hroute.2⟩]) ?_ n
    refine uses_bind (uses_readFields S req) fun fields => uses_ite (uses_pure _) (uses_storeFor S req ?_)
    exact uses_bind (uses_updateStore S _) fun _ => uses_bind (uses_embedStored S _ _) fun _ => uses_pure _
  split
  · rename_i hroute
    rw [after_caught]
    refine checked_of_verify S hskip (action_retrieve (hroute.1 ▸ get_ne_post) (.inl hroute)) ?_ n
    refine uses_storeFor S req (uses_bind (uses_readStore S) fun content => ?_)
    split
    · exact uses_ite (uses_pure _) (uses_pure _)
    · exact uses_pure _
  split
  · rename_i hroute
    rw [after_caught]
    exact checked_of_verify S hskip (action_search hroute.2) (uses_searchFor S req _) n
  split
  · rename_i hroute
    rw [after_caught]
    refine checked_of_verify S hskip (action_search hroute.2) ?_ n
    exact uses_bind (uses_readFields S req) fun fields => uses_searchFor S req _
  split
  · rename_i hroute
    rw [after_caught]
    refine checked_of_verify S hskip (by rw [actionForEndpoint, if_pos ⟨hroute.1, .inr hroute.2⟩]) ?_ n
    refine uses_bind (uses_readFields S req) fun fields => uses_ite (uses_pure _) (uses_storeFor S req ?_)
    exact uses_bind (uses_processTurn S _) fun _ => uses_pure _
  split
  · rename_i hroute
    exact absurd hroute h
  · exact checked_of_uses (uses_pure _) n

/-- A request for `/search/…` goes to the handler that checks nothing. -/
theorem route_searchPrefixed {ledger : Cortex.Ledger Cortex.Pubkey} {env : Ambient} {req : HttpRequest} (h : SearchesPrefix req) :
    route S ledger env req = searchPrefix S req := by
  have hne : ∀ x, ¬ js "/search/" <+: x → req.pathname ≠ x := fun x hx he => hx (he ▸ h.2)
  have hpost : req.method ≠ js "POST" := h.1 ▸ get_ne_post
  have hretrieve : ¬ js "/retrieve/" <+: req.pathname := by
    intro hp
    rcases List.prefix_or_prefix_of_prefix hp h.2 with hp | hp <;> exact absurd hp (by decide)
  have hoauth : isOAuthRoute req.pathname = false := by
    refine decide_eq_false fun hmem => ?_
    simp only [List.mem_cons, List.not_mem_nil, or_false] at hmem
    rcases hmem with hp | hp | hp | hp | hp <;> exact hne _ (by decide) hp
  rw [route, hoauth, if_neg Bool.false_ne_true, if_neg fun hp => hne _ (by decide) hp.2, if_neg fun hp => hpost hp.1,
    if_neg fun hp => hretrieve hp.2, if_neg fun hp => hne _ (by decide) hp.2, if_neg fun hp => hpost hp.1,
    if_neg fun hp => hpost hp.1]
  exact if_pos h

/-- A prefix search uses the store of the owner in the headers, if it opens. -/
theorem log_searchPrefix {req : HttpRequest} {n : NodeState V} {t : Handling V}
    (hopen : storeFor S (authFromRequest req) ⟨n, []⟩ = .ok (ownerOf req) t) (hlog : t.log = []) :
    ((searchPrefix S req).after ⟨n, []⟩).log = [.store (ownerOf req)] := by
  rw [EStateM.after, searchPrefix, EStateM.bind_of_ok hopen]
  have hstore : (readStore S (ownerOf req) t) = .ok (t.node.storeAt S (ownerOf req)) { t with log := t.log ++ [.store (ownerOf req)] } := rfl
  rw [EStateM.bind_of_ok hstore, hlog]
  rfl

/-- The request uses the store of the owner in its headers, and nothing checks the session. -/
def Unchecked (n : NodeState V) (req : HttpRequest) : Prop :=
  SearchesPrefix req ∧ ∃ auth, authFromRequest req = some auth ∧ Opens S n auth.userId

theorem checked_searchPrefix (req : HttpRequest) (n : NodeState V) :
    Checked req ((searchPrefix S req).after ⟨n, []⟩).log ↔ ¬ ∃ auth, authFromRequest req = some auth ∧ Opens S n auth.userId := by
  cases hauth : authFromRequest req with
  | none =>
    have howner : ownerOf req = none := by rw [ownerOf, hauth]; rfl
    refine iff_of_true ?_ (fun ⟨auth, h, _⟩ => nomatch h)
    rw [log_searchPrefix S (t := ⟨n, []⟩) (by rw [hauth, howner]; rfl) rfl, howner]
    exact checked_of_system fun a ha => List.mem_singleton.1 ha
  | some auth =>
    have howner : ownerOf req = some auth.userId := by rw [ownerOf, hauth]; rfl
    by_cases hopens : Opens S n auth.userId
    · refine iff_of_false ?_ (fun h => h ⟨auth, rfl, hopens⟩)
      obtain ⟨t, hopen, hlog⟩ := getStoreForOwner_ok S (s := ⟨n, []⟩) hopens
      rw [log_searchPrefix S (t := t) (by rw [hauth, howner]; exact hopen) hlog, howner]
      intro hchecked
      obtain ⟨solana, action, hmem, -⟩ := hchecked [] auth.userId [] rfl
      exact absurd hmem List.not_mem_nil
    · refine iff_of_true ?_ ?_
      · have hfail : storeFor S (authFromRequest req) ⟨n, []⟩ = .error ownerError ⟨n, []⟩ := by
          rw [hauth]
          exact getStoreForOwner_error S hopens
        have hlog : ((searchPrefix S req).after ⟨n, []⟩).log = [] := by
          simp only [EStateM.after, searchPrefix, bind, EStateM.bind, hfail]
        rw [hlog]
        exact checked_of_system fun a ha => absurd ha List.not_mem_nil
      · rintro ⟨auth', h, hopens'⟩
        obtain rfl := Option.some.inj h
        exact hopens hopens'

/-- **Owners' stores are session-checked but for prefix searches.** -/
theorem owner_access_checked_iff (hskip : S.skipSessionVerification = false) (ledger : Cortex.Ledger Cortex.Pubkey) (env : Ambient)
    (req : HttpRequest) (n : NodeState V) : Checked req (serve S ledger env req n).2.2 ↔ ¬ Unchecked S n req := by
  rw [serve_log]
  by_cases hsearch : SearchesPrefix req
  · rw [route_searchPrefixed S hsearch, checked_searchPrefix]
    exact not_congr ⟨fun h => ⟨hsearch, h⟩, fun h => h.2⟩
  · exact iff_of_true (checked_elsewhere S hskip ledger env hsearch n) fun h => hsearch h.1

/-! ## Requests of one owner -/

/-- A server without embeddings, over an empty chain or any other. -/
def plainServer (shared : Bool) : Server Unit where
  platform := reference
  chain := Cortex.byteChain
  web3 := Cortex.ByteChain.web3
  encoding := Cortex.ByteChain.encoding
  skipSessionVerification := false
  shared := shared
  isUrl _ := true
  formOf _ := ⟨[], fun _ h => absurd h List.not_mem_nil⟩
  embedder _ := .ok ()
  rank _ _ := []
  saves _ := []
  report turn := turn
  disk _ := .empty

def newNode : NodeState Unit := ⟨.empty, .empty⟩

/-- A request by the owner `alice` with the session key `k`, which is no key at all. -/
def aliceGet (pathname : String) : HttpRequest where
  method := js "GET"
  pathname := js pathname
  params := ⟨[], fun _ h => absurd h List.not_mem_nil⟩
  header name := if name = "x-cortex-owner" then some (js "alice") else if name = "x-cortex-session-key" then some (js "k") else none
  body := none
  baseUrl := js "http://localhost"

theorem owner_access_checked_retrieve : Checked (aliceGet "/retrieve/m")
    (serve (plainServer false) Cortex.genesis referenceEnv (aliceGet "/retrieve/m") newNode).2.2 :=
  (owner_access_checked_iff (plainServer false) rfl Cortex.genesis referenceEnv (aliceGet "/retrieve/m") newNode).2
    fun h => absurd h.1.2 (by decide)

/-- A prefix search reads the store of an owner for whom no session was ever checked. -/
theorem unchecked_prefix_search : ¬ Checked (aliceGet "/search/m")
    (serve (plainServer false) Cortex.genesis referenceEnv (aliceGet "/search/m") newNode).2.2 := by
  rw [serve_log, route_searchPrefixed (plainServer false) ⟨rfl, by decide⟩, checked_searchPrefix]
  exact fun h => h ⟨_, rfl, .inr (.inr (by decide))⟩

end EnigmaMemory.Node
