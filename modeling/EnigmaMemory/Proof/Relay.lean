import EnigmaMemory.Lib.Run
import EnigmaMemory.Proof.Mesh
import EnigmaMemory.Spec.Relay

/-!
# What a request does to a relay

* `served`: a request leaves the relay as it is, stores a record, appends a checkpoint, issues a
  challenge or completes one (`Served`).
* `requireRelayAuthorization_ok`: what an accepted signature has been checked against.
-/

namespace EnigmaMemory.Relay

open Json Mesh

variable (P : Platform)

/-- The request is for one of the paths. -/
def RelayRequest.IsFor (req : RelayRequest) (pathname : String) : Prop := req.method = js "POST" ∧ req.pathname = js pathname

/-- **What a request may do**, with what it has been checked for. -/
inductive Served (s : RelayState) (env : RelayEnv) (req : RelayRequest) : RelayReply → RelayState → Prop
  | unchanged {reply : RelayReply} (hreply : ∀ body, reply ≠ .json 201 body) : Served s env req reply s
  | push {body authorization record : Json} (hroute : req.IsFor "/relay/push") (hbody : req.body = .ok body)
      (hauthorized : requireRelayAuthorization P s req "relay.push" (relayRequestHash P req (some body)) = .ok authorization)
      (hrecord : pushed P s body = .ok record) :
      Served s env req (.json 201 (ok [(js "record", handedOut record), (js "authorization", authorization)]))
        { s with relayStore := s.relayStore.file record }
  | witness {body authorization checkpoint verification : Json} (hroute : req.IsFor "/witness/checkpoint")
      (hbody : req.body = .ok body)
      (hauthorized : requireRelayAuthorization P s req "witness.checkpoint" (relayRequestHash P req (some body)) = .ok authorization)
      (hcheckpoint : witnessed P s env body = .ok checkpoint) :
      Served s env req (.json 201 (ok [(js "checkpoint", checkpoint), (js "verification", verification),
        (js "authorization", authorization)])) { s with witnessLog := s.witnessLog ++ [checkpoint] }
  | challenge {body challenge : Json} {t : RelayState} (hroute : req.IsFor "/pairing/challenge") (hbody : req.body = .ok body)
      (hissued : createPairingChallenge P s env body = .ok (challenge, t)) :
      Served s env req (.json 201 (ok [(js "challenge", challenge)])) t
  | complete {body pairing : Json} {t : RelayState} (hroute : req.IsFor "/pairing/complete") (hbody : req.body = .ok body)
      (hcompleted : completePairing P s env body = .ok (pairing, t)) :
      Served s env req (.json 201 (ok [(js "pairing", pairing)])) t

variable {P}

theorem handlePull_reply {s : RelayState} {req : RelayRequest} {reply : RelayReply} (h : handlePull P s req = .ok reply) (body : Json) :
    reply ≠ .json 201 body := by
  rintro rfl
  unfold handlePull at h
  split at h
  · cases h
  · obtain ⟨authorization, -, h⟩ := Except.bind_eq_ok.1 h
    obtain ⟨record, -, h⟩ := Except.bind_eq_ok.1 h
    cases record <;> cases h

theorem served_of_route {s t : RelayState} {env : RelayEnv} {req : RelayRequest} {reply : RelayReply}
    (h : route P s env req = .ok (reply, t)) : Served P s env req reply t := by
  unfold route at h
  split_ifs at h with _ _ hpush _ hwitness _ hchallenge hcomplete
  · cases h
    exact .unchanged (fun _ h => nomatch h)
  · cases h
    exact .unchanged (fun _ h => nomatch h)
  · obtain ⟨body, hbody, h⟩ := Except.bind_eq_ok.1 h
    obtain ⟨authorization, hauthorized, h⟩ := Except.bind_eq_ok.1 h
    obtain ⟨record, hrecord, h⟩ := Except.bind_eq_ok.1 h
    cases h
    exact .push hpush hbody hauthorized hrecord
  · obtain ⟨pulled, hpulled, h⟩ := Except.map_eq_ok.1 h
    cases h
    exact .unchanged (handlePull_reply hpulled)
  · obtain ⟨body, hbody, h⟩ := Except.bind_eq_ok.1 h
    obtain ⟨authorization, hauthorized, h⟩ := Except.bind_eq_ok.1 h
    obtain ⟨checkpoint, hcheckpoint, h⟩ := Except.bind_eq_ok.1 h
    cases h
    exact .witness hwitness hbody hauthorized hcheckpoint
  · cases h
    exact .unchanged (fun _ h => nomatch h)
  · obtain ⟨body, hbody, h⟩ := Except.bind_eq_ok.1 h
    obtain ⟨⟨challenge, u⟩, hissued, h⟩ := Except.bind_eq_ok.1 h
    cases h
    exact .challenge hchallenge hbody hissued
  · obtain ⟨body, hbody, h⟩ := Except.bind_eq_ok.1 h
    obtain ⟨⟨pairing, u⟩, hcompleted, h⟩ := Except.bind_eq_ok.1 h
    cases h
    exact .complete hcomplete hbody hcompleted
  · cases h
    exact .unchanged (fun _ h => nomatch h)

/-- **Every request is served in one of these ways.** -/
theorem served (s : RelayState) (env : RelayEnv) (req : RelayRequest) :
    Served P s env req (handleRelayRequest P s env req).1 (handleRelayRequest P s env req).2 := by
  unfold handleRelayRequest
  cases h : route P s env req with
  | ok r => exact served_of_route h
  | error e => exact .unchanged (fun _ h => nomatch h)

/-! ## Creation -/

/-- Ed25519 is correct for a pair of keys: what the one signs, the other verifies. -/
structure SigningPair (P : Platform) (keyPair : JsString × JsString) : Prop where
  publicKey_ne : keyPair.1 ≠ []
  privateKey_ne : keyPair.2 ≠ []
  signs : ∀ text, ∃ signature, P.sign keyPair.2 text = .ok signature ∧ signature ≠ [] ∧ P.verify keyPair.1 text signature = true

/-- The node of a new relay, from the signature of its descriptor. -/
def newNode (P : Platform) (o : RelayOptions) (value : JsString) : Node :=
  let node_id := js "node_" ++ (sha256Hex o.keyPair.1).take 32
  let unsigned := newDescriptor o node_id
  let bare : Node := ⟨node_id, keyIdOf o.keyPair.1, o.keyPair.1, o.keyPair.2, .null, .null⟩
  let descriptor := hashed P (signed unsigned (signatureObject bare value)) (js "descriptor_hash")
  { bare with trust_descriptor := descriptor, public_descriptor := descriptor }
where
  newDescriptor (o : RelayOptions) (node_id : JsString) : Json :=
    nodeDescriptor node_id (keyIdOf o.keyPair.1)
      ⟨o.keyPair, o.role, [js "relay_store", js "witness_checkpoint", js "pairing_challenge"], o.endpoints, o.created_at.getD DEFAULT_NOW⟩
      (.arr [.str (js "relay_store"), .str (js "witness_checkpoint"), .str (js "pairing_challenge")])
      (.arr (o.endpoints.map .str)) (o.created_at.getD DEFAULT_NOW)

/-- A relay that has served no request. -/
structure Fresh (P : Platform) (o : RelayOptions) (value : JsString) (s : RelayState) : Prop where
  node : s.node = newNode P o value
  store_node : s.relayStore.node = s.node
  store_node_id : s.relayStore.node_id = s.node.node_id
  store_id : s.relayStore.store_id ≠ []
  created : s.relayStore.created_at ≠ [] ∧ (P.parseDate s.relayStore.created_at).isSome = true
  records : s.relayStore.records = OrdMap.empty
  witnessLog : s.witnessLog = []
  pairingChallenges : s.pairingChallenges = OrdMap.empty
  pairings : s.pairings = OrdMap.empty
  challengeTtlMs : s.challengeTtlMs = o.challengeTtlMs
  allowUnauthenticated : s.allowUnauthenticated = o.allowUnauthenticated

theorem keyIdOf_ne (publicKey : JsString) : keyIdOf publicKey ≠ [] := by
  rw [keyIdOf, ne_eq, List.append_eq_nil_iff, not_and]
  exact fun h => absurd h (by decide)

theorem createRelayState_ok {o : RelayOptions} {s : RelayState} (h : createRelayState P o = .ok s) : ∃ value, Fresh P o value s := by
  simp only [createRelayState, createMeshNode, createRelayStore, arrayOfStrings, Except.bind_eq_ok, failIf_ok, dateString_ok,
    createSignature_ok] at h
  obtain ⟨node, ⟨created, ⟨hcreated, hne, hdate⟩, _, ⟨⟨⟩, -, h₁⟩, _, ⟨⟨⟩, -, h₂⟩, _, ⟨-, value, -, rfl⟩, h₃⟩, store,
    ⟨created', ⟨hcreated', -, -⟩, h₄⟩, h⟩ := h
  cases h₁
  cases h₂
  cases h₃
  cases h₄
  cases h
  obtain rfl : o.created_at.getD DEFAULT_NOW = created := by simpa [orElse] using hcreated
  obtain rfl : o.created_at.getD DEFAULT_NOW = created' := by simpa [orElse] using hcreated'
  refine ⟨value, rfl, rfl, rfl, ?_, ⟨hne, hdate⟩, rfl, rfl, rfl, rfl, rfl, rfl⟩
  simp [idFromValue, js, utf16]

/-- A relay can be created from a pair of keys. -/
theorem exists_createRelayState {o : RelayOptions} (hkeys : SigningPair P o.keyPair) (hendpoints : [] ∉ o.endpoints)
    (hcreated : o.created_at.getD DEFAULT_NOW ≠ [] ∧ (P.parseDate (o.created_at.getD DEFAULT_NOW)).isSome = true) :
    ∃ s, createRelayState P o = .ok s := by
  have hdate : ∀ fallback : Option JsString, dateString P (some (.str (o.created_at.getD DEFAULT_NOW))) "created_at" fallback =
      .ok (o.created_at.getD DEFAULT_NOW) := fun fallback => dateString_ok.2 ⟨rfl, hcreated⟩
  let node_id := js "node_" ++ (sha256Hex o.keyPair.1).take 32
  obtain ⟨value, hvalue, -, -⟩ := hkeys.signs ((newNode.newDescriptor o node_id).canonicalize P.toNumberFormat)
  have hsigned : createSignature P (newNode.newDescriptor o node_id)
      ⟨node_id, keyIdOf o.keyPair.1, o.keyPair.1, o.keyPair.2, .null, .null⟩ = .ok _ :=
    createSignature_ok.2 ⟨keyIdOf_ne _, value, hvalue, rfl⟩
  simp only [createRelayState, createMeshNode, createRelayStore, hdate, Except.bind_eq_ok]
  refine ⟨_, _, ⟨_, rfl, _, ?_, _, ?_, _, hsigned, rfl⟩, _, ⟨_, rfl, rfl⟩, rfl⟩
  · exact Except.bind_eq_ok.2 ⟨(), failIf_ok.2 (by simp [js, utf16]), rfl⟩
  · exact Except.bind_eq_ok.2 ⟨(), failIf_ok.2 hendpoints, rfl⟩

/-- A relay serves every list of requests. -/
theorem exists_run (s : RelayState) (inputs : List (RelayEnv × RelayRequest)) : ∃ t, Run.run (step P) s inputs = some t := by
  induction inputs generalizing s with
  | nil => exact ⟨s, rfl⟩
  | cons input rest ih => exact ih _

/-! ## What a step keeps -/

theorem createPairingChallenge_frame {s t : RelayState} {env : RelayEnv} {body challenge : Json}
    (h : createPairingChallenge P s env body = .ok (challenge, t)) : ∃ pending, t = { s with pairingChallenges := pending } := by
  simp only [createPairingChallenge, Except.bind_eq_ok] at h
  obtain ⟨_, -, _, -, _, -, _, -, _, -, h⟩ := h
  cases h
  exact ⟨_, rfl⟩

theorem completePairing_frame {s t : RelayState} {env : RelayEnv} {body pairing : Json}
    (h : completePairing P s env body = .ok (pairing, t)) :
    ∃ pending pairings, t = { s with pairingChallenges := pending, pairings } := by
  simp only [completePairing, Except.bind_eq_ok] at h
  obtain ⟨_, -, _, -, h⟩ := h
  cases h
  exact ⟨_, _, rfl⟩

theorem served_node {s t : RelayState} {env : RelayEnv} {req : RelayRequest} {reply : RelayReply} (h : Served P s env req reply t) :
    t.node = s.node := by
  cases h with
  | challenge _ _ hissued =>
    obtain ⟨_, rfl⟩ := createPairingChallenge_frame hissued
    rfl
  | complete _ _ hcompleted =>
    obtain ⟨_, _, rfl⟩ := completePairing_frame hcompleted
    rfl
  | _ => rfl

/-- A request that is not accepted changes nothing. -/
theorem served_refused {s t : RelayState} {env : RelayEnv} {req : RelayRequest} {reply : RelayReply} (h : Served P s env req reply t)
    (hrefused : ∀ body, reply ≠ .json 201 body) : t = s := by
  cases h with
  | unchanged => rfl
  | _ => exact absurd rfl (hrefused _)

/-- Only a witness request touches the log. -/
theorem served_witnessLog {s t : RelayState} {env : RelayEnv} {req : RelayRequest} {reply : RelayReply}
    (h : Served P s env req reply t) : t.witnessLog = s.witnessLog ∨ ∃ body checkpoint, req.body = .ok body ∧
      witnessed P s env body = .ok checkpoint ∧ t.witnessLog = s.witnessLog ++ [checkpoint] := by
  cases h with
  | witness _ hbody _ hcheckpoint => exact .inr ⟨_, _, hbody, hcheckpoint, rfl⟩
  | challenge _ _ hissued =>
    obtain ⟨_, rfl⟩ := createPairingChallenge_frame hissued
    exact .inl rfl
  | complete _ _ hcompleted =>
    obtain ⟨_, _, rfl⟩ := completePairing_frame hcompleted
    exact .inl rfl
  | _ => exact .inl rfl

end EnigmaMemory.Relay
