import EnigmaMemory.Lib.Ticket
import EnigmaMemory.Proof.WitnessLog

/-!
# Pairings

A challenge is a ticket: it is issued for a public key, and the completion that redeems it looks it
up and deletes it in one go.

* `checkCompletion_ok`, `completePairing_ok`: what a completion has checked, and what it does.
* `challenge_laws`, `pairing_laws`: challenges and pairings as tickets.
* `pairing_safe`: every pairing comes from one challenge for its key, which was completed before it
  expired by a signature of that key, and no challenge gives two.
-/

namespace EnigmaMemory.Relay

open Json Mesh

variable {P : Platform}

/-! ## The two requests -/

/-- The identifier of a challenge. -/
def challengeId (P : Platform) (s : RelayState) (env : RelayEnv) (publicKey : JsString) : JsString :=
  textOf (challengeJson P s env publicKey) "challenge_id"

/-- What the relay keeps of a challenge. -/
def openChallenge (P : Platform) (s : RelayState) (env : RelayEnv) (publicKey : JsString) : PendingChallenge :=
  ⟨challengeJson P s env publicKey, publicKey⟩

theorem createPairingChallenge_ok {s t : RelayState} {env : RelayEnv} {body challenge : Json}
    (h : createPairingChallenge P s env body = .ok (challenge, t)) : ∃ publicKey signature,
      publicKeyFromPairingInput body = .ok publicKey ∧ challenge = signed (challengeJson P s env publicKey) signature ∧
      t = { s with pairingChallenges :=
                     s.pairingChallenges.set (challengeId P s env publicKey) (openChallenge P s env publicKey) } := by
  simp only [createPairingChallenge, Except.bind_eq_ok] at h
  obtain ⟨_, hbody, _, -, _, -, publicKey, hkey, signature, -, h⟩ := h
  cases (assertPlainRecord_ok.1 hbody).1
  cases h
  exact ⟨publicKey, signature, hkey, rfl, rfl⟩

/-- **What a completion has checked.** -/
theorem checkCompletion_ok {s : RelayState} {env : RelayEnv} {body : Json} {id : JsString} {pending : PendingChallenge}
    (h : checkCompletion P s env body = .ok (id, pending)) : s.pairingChallenges.get id = some pending ∧
      dateLe P (textOf pending.challenge "expires_at") (env.now 0) = false ∧
      ∃ signature, verifySignature P pending.challenge signature pending.publicKey = true := by
  simp only [checkCompletion, Except.bind_eq_ok] at h
  obtain ⟨_, -, _, -, _, -, challengeId, -, h⟩ := h
  cases hpending : s.pairingChallenges.get challengeId with
  | none =>
    rw [hpending] at h
    cases h
  | some found =>
    rw [hpending] at h
    simp only [Except.bind_eq_ok, failIf_ok, Bool.not_eq_true, not_not] at h
    obtain ⟨⟨⟩, hexpired, publicKey, -, ⟨⟩, hkey, ⟨⟩, hsignature, h⟩ := h
    cases h
    rw [hkey, Bool.not_eq_false] at hsignature
    exact ⟨hpending, hexpired, _, hsignature⟩

theorem completePairing_ok {s t : RelayState} {env : RelayEnv} {body pairing : Json}
    (h : completePairing P s env body = .ok (pairing, t)) : ∃ id pending signature, checkCompletion P s env body = .ok (id, pending) ∧
      pairing = signed (pairingJson P s.node.node_id id pending.publicKey (env.now 1)) signature ∧
      t = { s with pairings := s.pairings.set (textOf pairing "pairing_id") pairing,
                   pairingChallenges := s.pairingChallenges.delete id } := by
  simp only [completePairing, Except.bind_eq_ok] at h
  obtain ⟨⟨id, pending⟩, hcheck, signature, -, h⟩ := h
  cases h
  exact ⟨id, pending, signature, hcheck, rfl, rfl⟩

theorem handle_challenge {s t : RelayState} {env : RelayEnv} {req : RelayRequest} {body challenge : Json}
    (hroute : req.IsFor "/pairing/challenge") (hbody : req.body = .ok body)
    (h : createPairingChallenge P s env body = .ok (challenge, t)) :
    handleRelayRequest P s env req = (.json 201 (ok [(js "challenge", challenge)]), t) := by
  simp only [handleRelayRequest, route, hroute.1, hroute.2, js_inj, hbody, h, bind, Except.bind, pure, Except.pure, reduceIte,
    String.reduceEq, false_and, and_false, and_self]

theorem handle_complete {s t : RelayState} {env : RelayEnv} {req : RelayRequest} {body pairing : Json}
    (hroute : req.IsFor "/pairing/complete") (hbody : req.body = .ok body)
    (h : completePairing P s env body = .ok (pairing, t)) :
    handleRelayRequest P s env req = (.json 201 (ok [(js "pairing", pairing)]), t) := by
  simp only [handleRelayRequest, route, hroute.1, hroute.2, js_inj, hbody, h, bind, Except.bind, pure, Except.pure, reduceIte,
    String.reduceEq, false_and, and_false, and_self]

/-! ## Tickets -/

/-- The request is given a challenge. -/
def Issues (P : Platform) (s : RelayState) (input : RelayEnv × RelayRequest) (id : JsString) (pending : PendingChallenge) : Prop :=
  input.2.IsFor "/pairing/challenge" ∧ ∃ body challenge t signature, input.2.body = .ok body ∧
    createPairingChallenge P s input.1 body = .ok (challenge, t) ∧ challenge = signed pending.challenge signature ∧
    pending = openChallenge P s input.1 pending.publicKey ∧ id = challengeId P s input.1 pending.publicKey ∧
    t.pairingChallenges = s.pairingChallenges.set id pending

/-- The request completes a challenge and makes a pairing. -/
def Completes (P : Platform) (s : RelayState) (input : RelayEnv × RelayRequest) (id : JsString) (pairing : Json) : Prop :=
  input.2.IsFor "/pairing/complete" ∧ ∃ body t, input.2.body = .ok body ∧
    completePairing P s input.1 body = .ok (pairing, t) ∧ textOf pairing "challenge_id" = id

@[simp] theorem textOf_signed_challenge_id {node_id id publicKey issuedAt : JsString} {signature : Json} :
    textOf (signed (pairingJson P node_id id publicKey issuedAt) signature) "challenge_id" = id :=
  textOf_of_get (by simp [signed_get, pairingJson])

/-- **Challenges are tickets.** -/
theorem challenge_laws : Ticket.Laws (step P) (fun s id => s.pairingChallenges.get id) (Issues P)
    (fun s input id => ∃ pairing, Completes P s input id pairing) where
  issued s input t id pending hstep h := by
    obtain ⟨hroute, body, challenge, t', _, hbody, hcreated, -, -, -, ht⟩ := h
    rw [step, handle_challenge hroute hbody hcreated] at hstep
    cases hstep
    simp [ht]
  redeemed s input t id hstep h := by
    obtain ⟨pairing, hroute, body, t', hbody, hcompleted, hid⟩ := h
    rw [step, handle_complete hroute hbody hcompleted] at hstep
    cases hstep
    obtain ⟨id', pending, signature, hcheck, rfl, rfl⟩ := completePairing_ok hcompleted
    rw [textOf_signed_challenge_id] at hid
    obtain rfl := hid
    exact ⟨⟨pending, (checkCompletion_ok hcheck).1⟩, by simp⟩
  kept s input t id hstep hissues hredeems := by
    have hserved := served (P := P) s input.1 input.2
    rw [Option.some.inj hstep] at hserved
    generalize (handleRelayRequest P s input.1 input.2).1 = reply at hserved
    cases hserved with
    | unchanged => rfl
    | push => rfl
    | witness => rfl
    | challenge hroute hbody hissued =>
      obtain ⟨publicKey, signature, -, hchallenge, rfl⟩ := createPairingChallenge_ok hissued
      have hid : id ≠ challengeId P s input.1 publicKey := by
        rintro rfl
        exact hissues (openChallenge P s input.1 publicKey)
          ⟨hroute, _, _, _, signature, hbody, hissued, hchallenge, rfl, rfl, rfl⟩
      simp [hid]
    | complete hroute hbody hcompleted =>
      obtain ⟨id', pending, signature, hcheck, rfl, rfl⟩ := completePairing_ok hcompleted
      have hid : id ≠ id' := by
        rintro rfl
        exact hredeems ⟨_, hroute, _, _, hbody, hcompleted, textOf_signed_challenge_id⟩
      simp [hid]

/-- A pairing is stored under its identifier, and none is ever deleted. -/
theorem pairing_laws : Ticket.Laws (step P) (fun s id => s.pairings.get id)
    (fun s input id pairing => textOf pairing "pairing_id" = id ∧ ∃ challengeId, Completes P s input challengeId pairing)
    (fun _ _ _ => False) where
  issued s input t id pairing hstep h := by
    obtain ⟨rfl, _, hroute, body, t', hbody, hcompleted, -⟩ := h
    rw [step, handle_complete hroute hbody hcompleted] at hstep
    cases hstep
    obtain ⟨_, _, _, -, -, rfl⟩ := completePairing_ok hcompleted
    simp
  redeemed _ _ _ _ _ h := h.elim
  kept s input t id hstep hissues _ := by
    have hserved := served (P := P) s input.1 input.2
    rw [Option.some.inj hstep] at hserved
    generalize (handleRelayRequest P s input.1 input.2).1 = reply at hserved
    cases hserved with
    | unchanged => rfl
    | push => rfl
    | witness => rfl
    | challenge _ _ hissued =>
      obtain ⟨_, rfl⟩ := createPairingChallenge_frame hissued
      rfl
    | @complete body pairing _ hroute hbody hcompleted =>
      obtain ⟨_, _, _, -, hpairing, rfl⟩ := completePairing_ok hcompleted
      have hid : id ≠ textOf pairing "pairing_id" := by
        rintro rfl
        exact hissues _ ⟨rfl, _, hroute, _, _, hbody, hcompleted, rfl⟩
      simp [hid]

/-! ## Runs -/

/-- **A pairing and its challenge.** The challenge was given to request `m` for a public key, and request
`n` completed it: it was open until then, the clock had not reached its end, and the holder of the key
had signed it (`Made`). A clock that gives no date gives no time. -/
structure Pairs (P : Platform) (Made : JsString → JsString → Prop) (s : RelayState) (inputs : List (RelayEnv × RelayRequest))
    (m n : ℕ) (challenge : Json) (publicKey : JsString) (pairing : Json) : Prop where
  stems : Ticket.Stems (step P) (Issues P) (fun s input id => ∃ pairing, Completes P s input id pairing) s inputs m n
    (textOf pairing "challenge_id") ⟨challenge, publicKey⟩
  completes : ∃ u input, Run.run (step P) s (inputs.take n) = some u ∧ inputs[n]? = some input ∧
    Completes P u input (textOf pairing "challenge_id") pairing ∧
    ∃ expires, P.parseDate (textOf challenge "expires_at") = some expires ∧
      ∀ now, P.parseDate (input.1.now 0) = some now → now < expires
  challenge_key : challenge.get (js "client_public_key") = some (.str publicKey)
  pairing_key : pairing.get (js "client_public_key") = some (.str publicKey)
  made : Made publicKey (challenge.canonicalize P.toNumberFormat)

theorem Issues.functional {s : RelayState} {input : RelayEnv × RelayRequest} {id id' : JsString} {pending pending' : PendingChallenge}
    (h : Issues P s input id pending) (h' : Issues P s input id' pending') : id = id' := by
  obtain ⟨-, body, challenge, t, signature, hbody, hcreated, hchallenge, hpending, hid, -⟩ := h
  obtain ⟨-, body', challenge', t', signature', hbody', hcreated', hchallenge', hpending', hid', -⟩ := h'
  cases hbody.symm.trans hbody'
  cases hcreated.symm.trans hcreated'
  have htext : ∀ (p : PendingChallenge) (key : JsString) (sig : Json), p = openChallenge P s input.1 key →
      (signed p.challenge sig).get (js "challenge_id") = some (.str (challengeId P s input.1 key)) := by
    rintro _ key sig rfl
    simp [signed_get, openChallenge, challengeId, challengeJson, textOf]
  have hget := htext _ _ signature hpending
  rw [← hchallenge, hchallenge', htext _ _ signature' hpending'] at hget
  rw [hid, hid']
  simpa using hget.symm

theorem Completes.functional {s : RelayState} {input : RelayEnv × RelayRequest} {id id' : JsString} {pairing pairing' : Json}
    (h : Completes P s input id pairing) (h' : Completes P s input id' pairing') : pairing = pairing' := by
  obtain ⟨-, body, t, hbody, hcompleted, -⟩ := h
  obtain ⟨-, body', t', hbody', hcompleted', -⟩ := h'
  cases hbody.symm.trans hbody'
  cases hcompleted.symm.trans hcompleted'
  rfl

/-- The end of a challenge is a date. -/
theorem expires_openChallenge (s : RelayState) (env : RelayEnv) (publicKey : JsString) :
    ∃ expires, P.parseDate (textOf (openChallenge P s env publicKey).challenge "expires_at") = some expires := by
  refine ⟨(P.parseDate (env.now 0)).getD env.time + s.challengeTtlMs, ?_⟩
  rw [textOf_of_get (t := futureIso P env.time (env.now 0) s.challengeTtlMs) (by simp [openChallenge, challengeJson]), futureIso]
  exact P.isoText_parse _

variable {Made : JsString → JsString → Prop} {o : RelayOptions} {inputs : List (RelayEnv × RelayRequest)} {s t : RelayState}

/-- **A completed request has its challenge.** -/
theorem exists_pairs (hunforgeable : ∀ publicKey text signature, P.verify publicKey text signature = true → Made publicKey text)
    (hs : s.pairingChallenges = OrdMap.empty) (hrun : Run.run (step P) s inputs = some t) {u : RelayState}
    {input : RelayEnv × RelayRequest} {n : ℕ} {pairing : Json} (hu : Run.run (step P) s (inputs.take n) = some u)
    (hinput : inputs[n]? = some input) (h : Completes P u input (textOf pairing "challenge_id") pairing) :
    ∃ m challenge publicKey, Pairs P Made s inputs m n challenge publicKey pairing := by
  have hopen : ∀ id, s.pairingChallenges.get id = none := fun id => by rw [hs, OrdMap.get_empty]
  obtain ⟨m, pending, u', hstems, hu', hpending⟩ := Ticket.redeemed_stems challenge_laws hopen hrun ⟨u, input, hu, hinput, pairing, h⟩
  obtain rfl : u = u' := Option.some.inj (hu.symm.trans hu')
  -- what the completion has looked up is what was issued
  have hcompletes := h
  obtain ⟨-, body, w, -, hcompleted, -⟩ := h
  obtain ⟨id, found, signature, hcheck, hpairing, -⟩ := completePairing_ok hcompleted
  obtain ⟨hfound, hexpired, sent, hverified⟩ := checkCompletion_ok hcheck
  have hid : textOf pairing "challenge_id" = id := by rw [hpairing, textOf_signed_challenge_id]
  rw [hid] at hpending
  obtain rfl : found = pending := Option.some.inj (hfound.symm.trans hpending)
  obtain ⟨u₀, input₀, -, -, -, _, _, _, _, -, -, -, hissued, -, -⟩ := hstems.issue
  obtain ⟨expires, hexpires⟩ := expires_openChallenge (P := P) u₀ input₀.1 found.publicKey
  rw [← hissued] at hexpires
  refine ⟨m, found.challenge, found.publicKey, hstems, ⟨u, input, hu, hinput, hcompletes, expires, hexpires, ?_⟩, ?_, ?_, ?_⟩
  · intro now hnow
    rw [dateLe, hexpires, hnow] at hexpired
    simpa using hexpired
  · rw [hissued]
    simp [openChallenge, challengeJson]
  · rw [hpairing]
    simp [signed_get, pairingJson]
  · unfold verifySignature at hverified
    simp only at hverified
    split at hverified
    · exact hunforgeable _ _ _ hverified
    · cases hverified

/-- **Pairings are safe.** Every pairing that a relay keeps was made by a request that completed a
challenge for its key, in time and with the signature of that key; the challenge is determined, and
no challenge is completed twice. -/
theorem pairing_safe (P : Platform) (Made : JsString → JsString → Prop)
    (hunforgeable : ∀ publicKey text signature, P.verify publicKey text signature = true → Made publicKey text)
    (o : RelayOptions) (inputs : List (RelayEnv × RelayRequest)) (s t : RelayState) (hcreated : createRelayState P o = .ok s)
    (hrun : Run.run (step P) s inputs = some t) :
    (∀ id pairing, t.pairings.get id = some pairing → ∃ m n challenge publicKey, Pairs P Made s inputs m n challenge publicKey pairing ∧
      -- and no later request has stored a pairing under that name
      ∀ m' n' challenge' publicKey' pairing', Pairs P Made s inputs m' n' challenge' publicKey' pairing' →
        textOf pairing' "pairing_id" = id → n' ≤ n) ∧
    (∀ m m' n challenge challenge' publicKey publicKey' pairing pairing', Pairs P Made s inputs m n challenge publicKey pairing →
      Pairs P Made s inputs m' n challenge' publicKey' pairing' → m = m' ∧ pairing = pairing') ∧
    ∀ m n n' challenge challenge' publicKey publicKey' pairing pairing', Pairs P Made s inputs m n challenge publicKey pairing →
      Pairs P Made s inputs m n' challenge' publicKey' pairing' → n = n' ∧ pairing = pairing' := by
  obtain ⟨value, hfresh⟩ := createRelayState_ok hcreated
  have hsame : ∀ {m m' n challenge challenge' publicKey publicKey' pairing pairing'}, Pairs P Made s inputs m n challenge publicKey pairing →
      Pairs P Made s inputs m' n challenge' publicKey' pairing' → pairing = pairing' := by
    intro m m' n challenge challenge' publicKey publicKey' pairing pairing' h h'
    obtain ⟨u, input, hu, hinput, hcompletes, -⟩ := h.completes
    obtain ⟨u', input', hu', hinput', hcompletes', -⟩ := h'.completes
    cases hu.symm.trans hu'
    cases hinput.symm.trans hinput'
    exact hcompletes.functional hcompletes'
  refine ⟨?_, ?_, ?_⟩
  · intro id pairing hpairing
    have hnone : ∀ id, s.pairings.get id = none := fun id => by rw [hfresh.pairings, OrdMap.get_empty]
    obtain ⟨n, -, ⟨u, input, hu, hinput, hid, challengeId, hcompletes⟩, huntouched⟩ :=
      Ticket.open_issued pairing_laws hnone inputs t hrun id pairing hpairing
    have hcompletes' : Completes P u input (textOf pairing "challenge_id") pairing := by
      obtain ⟨hroute, body, w, hbody, hcompleted, -⟩ := hcompletes
      exact ⟨hroute, body, w, hbody, hcompleted, rfl⟩
    obtain ⟨m, challenge, publicKey, hpairs⟩ := exists_pairs hunforgeable hfresh.pairingChallenges hrun hu hinput hcompletes'
    refine ⟨m, n, challenge, publicKey, hpairs, ?_⟩
    intro m' n' challenge' publicKey' pairing' hpairs' hid'
    obtain ⟨u', input', hu', hinput', hlater, -⟩ := hpairs'.completes
    have hlength : n' < inputs.length := (List.getElem?_eq_some_iff.1 hinput').1
    by_contra hnn'
    exact (huntouched n' (by omega) hlength).1 pairing' ⟨u', input', hu', hinput', hid', _, hlater⟩
  · intro m m' n challenge challenge' publicKey publicKey' pairing pairing' h h'
    obtain rfl := hsame h h'
    exact ⟨h.stems.unique h'.stems, rfl⟩
  · intro m n n' challenge challenge' publicKey publicKey' pairing pairing' h h'
    obtain ⟨u, input, hu, hinput, hissues⟩ := h.stems.issue
    obtain ⟨u', input', hu', hinput', hissues'⟩ := h'.stems.issue
    cases hu.symm.trans hu'
    cases hinput.symm.trans hinput'
    have hstems := h'.stems
    rw [← hissues.functional hissues'] at hstems
    obtain rfl := h.stems.once hstems
    exact ⟨rfl, hsame h h'⟩

/-- Two challenges for one key, of which the first is completed. -/
theorem pairing_safe_two : ∃ s t, createRelayState reference (newYearRelay false) = .ok s ∧
    (let key : JsString × Json := (js "public_key", .str Reference.publicKey)
     let challenge := challengeJson reference s newYearEnv Reference.publicKey
     let inputs := [(newYearEnv, bareRequest "/pairing/challenge" (.obj [key])), (newYearEnv, bareRequest "/pairing/challenge" (.obj [key])),
       (newYearEnv, bareRequest "/pairing/complete" (.obj [(js "challenge_id", .str (textOf challenge "challenge_id")), key,
         (js "signature", .str (Reference.sign (challenge.canonicalize reference.toNumberFormat)))]))]
     let Made := fun publicKey text => ∃ signature, reference.verify publicKey text signature = true
     Run.run (step reference) s inputs = some t ∧
      (∀ id pairing, t.pairings.get id = some pairing → ∃ m n challenge publicKey, Pairs reference Made s inputs m n challenge publicKey pairing ∧
        ∀ m' n' challenge' publicKey' pairing', Pairs reference Made s inputs m' n' challenge' publicKey' pairing' →
          textOf pairing' "pairing_id" = id → n' ≤ n) ∧
      (∀ m m' n challenge challenge' publicKey publicKey' pairing pairing', Pairs reference Made s inputs m n challenge publicKey pairing →
        Pairs reference Made s inputs m' n challenge' publicKey' pairing' → m = m' ∧ pairing = pairing') ∧
      ∀ m n n' challenge challenge' publicKey publicKey' pairing pairing', Pairs reference Made s inputs m n challenge publicKey pairing →
        Pairs reference Made s inputs m n' challenge' publicKey' pairing' → n = n' ∧ pairing = pairing') := by
  obtain ⟨s, hs⟩ := exists_newYearRelay false
  obtain ⟨t, ht⟩ := exists_run (P := reference) s _
  exact ⟨s, t, hs, ht, pairing_safe reference _ (fun _ _ signature h => ⟨signature, h⟩) (newYearRelay false) _ s t hs ht⟩

end EnigmaMemory.Relay
