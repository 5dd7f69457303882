import Mathlib.Data.Rat.Floor
import EnigmaMemory.Lib.Result
import EnigmaMemory.Lib.Run
import EnigmaMemory.Proof.EncryptedStore
import EnigmaMemory.Proof.Decimal
import EnigmaMemory.Proof.JsString
import EnigmaMemory.Spec.OAuthServer

/-!
# Authorization codes are redeemed once

A code is looked up and deleted in one go, after the body of the request has been read, so that no
other request comes in between.

* `handleToken_granted`, `handleToken_codes`: what a redemption has checked, and what it does to the
  codes.
* `code_issued`: every code in the store of a run was put there when it was issued.
* `codes_redeemed_once`: every token comes from one earlier issue of its code, by a request with the
  redirect URI and the verifier that belong to it, and no code gives two tokens.
-/

namespace EnigmaMemory.OAuth

open EncryptedStore

/-! ## Texts -/

theorem wellFormed_of_lookup {pairs : List (JsString × JsString)} (h : ∀ p ∈ pairs, isWellFormed p.2 = true) {name v : JsString}
    (hv : pairs.lookup name = some v) : isWellFormed v = true := by
  obtain ⟨before, after, rfl, -⟩ := List.lookup_eq_some_iff.1 hv
  exact h (name, v) (List.mem_append_right _ List.mem_cons_self)

theorem Params.wellFormed_of_get {p : Params} {name : String} {v : JsString} (h : p.get name = some v) : isWellFormed v = true :=
  wellFormed_of_lookup p.wellFormed h

theorem Params.wellFormed_of_field {p : Params} {name : String} {v : JsString} (h : p.field name = some v) :
    isWellFormed v = true :=
  wellFormed_of_lookup (fun q hq => p.wellFormed q (List.mem_reverse.1 hq)) h

theorem base64urlDigit_lt (n : ℕ) : (base64urlDigit n).val < 128 := by
  have hlt : (if n < 26 then 65 + n else if n < 52 then 71 + n else if n < 62 then n - 4 else if n = 62 then 45 else 95) < 128 := by
    split_ifs <;> omega
  exact (Nat.mod_le _ _).trans_lt hlt

theorem isAscii_base64url : ∀ b : Bytes, isAscii (base64url b) = true
  | a :: b :: c :: rest => by simp [base64url, base64urlDigit_lt, isAscii_base64url rest]
  | [a, b] => by simp [base64url, base64urlDigit_lt, isAscii]
  | [a] => by simp [base64url, base64urlDigit_lt, isAscii]
  | [] => rfl

/-- A generated text is its own row. -/
theorem toWellFormed_token (env : Ambient) : toWellFormed (generateOpaqueToken env) = generateOpaqueToken env :=
  toWellFormed_ascii (isAscii_base64url _)

theorem mem_parseScopes {scope : Option JsString} {s : JsString} (h : s ∈ parseScopes scope) :
    s ∈ ALLOWED_SCOPES ∧ s ∈ words (scope.getD []) := by
  rw [parseScopes] at h
  split at h
  · obtain ⟨hwords, hallowed⟩ := List.mem_filter.1 h
    exact ⟨of_decide_eq_true hallowed, hwords⟩
  · exact absurd h List.not_mem_nil

/-! ## Checks -/

theorem replyIf_ok {p : Prop} [Decidable p] {r : Reply} {u : Unit} : replyIf p r = .ok u ↔ ¬ p := by
  rw [replyIf]
  split
  · rename_i hp
    exact iff_of_false (fun h => nomatch h) (fun h => h hp)
  · rename_i hp
    exact iff_of_true rfl hp

theorem replyIf_error {p : Prop} [Decidable p] {r e : Reply} (h : replyIf p r = .error e) : e = r := by
  rw [replyIf] at h
  split at h
  · exact (Except.error.inj h).symm
  · cases h

/-- A reply with status 400. -/
def Refusal (r : Reply) : Prop := ∃ error description, r = oauthError error description

theorem not_refusal {body : Json} : ¬ Refusal (.json 200 body) := by
  rintro ⟨error, description, h⟩
  cases h

/-- A check that refuses, followed by others that do. -/
theorem refusal_bind {p : Prop} [Decidable p] {error description : String} {α : Type} {next : Unit → Except Reply α} {e : Reply}
    (hnext : ∀ e, next () = .error e → Refusal e) (h : (replyIf p (oauthError error description) >>= next) = .error e) : Refusal e := by
  rcases Except.bind_eq_error.1 h with h | ⟨⟨⟩, -, h⟩
  · exact ⟨error, description, replyIf_error h⟩
  · exact hnext e h

theorem refusal_pure {α : Type} {a : α} (e : Reply) (h : (pure a : Except Reply α) = .error e) : Refusal e := nomatch h

theorem readToken_refusal {form : Params} {e : Reply} (h : readToken form = .error e) : Refusal e := by
  rw [readToken] at h
  refine refusal_bind ?_ h
  intro e h
  refine refusal_bind ?_ h
  exact refusal_pure

theorem checkCode_refusal {F : NumberFormat} {now : ℤ} {d : Json} {r : TokenRequest} {e : Reply}
    (h : checkCode F now d r = .error e) : Refusal e := by
  rw [checkCode] at h
  refine refusal_bind (fun e h => refusal_bind (fun e h => refusal_bind (fun e h => refusal_bind (fun e h => ?_) h) h) h) h
  exact ⟨_, _, replyIf_error h⟩

theorem readToken_code {form : Params} {r : TokenRequest} (h : readToken form = .ok r) :
    isWellFormed r.code = true := by
  rw [readToken] at h
  simp only [Except.bind_eq_ok, replyIf_ok] at h
  obtain ⟨⟨⟩, -, ⟨⟩, hpresent, h⟩ := h
  cases h
  simp only
  cases hcode : form.field "code" with
  | none => rfl
  | some v => exact Params.wellFormed_of_field hcode

variable {V : Type} (isUrl : JsString → Bool) (F : NumberFormat)

/-! ## Redemption -/

/-- **What a redemption has checked**, and what is left. -/
theorem handleToken_granted {env : Ambient} {store : EncryptedStore V} {form : Params} {body : Json}
    (h : (handleToken F env store form).1 = .json 200 body) : ∃ r d, readToken form = .ok r ∧
      store.getOAuthCode r.code = some d ∧ checkCode F (nowSeconds env 0) d r = .ok () ∧
      handleToken F env store form = (tokenReply (generateOpaqueToken env) (tokenData d (nowSeconds env 1)),
        (store.deleteOAuthCode r.code).putOAuthToken (generateOpaqueToken env) (tokenData d (nowSeconds env 1))) := by
  unfold handleToken at h ⊢
  cases hr : readToken form with
  | error e =>
    rw [hr] at h
    obtain rfl : e = .json 200 body := h
    exact absurd (readToken_refusal hr) not_refusal
  | ok r =>
    rw [hr] at h
    simp only at h ⊢
    cases hd : store.getOAuthCode r.code with
    | none =>
      rw [hd] at h
      exact absurd ⟨_, _, h.symm⟩ not_refusal
    | some d =>
      rw [hd] at h
      simp only at h ⊢
      split at h
      · exact absurd ⟨_, _, h.symm⟩ not_refusal
      · rename_i htruthy
        rw [if_neg htruthy]
        cases hc : checkCode F (nowSeconds env 0) d r with
        | error e =>
          rw [hc] at h
          obtain rfl : e = .json 200 body := h
          exact absurd (checkCode_refusal hc) not_refusal
        | ok u => exact ⟨r, d, rfl, hd, hc, rfl⟩

/-- A request for a token puts no code into the store. -/
theorem handleToken_codes {env : Ambient} {store : EncryptedStore V} {form : Params} {code : JsString} {d : Json}
    (h : (handleToken F env store form).2.getOAuthCode code = some d) : store.getOAuthCode code = some d := by
  unfold handleToken at h
  split at h
  · exact h
  · split at h
    · exact h
    · split at h
      · exact h
      · simp only at h
        split at h
        · rw [getOAuthCode_deleteOAuthCode] at h
          split at h
          · cases h
          · exact h
        · rw [getOAuthCode_putOAuthToken, getOAuthCode_deleteOAuthCode] at h
          split at h
          · cases h
          · exact h

/-- A request that is not granted leaves the tokens alone. -/
theorem handleToken_rejected {env : Ambient} {store : EncryptedStore V} {form : Params}
    (h : ∀ body, (handleToken F env store form).1 ≠ .json 200 body) (token : JsString) :
    (handleToken F env store form).2.getOAuthToken token = store.getOAuthToken token := by
  unfold handleToken at h ⊢
  split
  · rfl
  · rename_i r hr
    rw [hr] at h
    simp only at h
    split
    · rfl
    · rename_i d hd
      rw [hd] at h
      simp only at h
      split
      · rfl
      · rename_i htruthy
        rw [if_neg htruthy] at h
        cases hc : checkCode F (nowSeconds env 0) d r with
        | error e => exact getOAuthToken_deleteOAuthCode store r.code token
        | ok u =>
          rw [hc] at h
          exact absurd rfl (h _)

/-! ## Codes in a run -/

/-- Where a code in the store was issued. -/
def Issued (history : List Event) (code : JsString) (d : Json) : Prop :=
  ∃ l env params a, l ++ [.authorize env params] <+: history ∧ readAuthorize params = .ok a ∧
    generateOpaqueToken env = toWellFormed code ∧ d = codeData a (nowSeconds env 0)

theorem Issued.mono {l l' : List Event} {code : JsString} {d : Json} (h : Issued l code d) (hl : l <+: l') : Issued l' code d := by
  obtain ⟨m, env, params, a, hm, ha⟩ := h
  exact ⟨m, env, params, a, hm.trans hl, ha⟩

theorem handleAuthorize_codes {env : Ambient} {store : EncryptedStore V} {params : Params} {code : JsString} {d : Json}
    (h : (handleAuthorize isUrl env store params).2.getOAuthCode code = some d) :
    store.getOAuthCode code = some d ∨ ∃ a, readAuthorize params = .ok a ∧ generateOpaqueToken env = toWellFormed code ∧
      d = codeData a (nowSeconds env 0) := by
  unfold handleAuthorize at h
  cases ha : readAuthorize params with
  | error e =>
    rw [ha] at h
    exact .inl h
  | ok a =>
    rw [ha] at h
    simp only [getOAuthCode_putOAuthCode, toWellFormed_token] at h
    split at h
    · rename_i hcode
      exact .inr ⟨a, rfl, hcode.symm, (Option.some.inj h).symm⟩
    · exact .inl h

theorem handleAuthorize_tokens {env : Ambient} {store : EncryptedStore V} {params : Params} (token : JsString) :
    (handleAuthorize isUrl env store params).2.getOAuthToken token = store.getOAuthToken token := by
  unfold handleAuthorize
  split
  · rfl
  · exact getOAuthToken_putOAuthCode store _ token _

/-- A step of the server: a code that it adds is one that it issues. -/
theorem step_codes {s t : State V} {e : Event} (h : step isUrl F s e = some t) {code : JsString} {d : Json}
    (hd : t.store.getOAuthCode code = some d) : s.store.getOAuthCode code = some d ∨
      ∃ env params a, e = .authorize env params ∧ readAuthorize params = .ok a ∧ generateOpaqueToken env = toWellFormed code ∧
        d = codeData a (nowSeconds env 0) := by
  cases e with
  | authorize env params =>
    obtain rfl := Option.some.inj h
    rcases handleAuthorize_codes isUrl hd with hd | ⟨a, ha⟩
    · exact .inl hd
    · exact .inr ⟨env, params, a, rfl, ha⟩
  | tokenArrives request =>
    rw [step, serve] at h
    split at h
    · cases h
    · obtain rfl := Option.some.inj h
      exact .inl hd
  | tokenBody request env form =>
    rw [step, serve] at h
    split at h
    · obtain rfl := Option.some.inj h
      exact .inl (handleToken_codes F hd)
    · cases h

/-- **Every code in the store was issued.** -/
theorem code_issued {s : State V} (hnew : ∀ code, s.store.getOAuthCode code = none) (history : List Event) :
    ∀ t, Run.run (step isUrl F) s history = some t → ∀ code d, t.store.getOAuthCode code = some d → Issued history code d := by
  refine Run.run_history (I := fun history (t : State V) => ∀ code d, t.store.getOAuthCode code = some d → Issued history code d) ?_ ?_ history
  · intro code d hd
    rw [hnew code] at hd
    cases hd
  · intro l u e t _ ih ht code d hd
    rcases step_codes isUrl F ht hd with hd | ⟨env, params, a, rfl, ha⟩
    · exact (ih code d hd).mono (List.prefix_append l [e])
    · exact ⟨l, env, params, a, List.prefix_rfl, ha⟩

/-- A code that is gone stays away until it is issued again. -/
theorem code_gone {code : JsString} (hcode : toWellFormed code = code) : ∀ (events : List Event) (s t : State V),
    s.store.getOAuthCode code = none → code ∉ events.filterMap issuedCode → Run.run (step isUrl F) s events = some t →
    t.store.getOAuthCode code = none := by
  intro events
  induction events with
  | nil =>
    intro s t hs _ h
    exact Option.some.inj h ▸ hs
  | cons e rest ih =>
    intro s t hs hnot h
    obtain ⟨u, hu, h⟩ := Option.bind_eq_some_iff.1 (by rw [Run.run] at h; exact h)
    refine ih u t ?_ (fun hmem => hnot ?_) h
    · rw [Option.eq_none_iff_forall_ne_some]
      intro d hd
      rcases step_codes isUrl F hu hd with hd | ⟨env, params, a, rfl, ha, hgen, -⟩
      · rw [hs] at hd
        cases hd
      · refine hnot (List.mem_filterMap.2 ⟨_, List.mem_cons_self, ?_⟩)
        rw [issuedCode, ha, hgen, hcode]
    · rw [List.filterMap_cons]
      split
      · exact hmem
      · exact List.mem_cons_of_mem _ hmem

/-! ## Redeemed once -/

/-- What ties a token to the issue of its code: the request for the code, when it was issued, and the
request for the token with the time of its check and the token's data. -/
structure Redeemed (params : Params) (a : AuthorizationRequest) (issuedAt : ℤ) (r : TokenRequest) (checkedAt : ℤ)
    (body : Json) : Prop where
  redirectUri : r.redirectUri = a.redirectUri
  verifier : (if a.codeChallengeMethod = js "S256" then sha256 r.codeVerifier else r.codeVerifier) = a.codeChallenge
  client : present r.clientId = true → r.clientId = some a.clientId
  inTime : checkedAt ≤ issuedAt + CODE_TTL_SECONDS
  scope : body.get (js "scope") = some (.str (joinSpace a.grantedScopes))
  granted : ∀ s ∈ a.grantedScopes, s ∈ ALLOWED_SCOPES ∧ s ∈ words ((params.get "scope").getD [])

theorem readAuthorize_scopes {params : Params} {a : AuthorizationRequest} (h : readAuthorize params = .ok a) :
    a.grantedScopes = parseScopes (params.get "scope") := by
  rw [readAuthorize] at h
  simp only [Except.bind_eq_ok, replyIf_ok] at h
  obtain ⟨⟨⟩, -, ⟨⟩, -, ⟨⟩, -, ⟨⟩, -, ⟨⟩, -, h⟩ := h
  cases h
  rfl

/-- The checks, on the data of an issued code. -/
theorem checkCode_ok {params : Params} {a : AuthorizationRequest} (ha : readAuthorize params = .ok a) {issuedAt now : ℤ}
    {r : TokenRequest} (h : checkCode F now (codeData a issuedAt) r = .ok ()) {accessToken : JsString} {tokenAt : ℤ} {body : Json}
    (hbody : tokenReply accessToken (tokenData (codeData a issuedAt) tokenAt) = .json 200 body) :
    Redeemed params a issuedAt r now body := by
  rw [checkCode] at h
  simp only [Except.bind_eq_ok, replyIf_ok] at h
  obtain ⟨⟨⟩, -, ⟨⟩, htime, ⟨⟩, hredirect, ⟨⟩, hclient, hchallenge⟩ := h
  have hredirectUri : (codeData a issuedAt).get (js "redirectUri") = some (.str a.redirectUri) := by simp [codeData]
  have hclientId : (codeData a issuedAt).get (js "clientId") = some (.str a.clientId) := by simp [codeData]
  have hscope : (codeData a issuedAt).get (js "scope") = some (.str (joinSpace a.grantedScopes)) := by simp [codeData]
  have hmethod : (codeData a issuedAt).get (js "codeChallengeMethod") = some (.str a.codeChallengeMethod) := by simp [codeData]
  have hchallengeOf : (codeData a issuedAt).get (js "codeChallenge") = some (.str a.codeChallenge) := by simp [codeData]
  have hexpires : (codeData a issuedAt).get (js "expiresAt") = some (.num ((issuedAt + CODE_TTL_SECONDS : ℤ) : ℚ)) := by
    simp [codeData]
  rw [hredirectUri, Bool.not_eq_true', Bool.not_eq_false, Json.isStr_iff] at hredirect
  rw [hclientId] at hclient
  rw [hchallengeOf, Bool.not_eq_true', Bool.not_eq_false, Json.isStr_iff] at hchallenge
  constructor
  · exact (Json.str.inj (Option.some.inj hredirect)).symm
  · rw [expectedChallenge, hmethod] at hchallenge
    simpa [Json.isStr] using (Json.str.inj (Option.some.inj hchallenge)).symm
  · intro hpresent
    cases hid : r.clientId with
    | none => rw [hid] at hpresent; cases hpresent
    | some id =>
      rw [hpresent, Bool.true_and, Bool.not_eq_true', Bool.not_eq_false, Json.isStr_iff, hid] at hclient
      rw [Json.str.inj (Option.some.inj hclient)]
      rfl
  · rw [less, hexpires, greater_num, decide_eq_true_eq] at htime
    have hle := not_lt.1 htime
    exact_mod_cast hle
  · cases hbody
    simp [tokenData, hscope, Json.get_obj_append]
  · rw [readAuthorize_scopes ha]
    exact fun s hs => mem_parseScopes hs

theorem reply_tokenBody {u : State V} {request : ℕ} {env : Ambient} {form : Params} {r : Reply}
    (h : reply isUrl F u (.tokenBody request env form) = some r) : (handleToken F env u.store form).1 = r ∧
      ∀ w, step isUrl F u (.tokenBody request env form) = some w → w.store = (handleToken F env u.store form).2 := by
  simp only [reply, step, serve] at h ⊢
  by_cases hreading : request ∈ u.reading
  · rw [if_pos hreading] at h ⊢
    refine ⟨Option.some.inj h, ?_⟩
    intro w hw
    rw [← Option.some.inj hw]
  · rw [if_neg hreading] at h
    cases h

/-- **Every token comes from one earlier issue of its code.** -/
theorem granted_issued {s : State V} (hnew : ∀ code, s.store.getOAuthCode code = none) {l : List Event} {u : State V}
    (hu : Run.run (step isUrl F) s l = some u) {request : ℕ} {env : Ambient} {form : Params} {body : Json}
    (hreply : reply isUrl F u (.tokenBody request env form) = some (.json 200 body)) :
    ∃ r l' env' params a, readToken form = .ok r ∧ l' ++ [.authorize env' params] <+: l ∧ readAuthorize params = .ok a ∧
      generateOpaqueToken env' = r.code ∧ Redeemed params a (nowSeconds env' 0) r (nowSeconds env 0) body ∧
      ∀ w, step isUrl F u (.tokenBody request env form) = some w →
        ∃ data, w.store.getOAuthToken (generateOpaqueToken env) = some data ∧ data.get (js "scope") = body.get (js "scope") := by
  obtain ⟨hgranted, hstore⟩ := reply_tokenBody isUrl F hreply
  obtain ⟨r, d, hr, hd, hcheck, heq⟩ := handleToken_granted F hgranted
  obtain ⟨l', env', params, a, hl', ha, hcode, rfl⟩ := code_issued isUrl F hnew l u hu r.code d hd
  rw [toWellFormed_eq_self (readToken_code hr)] at hcode
  rw [heq] at hgranted
  have hredeemed := checkCode_ok F ha hcheck hgranted
  refine ⟨r, l', env', params, a, hr, hl', ha, hcode, hredeemed, ?_⟩
  intro w hw
  rw [hstore w hw, heq]
  refine ⟨_, by rw [getOAuthToken_putOAuthToken, if_pos rfl], ?_⟩
  rw [hredeemed.scope]
  simp [tokenData, codeData, Json.get_obj_append]

/-- The code of a granted request is gone afterwards. -/
theorem granted_gone {u w : State V} {request : ℕ} {env : Ambient} {form : Params} {body : Json}
    (hreply : reply isUrl F u (.tokenBody request env form) = some (.json 200 body))
    (hw : step isUrl F u (.tokenBody request env form) = some w) {r : TokenRequest} (hr : readToken form = .ok r) :
    u.store.getOAuthCode r.code ≠ none ∧ w.store.getOAuthCode r.code = none := by
  obtain ⟨hgranted, hstore⟩ := reply_tokenBody isUrl F hreply
  obtain ⟨r', d, hr', hd, -, heq⟩ := handleToken_granted F hgranted
  obtain rfl : r = r' := Except.ok.inj (hr.symm.trans hr')
  rw [hstore w hw, heq, hd]
  simp

/-- Between two grants for one code the code is issued again. -/
theorem reissued {u w : State V} {m : List Event} {code : JsString} (hcode : isWellFormed code = true)
    (hu : u.store.getOAuthCode code = none) (hm : Run.run (step isUrl F) u m = some w) (hw : w.store.getOAuthCode code ≠ none) :
    code ∈ m.filterMap issuedCode := by
  by_contra hnot
  exact hw (code_gone isUrl F (toWellFormed_eq_self hcode) m u w hu hnot hm)

/-- Of two grants for one code neither comes after the other. -/
theorem granted_not_before {s : State V} (hnew : ∀ code, s.store.getOAuthCode code = none) {events : List Event}
    (hdistinct : (events.filterMap issuedCode).Nodup) {l l' : List Event} {u u' : State V} {request request' : ℕ} {env env' : Ambient}
    {form form' : Params} {body body' : Json} (hl' : l' ++ [.tokenBody request' env' form'] <+: events)
    (hu : Run.run (step isUrl F) s l = some u) (hu' : Run.run (step isUrl F) s l' = some u')
    (hreply : reply isUrl F u (.tokenBody request env form) = some (.json 200 body))
    (hreply' : reply isUrl F u' (.tokenBody request' env' form') = some (.json 200 body'))
    (hcode : (readToken form).map TokenRequest.code = (readToken form').map TokenRequest.code) :
    ¬ l ++ [.tokenBody request env form] <+: l' := by
  rintro ⟨m, rfl⟩
  obtain ⟨r, i, envI, params, a, hr, hi, ha, hissue, -⟩ := granted_issued isUrl F hnew hu hreply
  obtain ⟨r', d', hr', hd', -⟩ := handleToken_granted F (reply_tokenBody isUrl F hreply').1
  have hsame : r.code = r'.code := by
    rw [hr, hr'] at hcode
    exact Except.ok.inj hcode
  rw [Run.run_append] at hu'
  obtain ⟨w, hw, hm⟩ := Option.bind_eq_some_iff.1 hu'
  rw [Run.run_snoc hu] at hw
  have hagain : r.code ∈ m.filterMap issuedCode := by
    refine reissued isUrl F (readToken_code hr) (granted_gone isUrl F hreply hw hr).2 hm ?_
    rw [hsame, hd']
    exact Option.some_ne_none d'
  -- the first issue is before the first grant, the second after it
  have hfirst : r.code ∈ l.filterMap issuedCode := by
    refine List.mem_filterMap.2 ⟨.authorize envI params, hi.subset (by simp), ?_⟩
    rw [issuedCode, ha, hissue]
  have hinit := (List.prefix_append _ _).trans hl'
  have hsub := hinit.sublist.filterMap issuedCode
  rw [List.filterMap_append, List.filterMap_append] at hsub
  exact (List.nodup_append.1 (hdistinct.sublist hsub)).2.2 _ (List.mem_append_left _ hfirst) _ hagain rfl

/-- **Codes are redeemed once, by their holder.** -/
theorem codes_redeemed_once {s : State V} (hnew : ∀ code, s.store.getOAuthCode code = none) {events : List Event}
    (hdistinct : (events.filterMap issuedCode).Nodup) :
    (∀ l u request env form body, l ++ [.tokenBody request env form] <+: events → Run.run (step isUrl F) s l = some u →
      reply isUrl F u (.tokenBody request env form) = some (.json 200 body) →
      ∃ r l' env' params a, readToken form = .ok r ∧ l' ++ [.authorize env' params] <+: l ∧ readAuthorize params = .ok a ∧
        generateOpaqueToken env' = r.code ∧ Redeemed params a (nowSeconds env' 0) r (nowSeconds env 0) body ∧
        ∀ w, step isUrl F u (.tokenBody request env form) = some w →
          ∃ data, w.store.getOAuthToken (generateOpaqueToken env) = some data ∧ data.get (js "scope") = body.get (js "scope")) ∧
    (∀ l u request env form body l' u' request' env' form' body',
      l ++ [.tokenBody request env form] <+: events → Run.run (step isUrl F) s l = some u →
      reply isUrl F u (.tokenBody request env form) = some (.json 200 body) →
      l' ++ [.tokenBody request' env' form'] <+: events → Run.run (step isUrl F) s l' = some u' →
      reply isUrl F u' (.tokenBody request' env' form') = some (.json 200 body') →
      (readToken form).map TokenRequest.code = (readToken form').map TokenRequest.code → l = l') ∧
    ∀ l u w request env form, l ++ [.tokenBody request env form] <+: events → Run.run (step isUrl F) s l = some u →
      step isUrl F u (.tokenBody request env form) = some w →
      (∀ body, reply isUrl F u (.tokenBody request env form) ≠ some (.json 200 body)) →
      ∀ token, w.store.getOAuthToken token = u.store.getOAuthToken token := by
  refine ⟨?_, ?_, ?_⟩
  · intro l u request env form body _ hu hreply
    exact granted_issued isUrl F hnew hu hreply
  · intro l u request env form body l' u' request' env' form' body' hl hu hreply hl' hu' hreply' hcode
    have hnot := granted_not_before isUrl F hnew hdistinct hl' hu hu' hreply hreply' hcode
    have hnot' := granted_not_before isUrl F hnew hdistinct hl hu' hu hreply' hreply hcode.symm
    rcases List.prefix_or_prefix_of_prefix hl hl' with hle | hle
    · rcases List.prefix_concat_iff.1 hle with heq | hlt
      · exact (List.append_inj' heq rfl).1
      · exact absurd hlt hnot
    · rcases List.prefix_concat_iff.1 hle with heq | hlt
      · exact (List.append_inj' heq rfl).1.symm
      · exact absurd hlt hnot'
  · intro l u w request env form _ _ hw hnot token
    cases hreply : reply isUrl F u (.tokenBody request env form) with
    | none =>
      -- a body that nobody waits for
      simp only [reply, step, serve] at hreply hw
      split at hw
      · rename_i hreading
        rw [if_pos hreading] at hreply
        cases hreply
      · cases hw
    | some r =>
      obtain ⟨hr, hstore⟩ := reply_tokenBody isUrl F hreply
      rw [hstore w hw]
      refine handleToken_rejected F (fun body hbody => hnot body ?_) token
      rw [hreply, ← hr, hbody]

/-! ## A token after the expiry of its code -/

/-- A clock and 32 zero bytes. -/
def zeroEnv (clock : ℕ → ℤ) : Ambient where
  clock := clock
  uuid _ := []
  random _ n := List.replicate n 0
  keyPair := ([], [])
  random_length := length_zeros

def lateParams : Params where
  pairs := [(js "response_type", js "code"), (js "client_id", js "c"), (js "redirect_uri", js "u"),
    (js "code_challenge", js "v"), (js "code_challenge_method", js "plain")]
  wellFormed := by decide

def lateForm : Params where
  pairs := [(js "grant_type", js "authorization_code"), (js "code", generateOpaqueToken (zeroEnv fun _ => 0)),
    (js "redirect_uri", js "u"), (js "code_verifier", js "v")]
  wellFormed := by decide

def lateAuthorize : Event := .authorize (zeroEnv fun _ => 0) lateParams

/-- The clock ticks between the check and the issue. -/
def lateEnv : Ambient := zeroEnv fun i => if i = 0 then 600999 else 601000

def lateBody : Event := .tokenBody 0 lateEnv lateForm

theorem readAuthorize_late : readAuthorize lateParams = .ok ⟨js "c", js "u", [], js "v", js "plain", none⟩ := rfl

theorem readToken_late : readToken lateForm = .ok ⟨generateOpaqueToken (zeroEnv fun _ => 0), js "u", js "v", none⟩ := rfl

def lateCode : Json := codeData ⟨js "c", js "u", [], js "v", js "plain", none⟩ 0

/-- The server after the issue of the code, a body being read. -/
def lateState : State Unit :=
  ⟨EncryptedStore.empty.putOAuthCode (generateOpaqueToken (zeroEnv fun _ => 0)) lateCode, [0]⟩

theorem run_late : Run.run (step (fun _ => true) F) ⟨EncryptedStore.empty, []⟩ [lateAuthorize, .tokenArrives 0] = some lateState := rfl

def lateData : Json := tokenData lateCode 601

/-- The body of the reply. -/
def lateReply : Json :=
  .obj ([(js "access_token", .str (generateOpaqueToken lateEnv)), (js "token_type", .str (js "Bearer")),
    (js "expires_in", .num TOKEN_TTL_SECONDS)] ++ Json.field (js "scope") (lateData.get (js "scope")))

theorem reply_late : reply (fun _ => true) F lateState lateBody = some (.json 200 lateReply) := rfl

/-- A code is checked in its last second, and the token issued in the next. -/
theorem issued_after_expiry : ∃ (l : List Event) (u w : State Unit) (request : ℕ) (env : Ambient) (form : Params)
    (r : TokenRequest) (d data body : Json) (expiresAt issuedAt : ℚ),
    Run.run (step (fun _ => true) decimalFormat) ⟨EncryptedStore.empty, []⟩ l = some u ∧
    reply (fun _ => true) decimalFormat u (.tokenBody request env form) = some (.json 200 body) ∧
    step (fun _ => true) decimalFormat u (.tokenBody request env form) = some w ∧ readToken form = .ok r ∧
    u.store.getOAuthCode r.code = some d ∧ d.get (js "expiresAt") = some (.num expiresAt) ∧
    w.store.getOAuthToken (generateOpaqueToken env) = some data ∧ data.get (js "issuedAt") = some (.num issuedAt) ∧
    expiresAt < issuedAt := by
  refine ⟨[lateAuthorize, .tokenArrives 0], lateState, _, 0, lateEnv, lateForm, _, lateCode, lateData, lateReply,
    ((0 + CODE_TTL_SECONDS : ℤ) : ℚ), ((601 : ℤ) : ℚ), run_late decimalFormat, reply_late decimalFormat, rfl, readToken_late, ?_, rfl, ?_, rfl, ?_⟩
  · rw [lateState, getOAuthCode_putOAuthCode, if_pos rfl]
  · rfl
  · exact_mod_cast (by decide : 0 + CODE_TTL_SECONDS < 601)

theorem nodup_late : ([lateAuthorize, .tokenArrives 0, lateBody].filterMap issuedCode).Nodup := List.nodup_singleton _

theorem codes_redeemed_once_late : ∃ r l' env' params a, readToken lateForm = .ok r ∧
    l' ++ [.authorize env' params] <+: [lateAuthorize, .tokenArrives 0] ∧ readAuthorize params = .ok a ∧
    generateOpaqueToken env' = r.code ∧ Redeemed params a (nowSeconds env' 0) r (nowSeconds lateEnv 0) lateReply ∧
    ∀ w, step (fun _ => true) decimalFormat lateState lateBody = some w →
      ∃ data, w.store.getOAuthToken (generateOpaqueToken lateEnv) = some data ∧ data.get (js "scope") = lateReply.get (js "scope") :=
  (codes_redeemed_once (fun _ => true) decimalFormat (s := (⟨EncryptedStore.empty, []⟩ : State Unit)) (fun _ => rfl) nodup_late).1
    [lateAuthorize, .tokenArrives 0] lateState 0 lateEnv lateForm lateReply List.prefix_rfl (run_late decimalFormat)
    (reply_late decimalFormat)

end EnigmaMemory.OAuth
