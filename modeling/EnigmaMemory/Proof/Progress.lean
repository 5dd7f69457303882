import EnigmaMemory.Proof.Frame

/-!
# Calls that succeed

A call whose arguments pass its own checks fails only where `appendEvent` refuses the
event. `Signer` says what a vault needs for its events to be signed and accepted; with it
the calls below succeed as soon as their own checks pass.
-/

namespace EnigmaMemory

open Json

variable {P : Platform} {v v' : Vault} {sk : JsString} {env : Ambient}

/-! ## Total correctness of statements -/

section Statements

variable {α β : Type}

/-- A call that does not throw. -/
def Succeeds (m : VaultM α) (v : Vault) : Prop := ∃ a v', m v = .ok a v'

theorem succeeds_pure (a : α) : Succeeds (pure a : VaultM α) v := ⟨a, v, rfl⟩

theorem succeeds_get_bind {f : Vault → VaultM β} (h : Succeeds (f v) v) : Succeeds (get >>= f) v := h

theorem succeeds_modify_bind {g : Vault → Vault} {f : Unit → VaultM β} (h : Succeeds (f ()) (g v)) :
    Succeeds (modify g >>= f) v := h

theorem succeeds_ofExcept_bind {x : Except JsError α} {f : α → VaultM β} {a : α} (hx : x = .ok a)
    (h : Succeeds (f a) v) : Succeeds (ofExcept x >>= f) v := by
  obtain ⟨b, v', h⟩ := h
  exact ⟨b, v', ofExcept_bind_ok.2 ⟨a, hx, h⟩⟩

theorem succeeds_refuse_bind {c : Bool} {m : JsString} {f : Unit → VaultM β} (hc : c = false) (h : Succeeds (f ()) v) :
    Succeeds (refuse c m >>= f) v := by
  obtain ⟨b, v', h⟩ := h
  exact ⟨b, v', refuse_bind_ok.2 ⟨hc, h⟩⟩

theorem succeeds_append_bind {env : Ambient} {f : EventFields} {k : Entry → VaultM β} (he : ∃ e, nextEntry P env v f = .ok e)
    (h : ∀ e, Succeeds (k e) (pushEntry P v e)) : Succeeds (appendEvent P env f >>= k) v := by
  obtain ⟨e, he⟩ := he
  obtain ⟨b, v', h⟩ := h e
  exact ⟨b, v', append_bind_ok.2 ⟨e, he, h⟩⟩

theorem succeeds_bind_of_ok {m : VaultM α} {f : α → VaultM β} {a : α} {w : Vault} (hm : m v = .ok a w)
    (h : Succeeds (f a) w) : Succeeds (m >>= f) v := by
  obtain ⟨b, v', h⟩ := h
  exact ⟨b, v', EStateM.bind_eq_ok.2 ⟨a, w, hm, h⟩⟩

end Statements

/-! ## Vaults that can sign -/

/-- A vault that can sign for itself: its private key works, and its tenant and its signer
are values that a receipt accepts. -/
structure Signer (P : Platform) (sk : JsString) (v : Vault) : Prop where
  key : v.signingKeyPair.privateKey = some sk
  signs : Signs P sk
  tenant_id : Named P (some v.tenant_id)
  signer : ∃ s, normalizeSigner P (some v.signer) none (some sk) = .ok s ∧ containsPlaintextMarker P.toNumberFormat s = false
  sequence : 0 ≤ v.sequence

theorem Grows.signer_ok (h : Grows v v') (hs : Signer P sk v) : Signer P sk v' :=
  ⟨h.signingKeyPair ▸ hs.key, hs.signs, h.tenant_id ▸ hs.tenant_id, h.signer ▸ hs.signer,
    hs.sequence.trans h.sequence⟩

theorem Named.harmless {x : Option Json} (h : Named P x) : Harmless P.toNumberFormat x := by
  obtain ⟨s, rfl, -, hs⟩ := h
  exact harmless_some.2 hs

/-- A vault with the identity of another. -/
structure SameSigner (v w : Vault) : Prop where
  key : w.signingKeyPair = v.signingKeyPair
  tenant_id : w.tenant_id = v.tenant_id
  signer : w.signer = v.signer
  sequence : w.sequence = v.sequence

/-- The events of a vault that can sign are accepted if their own values are, whatever
has been written to its memories before. -/
theorem Signer.accepts (h : Signer P sk v) {w : Vault} {f : EventFields} (hw : SameSigner v w)
    (hop : Named P (some f.operation)) (htenant : f.tenant_id = none)
    (hsubject : Named P (orElse f.subject_id (some w.subject_id))) (haddr : Harmless P.toNumberFormat f.memory_addr)
    (hsource : Harmless P.toNumberFormat f.source_addr) (hprovider : Harmless P.toNumberFormat f.provider)
    (hmodel : Harmless P.toNumberFormat f.model)
    (hpolicy : Harmless P.toNumberFormat (orElse f.policy_id (some w.policy_id))) (hnow : f.now.Valid P) :
    ∃ e, nextEntry P env w f = .ok e := by
  refine (nextEntry_accepted_iff (hw.key ▸ h.key) h.signs).2 ⟨hnow, hop, ?_, hsubject, hw.sequence ▸ h.sequence,
    hw.signer ▸ h.signer, haddr, hsource, hprovider, hmodel, hpolicy⟩
  rw [htenant, hw.tenant_id]
  exact h.tenant_id

theorem harmless_none {F : NumberFormat} : Harmless F none := by simp [Harmless]

theorem named_js {s : String} (hne : js s ≠ []) (hs : marked (jsonQuote (js s)) = false) : Named P (some (.str (js s))) := by
  refine ⟨_, rfl, hne, ?_⟩
  rwa [containsPlaintextMarker_eq, stringify]

theorem marker_signerJson (F : NumberFormat) (pk : JsString) :
    containsPlaintextMarker F (signerJson (keyIdOf pk) ed25519) = false := by
  have h1 : marked (jsonQuote (js "key_id") ++ [0x3A]) = false := by decide
  have h2 : marked (jsonQuote (js "alg") ++ [0x3A]) = false := by decide
  have h3 : containsPlaintextMarker F (.str (keyIdOf pk)) = false := marker_digest (by decide) (isHash_sha256Hex _) 32
  have h4 : containsPlaintextMarker F ed25519 = false := marker_str (by decide)
  rw [signerJson, marker_obj]
  simp [h1, h2, h3, h4]

/-- A vault that makes its own signing key can sign, if its tenant has a name. -/
theorem Created.canSign {args : CreateArgs} (h : Created P env args v) (hpair : args.signingKeyPair = none)
    (hsigner : args.signer = none) (hsk : v.signingKeyPair.privateKey = some sk) (hsigns : Signs P sk)
    (htenant : Named P (some v.tenant_id)) : Signer P sk v := by
  obtain ⟨pk, hok⟩ := h.ownSigner hpair hsigner
  exact ⟨hsk, hsigns, htenant, ⟨_, hok _, marker_signerJson _ _⟩, by rw [h.sequence]⟩

/-! ## `remember` -/

theorem remember_ok (h : Signer P sk v) {args : RememberArgs} {content : Json} (hcontent : args.content = some content)
    (hnull : content ≠ .null) (hnow : args.now.Valid P)
    (hfree : v.tombstones.has (rememberTarget P v env args content) = false)
    (hsubject : Named P (some (withDefault args.subject_id v.subject_id)))
    (hpolicy : Harmless P.toNumberFormat (orElse args.policy_id (some v.policy_id))) :
    Succeeds (remember P env args) v := by
  obtain ⟨createdAt, hcreated⟩ := (nowIso_ok_iff (env.clock 0)).2 hnow
  unfold remember
  refine succeeds_get_bind (succeeds_ofExcept_bind (required_ok.2 ⟨hcontent, hnull⟩) ?_)
  refine succeeds_ofExcept_bind hcreated (succeeds_refuse_bind hfree (succeeds_modify_bind ?_))
  refine succeeds_append_bind ?_ fun e => succeeds_pure _
  -- the record and the active address do not matter to the event
  refine h.accepts ?_ ?_ rfl ?_ ?_ ?_ ?_ ?_ hpolicy hnow
  · exact ⟨rfl, rfl, rfl, rfl⟩
  · exact named_js (by decide) (by decide)
  · obtain ⟨s, hs, hs'⟩ := hsubject
    exact ⟨s, by rw [hs]; rfl, hs'⟩
  · exact harmless_some.2 (marker_str (isQuiet_memoryAddress _ _ _ _))
  · exact harmless_none
  · exact harmless_none
  · exact harmless_none

/-! ## `updateMemory` and `deleteMemory` -/

/-- What an event about a memory of the vault needs. -/
structure Writable (P : Platform) (v : Vault) (policy : Option Json) (now : Now) : Prop where
  now : now.Valid P
  subject_id : Named P (some v.subject_id)
  policy_id : Harmless P.toNumberFormat (orElse policy (some v.policy_id))

theorem updateMemory_ok (h : Signer P sk v) {args : UpdateArgs} {addr : JsString} {content : Json}
    (haddr : args.memory_addr = some addr) (hne : addr ≠ []) (hquiet : addr.all isQuiet = true)
    (hcontent : args.content = some content) (hnull : content ≠ .null) (hlive : Live v addr)
    (hknown : v.memories.has addr = true) (hw : Writable P v args.policy_id args.now) :
    Succeeds (updateMemory P env args) v := by
  obtain ⟨first, hfirst⟩ := (nowIso_ok_iff (env.clock 0)).2 hw.now
  obtain ⟨second, hsecond⟩ := (nowIso_ok_iff (env.clock 1)).2 hw.now
  unfold updateMemory
  refine succeeds_get_bind (succeeds_ofExcept_bind (requiredAddr_ok.2 ⟨haddr, hne⟩) ?_)
  refine succeeds_ofExcept_bind (required_ok.2 ⟨hcontent, hnull⟩) (succeeds_refuse_bind ?_ (succeeds_refuse_bind ?_ ?_))
  · simp [hlive.free, hlive.active]
  · simp [hknown]
  refine succeeds_modify_bind (succeeds_ofExcept_bind hfirst (succeeds_modify_bind ?_))
  refine succeeds_ofExcept_bind hsecond (succeeds_modify_bind (succeeds_append_bind ?_ fun e => succeeds_pure _))
  refine h.accepts ?_ ?_ rfl hw.subject_id ?_ ?_ ?_ ?_ hw.policy_id hw.now
  · exact ⟨rfl, rfl, rfl, rfl⟩
  · exact named_js (by decide) (by decide)
  · exact harmless_some.2 (marker_str (isQuiet_memoryAddress _ _ _ _))
  · exact harmless_some.2 (marker_str hquiet)
  · exact harmless_none
  · exact harmless_none

theorem retireRecord_succeeds (time : ℤ) {now : Now} (addr : JsString) (hnow : now.Valid P) :
    Succeeds (retireRecord P time now addr) v := by
  obtain ⟨updatedAt, hupdated⟩ := (nowIso_ok_iff time).2 hnow
  unfold retireRecord
  refine succeeds_get_bind ?_
  cases v.memories.get addr with
  | none => exact succeeds_pure _
  | some record =>
    refine succeeds_modify_bind (succeeds_ofExcept_bind hupdated ?_)
    exact ⟨_, _, rfl⟩

theorem deleteMemory_ok (h : Signer P sk v) {args : DeleteArgs} {addr : JsString} (haddr : args.memory_addr = some addr)
    (hne : addr ≠ []) (hquiet : addr.all isQuiet = true) (hlive : Live v addr)
    (hw : Writable P v args.policy_id args.now) : Succeeds (deleteMemory P env args) v := by
  obtain ⟨second, hsecond⟩ := (nowIso_ok_iff (env.clock 1)).2 hw.now
  unfold deleteMemory
  refine succeeds_get_bind (succeeds_ofExcept_bind (requiredAddr_ok.2 ⟨haddr, hne⟩) ?_)
  refine succeeds_refuse_bind hlive.free (succeeds_refuse_bind (by simp [hlive.active]) ?_)
  obtain ⟨u, w, hretire⟩ := retireRecord_succeeds (v := v) (env.clock 0) addr hw.now
  obtain ⟨updatedAt, rfl⟩ := retireRecord_ok hretire
  refine succeeds_bind_of_ok hretire (succeeds_modify_bind (succeeds_ofExcept_bind hsecond (succeeds_modify_bind ?_)))
  refine succeeds_append_bind ?_ fun e => succeeds_pure _
  refine h.accepts ?_ ?_ rfl hw.subject_id ?_ ?_ ?_ ?_ hw.policy_id hw.now
  · exact ⟨rfl, rfl, rfl, rfl⟩
  · exact named_js (by decide) (by decide)
  · exact harmless_some.2 (marker_str hquiet)
  · exact harmless_none
  · exact harmless_none
  · exact harmless_none

/-! ## `recall` -/

theorem recall_ok (h : Signer P sk v) {args : RecallArgs} {addr content : JsString} (haddr : args.memory_addr = some addr)
    (hne : addr ≠ []) (hquiet : addr.all isQuiet = true) (hop : args.operation = none) (hlive : Live v addr)
    (hactive : isActive (v.memories.get addr) = true)
    (hcontent : decryptContent P v ((v.memories.get addr).getD .null) = .ok content)
    (hprovider : Harmless P.toNumberFormat args.provider) (hmodel : Harmless P.toNumberFormat args.model)
    (hw : Writable P v args.policy_id args.now) : Succeeds (recallMemory P env args) v := by
  unfold recallMemory
  refine succeeds_get_bind (succeeds_ofExcept_bind (requiredAddr_ok.2 ⟨haddr, hne⟩) ?_)
  refine succeeds_refuse_bind hlive.free (succeeds_refuse_bind (by simp [hlive.active]) ?_)
  refine succeeds_refuse_bind (by simp [hactive]) (succeeds_ofExcept_bind hcontent (succeeds_append_bind ?_ fun e => ?_))
  · refine h.accepts ⟨rfl, rfl, rfl, rfl⟩ ?_ rfl hw.subject_id ?_ harmless_none hprovider hmodel hw.policy_id hw.now
    · rw [hop]
      exact named_js (by decide) (by decide)
    · exact harmless_some.2 (marker_str hquiet)
  · exact succeeds_pure _

/-! ## `exportBundle` -/

/-- The keys are always derived: the salt is a fresh one of sixteen bytes. -/
theorem buildKeyring_ok (env : Ambient) (passphrase : Option JsString) : ∃ keyring, buildKeyring P env v passphrase = .ok keyring := by
  unfold buildKeyring
  cases nonEmpty passphrase with
  | none => exact ⟨_, rfl⟩
  | some passphrase =>
    have hsalt : ¬ (P.ofBase64 (P.base64 (env.random 0 16))).length < 8 := by
      rw [P.ofBase64_base64, env.random_length]
      omega
    simp only [deriveKeysFromPassphrase, if_neg hsalt]
    exact ⟨_, rfl⟩

theorem exportBundle_ok (h : Signer P sk v) {args : ExportArgs} (hw : Writable P v args.policy_id args.now) :
    Succeeds (exportBundle P env args) v := by
  obtain ⟨exportedAt, hexported⟩ := (nowIso_ok_iff (env.clock 1)).2 hw.now
  unfold exportBundle
  refine succeeds_get_bind (succeeds_append_bind ?_ fun e => ?_)
  · refine h.accepts ?_ ?_ rfl hw.subject_id ?_ ?_ ?_ ?_ hw.policy_id hw.now
    · exact ⟨rfl, rfl, rfl, rfl⟩
    · exact named_js (by decide) (by decide)
    · exact harmless_none
    · exact harmless_none
    · exact harmless_none
    · exact harmless_none
  · obtain ⟨keyring, hkeyring⟩ := buildKeyring_ok (P := P) (v := pushEntry P v e) env args.passphrase
    exact succeeds_get_bind (succeeds_ofExcept_bind hexported (succeeds_ofExcept_bind hkeyring (succeeds_pure _)))

/-! ## `compileContextPack` -/

/-- What the two events for a memory of a pack need. -/
structure Packable (P : Platform) (v : Vault) (addr : JsString) : Prop where
  quiet : addr.all isQuiet = true
  content : ∃ content, decryptContent P v ((v.memories.get addr).getD .null) = .ok content

theorem packEvent_ok (h : Signer P sk v) {args : PackArgs} {operation : String} {packId : Json} {addr : JsString}
    {record : Json} (hop : Named P (some (.str (js operation)))) (hw : Writable P v args.policy_id args.now)
    (hprovider : Harmless P.toNumberFormat args.provider) (hmodel : Harmless P.toNumberFormat args.model)
    (haddr : addr.all isQuiet = true) : ∃ e, nextEntry P env v (packEvent args operation packId addr record) = .ok e := by
  refine h.accepts ⟨rfl, rfl, rfl, rfl⟩ hop rfl hw.subject_id ?_ harmless_none hprovider hmodel hw.policy_id hw.now
  exact harmless_some.2 (marker_str haddr)

theorem packMemories_ok {args : PackArgs} {packId : Json} (hprovider : Harmless P.toNumberFormat args.provider)
    (hmodel : Harmless P.toNumberFormat args.model) (addrs : List JsString) : ∀ (env : Ambient) (v : Vault),
      Signer P sk v → Writable P v args.policy_id args.now → (∀ a ∈ addrs, Packable P v a) →
      Succeeds (packMemories P args packId env addrs) v := by
  induction addrs with
  | nil => exact fun env v _ _ _ => succeeds_pure _
  | cons addr rest ih =>
    intro env v hs hw hp
    obtain ⟨content, hcontent⟩ := (hp addr (by simp)).content
    have hquiet := (hp addr (by simp)).quiet
    rw [packMemories]
    refine succeeds_get_bind (succeeds_ofExcept_bind hcontent (succeeds_append_bind ?_ fun e1 => ?_))
    · exact packEvent_ok hs (named_js (by decide) (by decide)) hw hprovider hmodel hquiet
    have hs1 := (pushEntry_grows (P := P) v e1).signer_ok hs
    have hw1 : Writable P (pushEntry P v e1) args.policy_id args.now := ⟨hw.now, hw.subject_id, hw.policy_id⟩
    refine succeeds_append_bind ?_ fun e2 => ?_
    · exact packEvent_ok hs1 (named_js (by decide) (by decide)) hw1 hprovider hmodel hquiet
    -- the two events leave the records and the keys as they are
    obtain ⟨packed, w, hrest⟩ := ih (env.drop 2) (pushEntry P (pushEntry P v e1) e2)
      ((pushEntry_grows _ e2).signer_ok hs1) ⟨hw.now, hw.subject_id, hw.policy_id⟩
      (fun a ha => ⟨(hp a (by simp [ha])).quiet, (hp a (by simp [ha])).content⟩)
    exact succeeds_bind_of_ok hrest (succeeds_pure _)

/-- A pack of memories that have been selected somehow. -/
theorem compileContextPack_of_selection (h : Signer P sk v) {args : PackArgs} {selected : List JsString} {plan : Json}
    {limit : ℕ} (hlimit : packLimit P args = .ok limit) (hselection : packSelection args v limit = .ok (selected, plan))
    (hreceipts : ∀ t, ∃ receipts, optimizationReceipts args plan t = .ok receipts)
    (hw : Writable P v args.policy_id args.now) (hprovider : Harmless P.toNumberFormat args.provider)
    (hmodel : Harmless P.toNumberFormat args.model)
    (hlive : ∀ a ∈ selected, Live v a ∧ isActive (v.memories.get a) = true)
    (hpack : ∀ a ∈ selected, Packable P v a) : Succeeds (compileContextPack P env args) v := by
  obtain ⟨t0, ht0⟩ := (nowIso_ok_iff (env.clock 0)).2 hw.now
  obtain ⟨t1, ht1⟩ := (nowIso_ok_iff (env.clock 1)).2 hw.now
  have hpassport : ∃ id, passportId P env args = .ok id := by
    unfold passportId
    cases args.passport with
    | some id => exact ⟨id, rfl⟩
    | none =>
      rw [ht0]
      exact ⟨_, rfl⟩
  obtain ⟨id, hid⟩ := hpassport
  have hvalid : selected.flatMap (selectionErrors v) = [] :=
    List.flatMap_eq_nil_iff.2 fun a ha => selectionErrors_eq_nil.2 (hlive a ha)
  obtain ⟨receipts, hreceipts⟩ := hreceipts t1
  unfold compileContextPack
  refine succeeds_get_bind (succeeds_ofExcept_bind hid (succeeds_ofExcept_bind hlimit (succeeds_ofExcept_bind hselection ?_)))
  refine succeeds_refuse_bind (by simp only [hvalid]; rfl) (succeeds_ofExcept_bind ht1 ?_)
  obtain ⟨packed, w, hpacked⟩ := packMemories_ok hprovider hmodel selected (env.drop 2) v h hw hpack
  exact succeeds_bind_of_ok hpacked (succeeds_ofExcept_bind hreceipts (succeeds_get_bind (succeeds_pure _)))

/-- A pack of given addresses without an optimizer. -/
theorem compileContextPack_ok (h : Signer P sk v) {args : PackArgs} {addrs : List JsString} {limit : ℕ}
    (haddrs : args.memory_addresses = some addrs) (hopt : args.optimizer = none) (hlimit : packLimit P args = .ok limit)
    (hw : Writable P v args.policy_id args.now) (hprovider : Harmless P.toNumberFormat args.provider)
    (hmodel : Harmless P.toNumberFormat args.model)
    (hlive : ∀ a ∈ addrs.take limit, Live v a ∧ isActive (v.memories.get a) = true)
    (hpack : ∀ a ∈ addrs.take limit, Packable P v a) : Succeeds (compileContextPack P env args) v := by
  have hselection : packSelection args v limit = .ok (addrs.take limit, .null) := by
    simp only [packSelection, haddrs, hopt, Option.getD_some]
  have hreceipts : ∀ t, ∃ receipts, optimizationReceipts args .null t = .ok receipts := fun t => by
    simp only [optimizationReceipts, hopt]
    exact ⟨_, rfl⟩
  exact compileContextPack_of_selection h hlimit hselection hreceipts hw hprovider hmodel hlive hpack

end EnigmaMemory
