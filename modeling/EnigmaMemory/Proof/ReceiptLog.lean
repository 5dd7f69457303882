import EnigmaMemory.Lib.HashChain
import EnigmaMemory.Proof.ReceiptChain
import EnigmaMemory.Proof.Reference

/-!
# The receipt log of a vault

Every receipt of a vault is issued over its position, the hash of its predecessor and the
root of the log before it (`Issued`); the last one carries the root of the active set.
A step of any kind keeps this (`step_log`), so it holds after every run.

* `receipt_log_sound`: the log of every run passes `verifyReceiptChain`.
-/

namespace EnigmaMemory

open Relation (ReflTransGen)

variable {P : Platform} {v v' : Vault} {sk : JsString} {ch : Change} {f : EventFields}

/-! ## The log -/

/-- A receipt issued with the private key `sk` at position `i` of a log. -/
structure Issued (P : Platform) (sk : JsString) (log : List Json) (i : ℕ) (b : ReceiptBody) (signature : JsString) :
    Prop where
  valid : b.Valid
  signer : malformed (some b.signer) (js "key_id") = false
  signed : P.sign sk ((b.unsigned P).canonicalize P.toNumberFormat) = .ok signature
  signature_ne : signature ≠ []
  sequence : b.sequence = i
  previous : b.previous_receipt_hash = previousReceiptHash P (log.take i)
  log_root : b.receipt_log_root = computeReceiptLogRootFrom P (log.take i)

/-- The state of a vault with a sound log. -/
structure LogOk (P : Platform) (sk : JsString) (v : Vault) : Prop where
  key : v.signingKeyPair.privateKey = some sk
  signer : ∀ s, normalizeSigner P (some v.signer) none (some sk) = .ok s → malformed (some s) (js "key_id") = false
  sequence : v.sequence = v.receipts.length
  issued : ∀ i r, v.receipts[i]? = some r → ∃ b signature, r = b.signed P signature ∧ Issued P sk v.receipts i b signature
  active : lastActiveSetRoot v.receipts = .ok (some (.str (computeSetRoot v.activeAddresses.elems)))
  roots : v.roots = lifecycleRoots P v

theorem Issued.append {log : List Json} {i : ℕ} {b : ReceiptBody} {signature : JsString} (r : Json)
    (hi : i ≤ log.length) (h : Issued P sk log i b signature) : Issued P sk (log ++ [r]) i b signature := by
  have htake : (log ++ [r]).take i = log.take i := List.take_append_of_le_length hi
  exact ⟨h.valid, h.signer, h.signed, h.signature_ne, h.sequence, htake ▸ h.previous, htake ▸ h.log_root⟩

/-- **A step keeps the log sound.** -/
theorem step_log (hv : LogOk P sk v) (h : Step P v ch f v') : LogOk P sk v' := by
  obtain ⟨env, e, he, rfl⟩ := h.appended
  obtain ⟨i, hi, -, rfl⟩ := nextEntry_ok.1 he
  have hkey : i.privateKey = sk := by
    have h := hi.privateKey
    rw [apply_signingKeyPair, hv.key] at h
    exact (Option.some.inj h).symm
  have hseq : i.sequence = v.receipts.length := by
    have h := hi.sequence
    rw [apply_sequence, hv.sequence] at h
    exact_mod_cast h.symm
  have hreceipts : (pushEntry P (ch.apply v) (i.entry P (ch.apply v) f env)).receipts =
      v.receipts ++ [i.receipt P (ch.apply v) f env] := by
    rw [← apply_receipts v ch]
    rfl
  refine ⟨(apply_signingKeyPair v ch).symm ▸ hv.key, (apply_signer v ch).symm ▸ hv.signer, ?_, ?_, ?_, rfl⟩
  · rw [hreceipts, List.length_append, List.length_singleton]
    change (ch.apply v).sequence + 1 = _
    rw [apply_sequence, hv.sequence]
    push_cast
    rfl
  · intro k r hr
    rw [hreceipts] at hr ⊢
    by_cases hk : k < v.receipts.length
    · rw [List.getElem?_append_left hk] at hr
      obtain ⟨b, signature, rfl, hb⟩ := hv.issued k r hr
      exact ⟨b, signature, rfl, hb.append _ hk.le⟩
    · -- the new receipt
      obtain rfl : k = v.receipts.length := by
        have := (List.getElem?_eq_some_iff.1 hr).1
        simp only [List.length_append, List.length_singleton] at this
        omega
      rw [List.getElem?_concat_length] at hr
      refine ⟨i.body P (ch.apply v) f env, i.signature, (Option.some.inj hr).symm, i.valid_body, ?_, ?_, hi.signature.2,
        hseq, ?_, ?_⟩
      · have h := hi.signer
        rw [apply_signer, apply_signingKeyPair, hv.key] at h
        exact hv.signer _ h
      · rw [← hkey]
        exact hi.signature.1
      · rw [List.take_left', ← apply_receipts v ch]
        · rfl
        · rfl
      · rw [List.take_left', ← apply_receipts v ch]
        · rfl
        · rfl
  · rw [hreceipts, lastActiveSetRoot, List.getLast?_append]
    exact congrArg _ (reads_signed _ _).active_set_root

/-! ## Runs -/

theorem malformed_signerJson {keyId : JsString} (h : keyId ≠ []) :
    malformed (some (signerJson keyId ed25519)) (js "key_id") = false := by
  simp [malformed, signerJson, ed25519, Json.isStr, Json.truthy, h]

/-- A vault that made its own signing key starts with a sound log. -/
theorem create_log {env : Ambient} {args : CreateArgs} (h : Created P env args v) (hpair : args.signingKeyPair = none)
    (hsigner : args.signer = none) (hsk : v.signingKeyPair.privateKey = some sk) : LogOk P sk v where
  key := hsk
  signer s hs := by
    obtain ⟨pk, hok⟩ := h.ownSigner hpair hsigner
    rw [hok] at hs
    cases hs
    exact malformed_signerJson (List.append_ne_nil_of_left_ne_nil (by decide) _)
  sequence := by rw [h.sequence, h.receipts]; rfl
  issued i r hr := by simp [h.receipts] at hr
  active := by rw [h.receipts, h.activeAddresses]; rfl
  roots := h.roots

theorem steps_log (h : ReflTransGen (AnyStep P) v v') (hv : LogOk P sk v) : LogOk P sk v' := by
  induction h with
  | refl => exact hv
  | tail _ hstep ih =>
    obtain ⟨ch, f, hstep⟩ := hstep
    exact step_log ih hstep

theorem run_log {calls : List Call} (hv : LogOk P sk v) (h : Run.run (stepCall P) v calls = some v') : LogOk P sk v' :=
  Run.run_invariant (fun _ _ _ hs hstep => steps_log (call_anySteps hstep) hs) hv h

/-! ## Verification -/

/-- The options under which a vault's own log is checked. -/
def logOptions (v : Vault) (pk : JsString) : VerifyOptions where
  publicKey := some pk
  verifyEmbeddedReceiptLogRoot := true
  expectedReceiptLogRoot := some v.roots.receipt_log_root
  expectedActiveSetRoot := some (computeSetRoot v.activeAddresses.elems)

theorem previousAt_eq {log : List Json} {i : ℕ} (hi : i < log.length) :
    previousAt P (some genesis) log i = some (previousReceiptHash P (log.take i)) := by
  cases i with
  | zero => rfl
  | succ i =>
    have hlast : (log.take (i + 1)).getLast? = log[i]? := by
      rw [List.getLast?_eq_getElem?, List.length_take, min_eq_left hi.le, Nat.add_sub_cancel,
        List.getElem?_take_of_lt (Nat.lt_succ_self i)]
    rw [previousAt, previousReceiptHash, hlast, List.getElem?_eq_getElem (by omega)]
    rfl

theorem entryOk_of_issued {pk : JsString} (hkey : SigningKey P pk sk) {log : List Json} {i : ℕ} {b : ReceiptBody}
    {signature : JsString} {o : VerifyOptions} (h : Issued P sk log i b signature) (hi : i < log.length)
    (ho : o.publicKey = some pk) (hexp : o.expectedSigner = none) (hr : o.receipt = none) (hs : o.startSequence = 0) :
    EntryOk P o i (previousAt P (some genesis) log i) (b.signed P signature) where
  verified := by
    rw [hr]
    exact verifyReceipt_signed h.valid h.signer h.signature_ne hkey h.signed ho hexp
  sequence := by rw [(reads_signed b signature).sequence, h.sequence, hs, zero_add]
  previous p hp := by
    rw [previousAt_eq hi, ← h.previous] at hp
    rw [(reads_signed b signature).previous_receipt_hash, Option.some.inj hp]

/-- A sound log passes the verifier. -/
theorem verify_log {pk : JsString} (hkey : SigningKey P pk sk) (hv : LogOk P sk v) :
    ∃ res, verifyReceiptChain P v.receipts (logOptions v pk) = .ok res ∧ res.ok = true := by
  have hroot : MerkleSet.root (OrdSet.ofList (v.receipts.map (safeReceiptHash P))) = v.roots.receipt_log_root := by
    rw [hv.roots]
    rfl
  have hlog : rootErrors (logOptions v pk).expectedReceiptLogRoot "expectedReceiptLogRoot"
      (some (.str v.roots.receipt_log_root)) "receipt log root mismatch" = .ok [] := by
    have hr : isRoot v.roots.receipt_log_root = true := by
      rw [← hroot]
      exact MerkleSet.isRoot_root _
    simp [rootErrors, logOptions, normalizeSha256Root_of_isRoot hr, errorIf, bind, Except.bind, pure, Except.pure]
  have hactive : rootErrors (logOptions v pk).expectedActiveSetRoot "expectedActiveSetRoot"
      (some (.str (computeSetRoot v.activeAddresses.elems))) "active set root mismatch" = .ok [] := by
    simp [rootErrors, logOptions, normalizeSha256Root_of_isRoot (isRoot_computeSetRoot _), errorIf, bind, Except.bind,
      pure, Except.pure]
  have hchain : chainErrors P (logOptions v pk) 0 (expectedPrevious (logOptions v pk)) v.receipts = [] := by
    refine (chainErrors_eq_nil _ _ _).2 fun i r hr => ?_
    obtain ⟨b, signature, rfl, hb⟩ := hv.issued i r hr
    rw [Nat.zero_add]
    exact entryOk_of_issued hkey hb (List.getElem?_eq_some_iff.1 hr).1 rfl rfl rfl rfl
  have hembedded : embeddedErrors P 0 OrdSet.empty v.receipts = [] := by
    refine (embeddedErrors_eq_nil _ _ _).2 fun i r hr => ?_
    obtain ⟨b, signature, rfl, hb⟩ := hv.issued i r hr
    rw [(reads_signed b signature).receipt_log_root, hb.log_root]
    rfl
  have hstart : embeddedStartErrors (logOptions v pk) = .ok [] := rfl
  refine ⟨⟨[], v.roots.receipt_log_root, some (.str (computeSetRoot v.activeAddresses.elems)),
    v.receipts.map (safeReceiptHash P)⟩, ?_, rfl⟩
  unfold verifyReceiptChain
  simp only [hroot, hlog, hstart, hv.active, hactive, hchain, hembedded, bind, Except.bind, pure, Except.pure]
  simp [logOptions, expectedPrevious, errorIf, hashListErrors]

/-- **The receipt log is sound over whole runs.** After any successful calls on a vault
that made its own signing key, the receipts verify as a chain with their embedded log
roots, the log root and the root of the active set, and they are numbered from `0`. -/
theorem receipt_log_sound (P : Platform) (env : Ambient) (args : CreateArgs) (v₀ v : Vault) (calls : List Call)
    (pk sk : JsString) (hcreate : createVault P env args = .ok v₀) (hpair : args.signingKeyPair = none)
    (hsigner : args.signer = none) (hsk : v₀.signingKeyPair.privateKey = some sk) (hkey : SigningKey P pk sk)
    (hrun : Run.run (stepCall P) v₀ calls = some v) :
    (∃ res, verifyReceiptChain P v.receipts (logOptions v pk) = .ok res ∧ res.ok = true) ∧
      v.sequence = v.receipts.length ∧
      ∀ (i : ℕ) (r : Json), v.receipts[i]? = some r → r.get (js "sequence") = some (.num i) := by
  have hv : LogOk P sk v := run_log (create_log (createVault_created hcreate) hpair hsigner hsk) hrun
  refine ⟨verify_log hkey hv, hv.sequence, fun i r hr => ?_⟩
  obtain ⟨b, signature, rfl, hb⟩ := hv.issued i r hr
  rw [(reads_signed b signature).sequence, hb.sequence]

theorem receipt_log_sound_tea : ∃ v₀ v, createVault reference referenceEnv {} = .ok v₀ ∧
    Run.run (stepCall reference) v₀ [.remember referenceEnv { content := some tea }] = some v ∧
    (∃ res, verifyReceiptChain reference v.receipts (logOptions v Reference.publicKey) = .ok res ∧ res.ok = true) ∧
    v.sequence = v.receipts.length ∧
    ∀ (i : ℕ) (r : Json), v.receipts[i]? = some r → r.get (js "sequence") = some (.num i) := by
  obtain ⟨v₀, v, addr, h⟩ := firstMemory
  exact ⟨v₀, v, h.created, h.run_one, receipt_log_sound reference referenceEnv {} v₀ v _ Reference.publicKey
    Reference.privateKey h.created rfl rfl h.signer₀.key (reference_signingKey _ _) h.run_one⟩

end EnigmaMemory

/-!
## The history behind a receipt

Every receipt names the hash of its predecessor, so the hash of the last one commits to
the whole list.
-/

namespace EnigmaMemory

open HashChain (Linked)

variable {P : Platform}

/-- The hash that a receipt names. -/
def namedPrevious (r : Json) : Option JsString :=
  match r.get (js "previous_receipt_hash") with
  | some (.str h) => some h
  | _ => none

theorem namedPrevious_eq_some {r : Json} {h : JsString} :
    namedPrevious r = some h ↔ r.get (js "previous_receipt_hash") = some (.str h) := by
  unfold namedPrevious
  split
  · rename_i s hs; rw [hs]; simp
  · rename_i hs
    exact iff_of_false (by simp) (hs h)

theorem linked_of_entries {receipts : List Json} {o : VerifyOptions} {first : Option JsString}
    (h : ∀ i r, receipts[i]? = some r → EntryOk P o i (previousAt P first receipts i) r) :
    Linked (safeReceiptHash P) namedPrevious receipts := by
  intro i x y hx hy
  have hp := (h (i + 1) y hy).previous (safeReceiptHash P x) (by rw [previousAt, hx]; rfl)
  exact namedPrevious_eq_some.2 hp

end EnigmaMemory
