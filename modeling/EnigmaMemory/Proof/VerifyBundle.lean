import EnigmaMemory.Proof.Checkpoint
import EnigmaMemory.Proof.LifecycleRoot
import EnigmaMemory.Proof.ReceiptLog

/-!
# The verifier on exported bundles

The bundle of a vault run passes the offline verifier (`verifyBundle_exported`), and a checkpoint
added to it is compared with the roots that the last receipt carries. That receipt carries the root
of the log before it.

`checkpoint_freshness`: **a checkpoint over a prefix of the receipts is accepted exactly when it
leaves out the last one**, so the fresh checkpoint is reported as stale and one stale checkpoint
passes.
-/

namespace EnigmaMemory

open Json

variable {P : Platform} {K : KeyReader} {v v' : Vault} {sk : JsString} {bundle : Bundle}

/-! ## The bundle of a run -/

/-- A bundle with the checkpoints that were added to it. -/
def Bundle.withCheckpoints (b : Bundle) (checkpoints : List Json) : Json := b.toJson.set (js "checkpoints") (.arr checkpoints)

theorem get_withCheckpoints (b : Bundle) (checkpoints : List Json) (key : JsString) :
    (b.withCheckpoints checkpoints).get key =
      if key = js "checkpoints" then some (.arr checkpoints) else b.toJson.get key := get_set _ _ _ _

theorem find?_truthy_of_first {xs ys : List (Option Json)} {x : Option Json} (hxs : ∀ y ∈ xs, y = none)
    (hx : truthy x = true) : (xs ++ x :: ys).find? truthy = some x := by
  induction xs with
  | nil => exact List.find?_cons_of_pos hx
  | cons y xs ih =>
    obtain ⟨rfl, hrest⟩ := List.forall_mem_cons.1 hxs
    rw [List.cons_append, List.find?_cons_of_neg (by simp [truthy])]
    exact ih hrest

theorem buildKeyring_publicKey {env : Ambient} {passphrase : Option JsString} {keyring : Json} {pk : JsString}
    (h : buildKeyring P env v passphrase = .ok keyring) (hpk : v.signingKeyPair.publicKey = some pk) :
    keyring.get (js "publicKey") = some (.str pk) := by
  unfold buildKeyring at h
  split at h
  · obtain ⟨derived, -, h⟩ := Except.bind_eq_ok.1 h
    cases Except.pure_eq_ok.1 h
    simp [hpk]
  · cases Except.pure_eq_ok.1 h
    simp [get_obj_append, hpk]

/-- What the verifier reads in the bundle of a vault. -/
structure VerifierReads (v : Vault) (pk : JsString) (j : Json) : Prop where
  object : isObjectOrArray j = true
  publicKey : publicKeyFromBundle j = some (.str pk)
  receipts : j.get (js "receipts") = some (.arr v.receipts)
  log_root : (committedVaultState j).receiptLogRoot = some (.str v.roots.receipt_log_root)
  active_root : (committedVaultState j).activeSetRoot = some (.str v.roots.active_set_root)
  sequence : (committedVaultState j).sequence = some (.num v.sequence)

/-- An exported bundle whose checkpoints and address list may have been edited. -/
theorem verifierReads_edited {env : Ambient} {args : ExportArgs} {pk : JsString} {j : Json}
    (h : exportBundle P env args v = .ok bundle v') (hpk : v'.signingKeyPair.publicKey = some pk) (hne : pk ≠ [])
    (hroots : v'.roots = lifecycleRoots P v') (hobj : isObjectOrArray j = true)
    (hget : ∀ key, key ≠ js "checkpoints" → key ≠ js "active_memory_addresses" → j.get key = bundle.toJson.get key) :
    VerifierReads v' pk j := by
  obtain ⟨-, hb⟩ := exportBundle_exports h
  have hkey := buildKeyring_publicKey hb.keyring hpk
  have hvault : j.get (js "vault") = some (bundleVault P v') := by
    rw [hget _ (by simp) (by simp), ← hb.vault]
    simp [Bundle.toJson]
  refine ⟨hobj, ?_, ?_, ?_, ?_, ?_⟩
  · have hpaths : publicKeyPaths.map (path (some j)) =
        [none, none, none, none] ++ some (.str pk) :: [path (some j) ["keyring", "public_key"], none, none] := by
      simp [publicKeyPaths, path, hget, Bundle.toJson, hkey]
    rw [publicKeyFromBundle, hpaths, find?_truthy_of_first (by simp) (by simp [truthy, hne])]
  · rw [hget _ (by simp) (by simp), ← hb.receipts]
    simp [Bundle.toJson]
  all_goals simp [committedVaultState, firstPresent, firstOf, path, hvault, bundleVault, orElse, hroots]

theorem verifierReads_exported {env : Ambient} {args : ExportArgs} {pk : JsString} (checkpoints : List Json)
    (h : exportBundle P env args v = .ok bundle v') (hpk : v'.signingKeyPair.publicKey = some pk) (hne : pk ≠ [])
    (hroots : v'.roots = lifecycleRoots P v') : VerifierReads v' pk (bundle.withCheckpoints checkpoints) :=
  verifierReads_edited h hpk hne hroots rfl fun key hk _ => by rw [get_withCheckpoints, if_neg hk]

/-- The checks of the chain of a sound log. -/
theorem chainFindings_log {pk : JsString} (hkey : SigningKey P pk sk) (hv : LogOk P sk v) {committed : CommittedState}
    (hlog : committed.receiptLogRoot = some (.str v.roots.receipt_log_root))
    (hactive : committed.activeSetRoot = some (.str v.roots.active_set_root)) :
    chainFindings P K v.receipts (.str pk) committed = [] := by
  have hroot : MerkleSet.root (OrdSet.ofList (v.receipts.map (safeReceiptHash P))) = v.roots.receipt_log_root := by
    rw [hv.roots]
    rfl
  have hchain : chainErrors P (chainOptions K (.str pk)) 0 (some genesis) v.receipts = [] := by
    refine (chainErrors_eq_nil _ _ _).2 fun i r hr => ?_
    obtain ⟨b, signature, rfl, hb⟩ := hv.issued i r hr
    rw [Nat.zero_add]
    exact entryOk_of_issued hkey hb (List.getElem?_eq_some_iff.1 hr).1 (by rw [chainOptions, K.text_str]) rfl rfl rfl
  have hembedded : embeddedErrors P 0 OrdSet.empty v.receipts = [] := by
    refine (embeddedErrors_eq_nil _ _ _).2 fun i r hr => ?_
    obtain ⟨b, signature, rfl, hb⟩ := hv.issued i r hr
    rw [(reads_signed b signature).receipt_log_root, hb.log_root]
    rfl
  have hverify : verifyReceiptChain P v.receipts (chainOptions K (.str pk)) = .ok ⟨[], v.roots.receipt_log_root,
      some (.str (computeSetRoot v.activeAddresses.elems)), v.receipts.map (safeReceiptHash P)⟩ := by
    unfold verifyReceiptChain
    simp only [hroot, hv.active, bind, Except.bind, pure, Except.pure]
    simp [chainOptions, expectedPrevious, rootErrors, embeddedStartErrors, errorIf, hashListErrors]
    exact ⟨hchain, hembedded⟩
  have hroots : v.roots.active_set_root = computeSetRoot v.activeAddresses.elems := by rw [hv.roots]; rfl
  rw [chainFindings, hverify]
  simp [compareCommittedRoots, hlog, hactive, hroots, strictEq, sameValue, errorWhen]

theorem receiptFindings_log {pk : JsString} (hkey : SigningKey P pk sk) (hv : LogOk P sk v) :
    v.receipts.flatMap (receiptFindings P K (.str pk)) = [] := by
  rw [List.flatMap_eq_nil_iff]
  intro r hr
  obtain ⟨i, hi⟩ := List.mem_iff_getElem?.1 hr
  obtain ⟨b, signature, rfl, hb⟩ := hv.issued i r hi
  have hverify : verifyReceipt P (b.signed P signature) { publicKey := some (K.text (.str pk)) } = [] :=
    verifyReceipt_signed hb.valid hb.signer hb.signature_ne hkey hb.signed (by rw [K.text_str]) rfl
  rw [receiptFindings, hverify]
  rfl

theorem compareCommittedSequence_log (hv : LogOk P sk v) {committed : CommittedState}
    (h : committed.sequence = some (.num v.sequence)) : compareCommittedSequence v.receipts committed = [] := by
  have hnatural : natural? (some (.num (v.sequence : ℚ))) = some v.receipts.length := by
    rw [hv.sequence]
    simp [natural?]
  unfold compareCommittedSequence
  rw [h]
  simp only [hnatural]
  cases hlast : v.receipts.getLast? with
  | none =>
    rw [List.getLast?_eq_none_iff] at hlast
    simp [errorWhen, hlast]
  | some r =>
    rw [List.getLast?_eq_getElem?] at hlast
    obtain ⟨b, signature, rfl, hb⟩ := hv.issued _ r hlast
    have hpos : 0 < v.receipts.length := by
      have := (List.getElem?_eq_some_iff.1 hlast).1
      omega
    have hseq : (((v.receipts.length - 1 : ℕ) : ℚ)) = (v.receipts.length : ℚ) - 1 := by
      rw [Nat.cast_sub hpos, Nat.cast_one]
    have hnum : isNum ((b.signed P signature).get (js "sequence")) ((v.receipts.length : ℚ) - 1) = true := by
      rw [(reads_signed b signature).sequence, hb.sequence, hseq]
      exact Json.isNum_iff.2 rfl
    simp [errorWhen, hnum]

/-- What the verifier finds in the bundle of a sound log is what its checkpoints bring. -/
theorem verifyBundle_reads {pk : JsString} {j : Json} {lastReceipt : Json} {checkpoints : List Json} (hr : VerifierReads v pk j)
    (hv : LogOk P sk v) (hkey : SigningKey P pk sk) (hne : pk ≠ []) (hlast : v.receipts.getLast? = some lastReceipt)
    (hcheckpoints : asArray (orElse (j.get (js "checkpoints")) (path (some j) ["passport", "checkpoints"])) = checkpoints) :
    verifyBundle P K j = match checkpoints.getLast? with
      | some c => checkpointFindings P K j c lastReceipt (.str pk) v.receipts
      | none => [] := by
  have hnonempty : v.receipts.isEmpty = false := by
    cases hl : v.receipts with
    | nil => rw [hl] at hlast; cases hlast
    | cons => rfl
  unfold verifyBundle
  rw [hr.object, hr.receipts, hcheckpoints, hr.publicKey]
  simp only [asArray, Option.filter, truthy, bne_iff_ne, ne_eq, hne, not_false_eq_true, if_true, signedFindings, hlast]
  rw [if_neg (by simp), chainFindings_log hkey hv hr.log_root hr.active_root, receiptFindings_log hkey hv,
    compareCommittedSequence_log hv hr.sequence, hnonempty]
  rfl

/-- **The bundle of a run passes the verifier**, up to what its checkpoints bring. -/
theorem verifyBundle_exported {env : Ambient} {args : ExportArgs} {pk : JsString} (checkpoints : List Json)
    (h : exportBundle P env args v = .ok bundle v') (hv : LogOk P sk v') (hkey : SigningKey P pk sk)
    (hpk : v'.signingKeyPair.publicKey = some pk) (hne : pk ≠ []) : ∃ lastReceipt, v'.receipts.getLast? = some lastReceipt ∧
      verifyBundle P K (bundle.withCheckpoints checkpoints) = match checkpoints.getLast? with
        | some c => checkpointFindings P K (bundle.withCheckpoints checkpoints) c lastReceipt (.str pk) v'.receipts
        | none => [] := by
  have hr := verifierReads_exported checkpoints h hpk hne hv.roots
  obtain ⟨⟨e, rfl⟩, -⟩ := exportBundle_exports h
  have hlast : (pushEntry P v e).receipts.getLast? = some e.receipt := List.getLast?_concat
  have hcheckpoints : (bundle.withCheckpoints checkpoints).get (js "checkpoints") = some (.arr checkpoints) := by
    rw [get_withCheckpoints, if_pos rfl]
  exact ⟨e.receipt, hlast, verifyBundle_reads hr hv hkey hne hlast (by rw [hcheckpoints]; rfl)⟩

/-! ## Checkpoints over prefixes -/

/-- The texts that the roots of the prefixes of a log hash. -/
def prefixTexts (P : Platform) (receipts : List Json) : Set JsString :=
  { x | x ∈ receipts.map (·.canonicalize P.toNumberFormat) ∨
    ∃ k ≤ receipts.length, x ∈ setTexts ((receipts.take k).map (hashReceipt P)) }

/-- **The prefixes of a log have different roots.** -/
theorem prefix_roots_inj (hv : LogOk P sk v) (hcf : CollisionFree (prefixTexts P v.receipts)) {i j : ℕ}
    (hi : i ≤ v.receipts.length) (hj : j ≤ v.receipts.length)
    (h : computeReceiptLogRootFrom P (v.receipts.take i) = computeReceiptLogRootFrom P (v.receipts.take j)) : i = j := by
  wlog hij : i < j generalizing i j
  · rcases Nat.lt_or_ge j i with hji | hji
    · exact (this hj hi h.symm hji).symm
    · omega
  exfalso
  have hsets := (MerkleSet.root_eq_iff hcf (s := OrdSet.ofList ((v.receipts.take i).map (hashReceipt P)))
    (t := OrdSet.ofList ((v.receipts.take j).map (hashReceipt P)))
    (fun x hx => Or.inr ⟨i, hi, hx⟩) (fun x hx => Or.inr ⟨j, hj, hx⟩)).1 h
  -- the last receipt of the longer prefix is in the shorter one too
  obtain ⟨r, hr⟩ : ∃ r, v.receipts[j - 1]? = some r := ⟨_, List.getElem?_eq_getElem (by omega)⟩
  have hmem : r ∈ v.receipts.take j := List.mem_of_getElem? (i := j - 1) (by rw [List.getElem?_take_of_lt (by omega), hr])
  have hhash := (hsets (hashReceipt P r)).2 (OrdSet.mem_ofList.2 (List.mem_map_of_mem hmem))
  obtain ⟨r', hr', heq⟩ := List.mem_map.1 (OrdSet.mem_ofList.1 hhash)
  obtain ⟨k, hk⟩ := List.mem_iff_getElem?.1 hr'
  have hki : k < i := by
    have := (List.getElem?_eq_some_iff.1 hk).1
    rw [List.length_take] at this
    omega
  rw [List.getElem?_take_of_lt hki] at hk
  have hsame : Json.Same r' r := canonicalize_inj (prefixedSha256_inj hcf
    (Or.inl (List.mem_map_of_mem (List.mem_of_getElem? hk))) (Or.inl (List.mem_map_of_mem (List.mem_of_getElem? hr))) heq)
  obtain ⟨b, signature, rfl, hb⟩ := hv.issued k r' hk
  obtain ⟨b', signature', rfl, hb'⟩ := hv.issued (j - 1) r hr
  have hseq := hsame.get_num (reads_signed b signature).sequence
  rw [(reads_signed b' signature').sequence, hb.sequence, hb'.sequence] at hseq
  have : j - 1 = k := by exact_mod_cast Json.num.inj (Option.some.inj hseq)
  omega

/-- The options of a checkpoint over the first `k` receipts of a vault, with its active root. -/
structure OverPrefix (P : Platform) (v : Vault) (k : ℕ) (options : Json) : Prop where
  receipt_log_root : options.get (js "receipt_log_root") = some (.str (computeReceiptLogRootFrom P (v.receipts.take k)))
  active_memory_root : options.get (js "active_memory_root") = some (.str (computeSetRoot v.activeAddresses.elems))
  signatures : orElse (options.get (js "signatures")) none = none

theorem isRoot_ne_nil {s : JsString} (h : isRoot s = true) : s ≠ [] := by
  rintro rfl
  exact absurd h (by decide)

theorem disagree_roots {a b : JsString} (ha : isRoot a = true) (hb : isRoot b = true) :
    disagree (some (.str a)) (some (.str b)) = !decide (a = b) := by
  have ha' : (a != []) = true := by simpa using isRoot_ne_nil ha
  have hb' : (b != []) = true := by simpa using isRoot_ne_nil hb
  rw [disagree, truthy, truthy, ha', hb', strictEq, sameValue, Bool.true_and, Bool.true_and, beq_eq_decide]

/-- **A checkpoint over a prefix of a sound log is compared with the root before the last receipt.** -/
theorem prefix_accepted_root {env : Ambient} {args : ExportArgs} {pk : JsString} {k : ℕ} {time : ℤ} {options c : Json}
    (h : exportBundle P env args v = .ok bundle v') (hv : LogOk P sk v') (hkey : SigningKey P pk sk)
    (hpk : v'.signingKeyPair.publicKey = some pk) (hne : pk ≠ []) (hsigns : Signs P sk)
    (hoptions : OverPrefix P v' k options) (hc : createCheckpoint P time options (some sk) = .ok c) :
    verifyBundle P K (bundle.withCheckpoints [c]) = [] ↔
      computeReceiptLogRootFrom P (v'.receipts.take k) =
        computeReceiptLogRootFrom P (v'.receipts.take (v'.receipts.length - 1)) := by
  obtain ⟨lastReceipt, hlast, heq⟩ := verifyBundle_exported (K := K) [c] h hv hkey hpk hne
  obtain ⟨body, id, keyId, signature, hbody, hissued, rfl⟩ := createCheckpoint_issued hoptions.signatures hc
  obtain ⟨hvalid, hactive, hlog⟩ := checkpointBody_ok hbody
  have hreads := reads_issued body id keyId signature
  -- the roots that the options ask for
  have hbodyLog : body.receipt_log_root = computeReceiptLogRootFrom P (v'.receipts.take k) := by
    rw [rootOption, givenOption, hoptions.receipt_log_root] at hlog
    exact (Except.ok.inj ((normalizeSha256Root_of_isRoot (isRoot_computeSetRoot _)).symm.trans hlog)).symm
  have hbodyActive : body.active_memory_root = computeSetRoot v'.activeAddresses.elems := by
    rw [givenOption, hoptions.active_memory_root] at hactive
    exact (Except.ok.inj ((normalizeSha256Root_of_isRoot (isRoot_computeSetRoot _)).symm.trans hactive)).symm
  have hsignature : signature ≠ [] := by
    obtain ⟨s, hs, hne', -⟩ := hsigns ((body.unsigned id).canonicalize P.toNumberFormat)
    rw [hissued.signed] at hs
    cases hs
    exact hne'
  have hverdict : checkpointVerdict P K (bundle.withCheckpoints [body.signed id keyId signature])
      (body.signed id keyId signature) (.str pk) v'.receipts = .ok [] := by
    have hverify : verifyCheckpoint P K (.obj [(js "checkpoint", body.signed id keyId signature), (js "receipts", .arr v'.receipts),
        (js "publicKey", .str pk), (js "bundle", bundle.withCheckpoints [body.signed id keyId signature])]) = .ok [] :=
      verifyCheckpoint_issued hvalid hissued hsignature (by rw [K.text_str]; exact hkey) (by simp) (by simp) (by simp [orElse])
        (by simp [orElse])
    rw [checkpointVerdict, hverify]
  -- what the last receipt carries
  rw [List.getLast?_eq_getElem?] at hlast
  obtain ⟨b, signature', rfl, hb⟩ := hv.issued _ lastReceipt hlast
  have hlastActive : b.active_set_root = computeSetRoot v'.activeAddresses.elems := by
    have ha := hv.active
    rw [lastActiveSetRoot, List.getLast?_eq_getElem?, hlast] at ha
    exact Json.str.inj (Option.some.inj ((reads_signed b signature').active_set_root.symm.trans (Except.ok.inj ha)))
  rw [heq]
  simp only [List.getLast?_singleton, checkpointFindings, hverdict, hreads.receipt_log_root, hreads.active_memory_root,
    (reads_signed b signature').receipt_log_root, (reads_signed b signature').active_set_root]
  rw [disagree_roots hvalid.receipt_log_root hb.valid.receipt_log_root,
    disagree_roots hvalid.active_memory_root hb.valid.active_set_root, hbodyActive, hlastActive, hbodyLog, hb.log_root]
  simp only [List.map_nil, List.nil_append, decide_true, Bool.not_true, errorWhen, if_false, List.append_nil,
    Bool.false_eq_true]
  simp

/-! ## Freshness -/

/-- The checkpoint over the whole log is accepted, and one over a proper prefix of it is not. -/
structure FreshnessJudged (P : Platform) (K : KeyReader) (sk : JsString) (v : Vault) (bundle : Bundle) : Prop where
  fresh : ∀ time options c, OverPrefix P v v.receipts.length options → createCheckpoint P time options (some sk) = .ok c →
    verifyBundle P K (bundle.withCheckpoints [c]) = []
  stale : ∀ k < v.receipts.length, ∀ time options c, OverPrefix P v k options →
    createCheckpoint P time options (some sk) = .ok c → verifyBundle P K (bundle.withCheckpoints [c]) ≠ []

/-- There is a checkpoint over any prefix. -/
theorem exists_checkpoint (hsigns : Signs P sk) (v : Vault) (k : ℕ) (time : ℤ) :
    ∃ options c, OverPrefix P v k options ∧ createCheckpoint P time options (some sk) = .ok c := by
  have hlog : ∀ name, normalizeSha256Root (some (.str (computeReceiptLogRootFrom P (v.receipts.take k)))) name =
      .ok (computeReceiptLogRootFrom P (v.receipts.take k)) := fun _ => normalizeSha256Root_of_isRoot (isRoot_computeSetRoot _)
  have hactive : ∀ name, normalizeSha256Root (some (.str (computeSetRoot v.activeAddresses.elems))) name =
      .ok (computeSetRoot v.activeAddresses.elems) := fun _ => normalizeSha256Root_of_isRoot (isRoot_computeSetRoot _)
  have hempty : ∀ name, normalizeSha256Root (some (.str emptyMerkleRoot)) name = .ok emptyMerkleRoot :=
    fun _ => normalizeSha256Root_of_isRoot (isRoot_prefixedSha256 _)
  have hkey : js "owner" ≠ [] := by simp [js, utf16]
  refine ⟨.obj [(js "receipt_log_root", .str (computeReceiptLogRootFrom P (v.receipts.take k))),
    (js "active_memory_root", .str (computeSetRoot v.activeAddresses.elems)), (js "key_id", .str (js "owner"))], ?_⟩
  refine (exists_congr fun c => and_iff_right ⟨by simp, by simp, by simp [orElse]⟩).2 ?_
  unfold createCheckpoint checkpointBody
  simp [givenOption, rootOption, orElse, normalizeSigner, requiredString, hkey, rootFromHashable, requiredInteger, natural?,
    hlog, hactive, hempty, normalizePreviousHash, P.isoText_ne, checkpointSignatures, bind, Except.bind, pure, Except.pure, signPayload]
  rw [(hsigns _).choose_spec.1]
  exact ⟨_, rfl⟩

theorem exportBundle_log {env : Ambient} {args : ExportArgs} (hv : LogOk P sk v)
    (h : exportBundle P env args v = .ok bundle v') : LogOk P sk v' ∧ v'.signingKeyPair = v.signingKeyPair ∧
      0 < v'.receipts.length := by
  obtain ⟨f, hstep, -⟩ := exportBundle_step h
  refine ⟨step_log hv hstep, ?_, ?_⟩
  · have hgrows := exportBundle_grows (P := P) env args v
    rw [EStateM.after, h] at hgrows
    exact hgrows.signingKeyPair
  · obtain ⟨⟨e, rfl⟩, -⟩ := exportBundle_exports h
    exact List.length_pos_of_mem (List.mem_append_right _ (List.mem_singleton_self e.receipt))

/-- **The verifier judges freshness against the log without its last receipt.** For every run of
a vault that made its own signing key and every export of it, the checkpoint that leaves out the
last receipt is accepted, and, without collisions, no other over a prefix is. -/
theorem checkpoint_freshness (P : Platform) (K : KeyReader) (env exportEnv : Ambient) (args : CreateArgs) (v₀ v v' : Vault)
    (calls : List Call) (pk sk : JsString) (exportArgs : ExportArgs) (bundle : Bundle)
    (hcreate : createVault P env args = .ok v₀) (hpair : args.signingKeyPair = none) (hsigner : args.signer = none)
    (hsk : v₀.signingKeyPair.privateKey = some sk) (hpk : v₀.signingKeyPair.publicKey = some pk) (hne : pk ≠ [])
    (hkey : SigningKey P pk sk) (hsigns : Signs P sk) (hrun : Run.run (stepCall P) v₀ calls = some v)
    (hexport : exportBundle P exportEnv exportArgs v = .ok bundle v') :
    ¬FreshnessJudged P K sk v' bundle ∧
      (CollisionFree (prefixTexts P v'.receipts) → ∀ k ≤ v'.receipts.length, ∀ time options c, OverPrefix P v' k options →
        createCheckpoint P time options (some sk) = .ok c →
        (verifyBundle P K (bundle.withCheckpoints [c]) = [] ↔ k + 1 = v'.receipts.length)) := by
  have hlog : LogOk P sk v := run_log (create_log (createVault_created hcreate) hpair hsigner hsk) hrun
  obtain ⟨hlog', hpair', hpos⟩ := exportBundle_log hlog hexport
  have hpk' : v'.signingKeyPair.publicKey = some pk := by rw [hpair', (run_grows hrun).signingKeyPair, hpk]
  refine ⟨fun hjudged => ?_, fun hcf k hk time options c hoptions hc => ?_⟩
  · -- the checkpoint without the last receipt is stale, and accepted
    obtain ⟨options, c, hoptions, hc⟩ := exists_checkpoint hsigns v' (v'.receipts.length - 1) 0
    exact hjudged.stale _ (by omega) 0 options c hoptions hc
      ((prefix_accepted_root hexport hlog' hkey hpk' hne hsigns hoptions hc).2 rfl)
  · rw [prefix_accepted_root hexport hlog' hkey hpk' hne hsigns hoptions hc]
    refine ⟨fun hr => ?_, fun hr => by rw [show k = v'.receipts.length - 1 by omega]⟩
    have := prefix_roots_inj hlog' hcf hk (by omega) hr
    omega

/-! ## A stale checkpoint that passes -/

/-- Node reads a text as the key it is. -/
def referenceKeys : KeyReader where
  text
    | .str s => s
    | _ => []
  text_str _ := rfl

/-- A vault with one memory and its bundle. -/
theorem exists_firstBundle : ∃ v₀ v v' addr bundle, FirstMemory v₀ v addr ∧
    v₀.signingKeyPair.publicKey = some Reference.publicKey ∧ Reference.publicKey ≠ [] ∧
    LogOk reference Reference.privateKey v ∧ exportBundle reference referenceEnv {} v = .ok bundle v' := by
  obtain ⟨v₀, v, addr, h⟩ := firstMemory
  have hok : Succeeds (exportBundle reference referenceEnv {}) v := exportBundle_ok h.signer ⟨trivial, h.subject_id, h.policy_id⟩
  obtain ⟨bundle, v', hb⟩ := hok
  have hpk : v₀.signingKeyPair.publicKey = some Reference.publicKey := by
    obtain ⟨vaultKey, addressKey, seed, -, -, -, hkeys⟩ := (createVault_created h.created).keys
    rw [hkeys]
    cases seed with
    | none => simp only [Option.getD_none, signingPair, pairOf, referenceEnv]
    | some seed => simp only [Option.getD_none, signingPair, pairOf, reference]
  have hne : Reference.publicKey ≠ [] := by simp [Reference.publicKey, js, utf16]
  exact ⟨v₀, v, v', addr, bundle, h, hpk, hne, run_log (create_log (createVault_created h.created) rfl rfl h.signer₀.key) h.run_one, hb⟩

theorem checkpoint_freshness_tea : ∃ v₀ v v' bundle, createVault reference referenceEnv {} = .ok v₀ ∧
    Run.run (stepCall reference) v₀ [.remember referenceEnv { content := some tea }] = some v ∧
    exportBundle reference referenceEnv {} v = .ok bundle v' ∧
    ¬FreshnessJudged reference referenceKeys Reference.privateKey v' bundle ∧
    (CollisionFree (prefixTexts reference v'.receipts) → ∀ k ≤ v'.receipts.length, ∀ time options c,
      OverPrefix reference v' k options → createCheckpoint reference time options (some Reference.privateKey) = .ok c →
      (verifyBundle reference referenceKeys (bundle.withCheckpoints [c]) = [] ↔ k + 1 = v'.receipts.length)) := by
  obtain ⟨v₀, v, v', addr, bundle, h, hpk, hne, -, hb⟩ := exists_firstBundle
  exact ⟨v₀, v, v', bundle, h.created, h.run_one, hb, checkpoint_freshness reference referenceKeys referenceEnv referenceEnv {}
    v₀ v v' _ Reference.publicKey Reference.privateKey {} bundle h.created rfl rfl h.signer₀.key hpk hne
    (reference_signingKey _ _) (reference_signs _) h.run_one hb⟩

/-- A checkpoint without the last receipt passes: the bundle of a vault with one memory. -/
theorem stale_checkpoint_accepted : ∃ v₀ v v' bundle k options c, createVault reference referenceEnv {} = .ok v₀ ∧
    Run.run (stepCall reference) v₀ [.remember referenceEnv { content := some tea }] = some v ∧
    exportBundle reference referenceEnv {} v = .ok bundle v' ∧ k < v'.receipts.length ∧ OverPrefix reference v' k options ∧
    createCheckpoint reference Reference.newYear options (some Reference.privateKey) = .ok c ∧
    verifyBundle reference referenceKeys (bundle.withCheckpoints [c]) = [] := by
  obtain ⟨v₀, v, v', addr, bundle, h, hpk, hne, hlog, hb⟩ := exists_firstBundle
  obtain ⟨hlog', hpair, hpos⟩ := exportBundle_log hlog hb
  obtain ⟨options, c, hoptions, hc⟩ := exists_checkpoint (reference_signs Reference.privateKey) v' (v'.receipts.length - 1)
    Reference.newYear
  have hpk' : v'.signingKeyPair.publicKey = some Reference.publicKey := by
    rw [hpair, (run_grows h.run_one).signingKeyPair, hpk]
  exact ⟨v₀, v, v', bundle, v'.receipts.length - 1, options, c, h.created, h.run_one, hb, by omega, hoptions, hc,
    (prefix_accepted_root hb hlog' (reference_signingKey _ _) hpk' hne (reference_signs _) hoptions hc).2 rfl⟩

end EnigmaMemory
