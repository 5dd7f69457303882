import EnigmaMemory.Proof.Append
import EnigmaMemory.Spec.VerifyBundle

/-!
# Issued checkpoints

A checkpoint reads back what its body has (`reads_issued`), and it verifies under the public key of
the key that signed it (`verifyCheckpoint_issued`).
-/

namespace EnigmaMemory

open Json

variable {P : Platform} {sk : JsString}

/-! ## Ordered fields -/

/-- The fields of a checkpoint, in the order in which they are written. -/
def orderedCheckpointFields : List JsString := checkpointFields ++ [js "witness_policy", js "issued_at", js "signatures"]

theorem get_orderCheckpointFields (j : Json) (key : JsString) :
    (orderCheckpointFields j).get key = if key ∈ orderedCheckpointFields then j.get key else none :=
  get_flatMap_field j key orderedCheckpointFields

theorem orderCheckpointFields_congr {a b : Json} (h : ∀ f ∈ orderedCheckpointFields, a.get f = b.get f) :
    orderCheckpointFields a = orderCheckpointFields b := by
  unfold orderCheckpointFields
  congr 1
  exact List.flatMap_congr fun f hf => by rw [h f hf]

/-! ## What `createCheckpoint` issues -/

/-- The checkpoint of a body before it is signed. -/
def CheckpointBody.unsigned (b : CheckpointBody) (id : Json) : Json :=
  orderCheckpointFields (b.toJson.set (js "checkpoint_id") id)

def checkpointSignature (keyId signature : JsString) : Json :=
  .obj [(js "alg", ed25519), (js "key_id", .str keyId), (js "value", .str signature)]

/-- The checkpoint of a body with a signature. -/
def CheckpointBody.signed (b : CheckpointBody) (id : Json) (keyId signature : JsString) : Json :=
  orderCheckpointFields ((b.unsigned id).set (js "signatures") (.arr [checkpointSignature keyId signature]))

/-- A checkpoint issued with the private key `sk`. -/
structure CheckpointIssued (P : Platform) (sk : JsString) (b : CheckpointBody) (id : Json) (keyId signature : JsString) :
    Prop where
  keyId_ne : keyId ≠ []
  signed : P.sign sk ((b.unsigned id).canonicalize P.toNumberFormat) = .ok signature

theorem normalizeSigner_key_id {signer keyId : Option Json} {s : Json}
    (h : normalizeSigner P signer keyId (some sk) = .ok s) : ∃ id, s.get (js "key_id") = some (.str id) ∧ id ≠ [] := by
  have hget : ∀ (id : JsString) (alg : Json), (signerJson id alg).get (js "key_id") = some (.str id) := by
    intro id alg
    simp [signerJson]
  unfold normalizeSigner at h
  split at h
  · obtain ⟨id, hid, h⟩ := Except.bind_eq_ok.1 h
    cases Except.pure_eq_ok.1 h
    exact ⟨id, hget _ _, (requiredString_ok.1 hid).2⟩
  · split at h
    · obtain ⟨id, hid, h⟩ := Except.bind_eq_ok.1 h
      cases Except.pure_eq_ok.1 h
      exact ⟨id, hget _ _, (requiredString_ok.1 hid).2⟩
    · obtain ⟨pk, -, h⟩ := Except.bind_eq_ok.1 h
      cases Except.pure_eq_ok.1 h
      exact ⟨_, hget _ _, List.append_ne_nil_of_left_ne_nil (by decide) _⟩
    · cases h

/-- **What `createCheckpoint` returns**, for options that bring no signatures. -/
theorem createCheckpoint_issued {time : ℤ} {options c : Json} (hsig : orElse (options.get (js "signatures")) none = none)
    (h : createCheckpoint P time options (some sk) = .ok c) : ∃ body id keyId signature,
      checkpointBody P time options = .ok body ∧ CheckpointIssued P sk body id keyId signature ∧
      c = body.signed id keyId signature := by
  unfold createCheckpoint checkpointSignatures at h
  obtain ⟨signer, hsigner, h⟩ := Except.bind_eq_ok.1 h
  obtain ⟨body, hbody, h⟩ := Except.bind_eq_ok.1 h
  obtain ⟨keyId, hkey, hne⟩ := normalizeSigner_key_id hsigner
  simp only [hsig, hkey, field] at h
  obtain ⟨signatures, hs, h⟩ := Except.bind_eq_ok.1 h
  obtain ⟨signature, hsign, hs⟩ := Except.bind_eq_ok.1 hs
  cases Except.pure_eq_ok.1 hs
  exact ⟨body, _, keyId, signature, hbody, ⟨hne, hsign⟩, (Except.pure_eq_ok.1 h).symm⟩

/-! ## What an issued checkpoint reads -/

/-- The roots of a body are roots. -/
structure CheckpointBody.Valid (b : CheckpointBody) : Prop where
  tenant_hash : isRoot b.tenant_hash = true
  owner_scope_hash : isRoot b.owner_scope_hash = true
  active_memory_root : isRoot b.active_memory_root = true
  deleted_memory_root : isRoot b.deleted_memory_root = true
  receipt_log_root : isRoot b.receipt_log_root = true
  key_registry_root : isRoot b.key_registry_root = true
  policy_registry_root : isRoot b.policy_registry_root = true
  previous : b.previous_checkpoint_hash = genesis ∨ isRoot b.previous_checkpoint_hash = true

theorem isRoot_of_normalize {value : Option Json} {name s : JsString} (h : normalizeSha256Root value name = .ok s) :
    isRoot s = true := by
  unfold normalizeSha256Root at h
  split at h
  · split at h
    · cases h; assumption
    · split at h
      · cases h
        exact isRoot_append (by assumption)
      · cases h
  · cases h

theorem isRoot_of_hashable {root : Option Json} {fallback : Json} {s : JsString}
    (h : rootFromHashable P root fallback = .ok s) : isRoot s = true := by
  cases root with
  | none =>
    cases h
    exact isRoot_prefixedSha256 _
  | some r => exact isRoot_of_normalize h

theorem previous_of_normalize {value : Option Json} {s : JsString} (h : normalizePreviousHash value = .ok s) :
    s = genesis ∨ isRoot s = true := by
  unfold normalizePreviousHash at h
  split at h
  · cases h
    exact Or.inl rfl
  · exact Or.inr (isRoot_of_normalize h)

/-- The body has the roots that the options give. -/
theorem checkpointBody_ok {time : ℤ} {options : Json} {body : CheckpointBody} (h : checkpointBody P time options = .ok body) :
    body.Valid ∧
    normalizeSha256Root (orElse (givenOption options "active_memory_root" "activeMemoryRoot")
      (orElse (givenOption options "active_set_root" "activeSetRoot") (some (.str emptyMerkleRoot)))) (js "active_memory_root") =
        .ok body.active_memory_root ∧
    rootOption options "receipt_log_root" "receiptLogRoot" = .ok body.receipt_log_root := by
  unfold checkpointBody at h
  obtain ⟨tenant, htenant, h⟩ := Except.bind_eq_ok.1 h
  obtain ⟨owner, howner, h⟩ := Except.bind_eq_ok.1 h
  obtain ⟨epoch, -, h⟩ := Except.bind_eq_ok.1 h
  obtain ⟨active, hactive, h⟩ := Except.bind_eq_ok.1 h
  obtain ⟨deleted, hdeleted, h⟩ := Except.bind_eq_ok.1 h
  obtain ⟨log, hlog, h⟩ := Except.bind_eq_ok.1 h
  obtain ⟨keys, hkeys, h⟩ := Except.bind_eq_ok.1 h
  obtain ⟨policies, hpolicies, h⟩ := Except.bind_eq_ok.1 h
  obtain ⟨previous, hprevious, h⟩ := Except.bind_eq_ok.1 h
  obtain ⟨issued, -, h⟩ := Except.bind_eq_ok.1 h
  cases Except.pure_eq_ok.1 h
  exact ⟨⟨isRoot_of_hashable htenant, isRoot_of_hashable howner, isRoot_of_normalize hactive, isRoot_of_normalize hdeleted,
    isRoot_of_normalize hlog, isRoot_of_normalize hkeys, isRoot_of_normalize hpolicies, previous_of_normalize hprevious⟩,
    hactive, hlog⟩

section Issued

variable (b : CheckpointBody) (id : Json) (keyId signature : JsString)

theorem get_signedCheckpoint (key : JsString) : (b.signed id keyId signature).get key =
    if key = js "signatures" then some (.arr [checkpointSignature keyId signature]) else (b.unsigned id).get key := by
  rw [CheckpointBody.signed, get_orderCheckpointFields, get_set]
  by_cases h : key = js "signatures"
  · simp only [if_pos h]
    rw [if_pos (by rw [h]; decide)]
  · simp only [if_neg h]
    rw [CheckpointBody.unsigned, get_orderCheckpointFields]
    split
    · rfl
    · rfl

/-- The checkpoint that the signature is made over is the one that it is checked against. -/
theorem unsignedCheckpoint_signed : unsignedCheckpoint (b.signed id keyId signature) = b.unsigned id := by
  rw [unsignedCheckpoint, CheckpointBody.unsigned]
  refine orderCheckpointFields_congr fun f hf => ?_
  rw [get_without, get_signedCheckpoint]
  by_cases h : f = js "signatures"
  · rw [if_pos h, h, get_set, if_neg (by simp)]
    simp [CheckpointBody.toJson]
  · rw [if_neg h, if_neg h, CheckpointBody.unsigned, get_orderCheckpointFields, if_pos hf]

/-- The fields of a body as a checkpoint reads them. -/
structure CheckpointBody.Reads (b : CheckpointBody) (id c : Json) : Prop where
  schema : c.get (js "schema") = some (.str CHECKPOINT_SCHEMA)
  checkpoint_id : c.get (js "checkpoint_id") = some id
  tenant_hash : c.get (js "tenant_hash") = some (.str b.tenant_hash)
  owner_scope_hash : c.get (js "owner_scope_hash") = some (.str b.owner_scope_hash)
  epoch : c.get (js "epoch") = some (.num b.epoch)
  active_memory_root : c.get (js "active_memory_root") = some (.str b.active_memory_root)
  deleted_memory_root : c.get (js "deleted_memory_root") = some (.str b.deleted_memory_root)
  receipt_log_root : c.get (js "receipt_log_root") = some (.str b.receipt_log_root)
  key_registry_root : c.get (js "key_registry_root") = some (.str b.key_registry_root)
  policy_registry_root : c.get (js "policy_registry_root") = some (.str b.policy_registry_root)
  previous : c.get (js "previous_checkpoint_hash") = some (.str b.previous_checkpoint_hash)
  issued_at : c.get (js "issued_at") = some (.str b.issued_at)

theorem reads_issued : b.Reads id (b.signed id keyId signature) := by
  have hget : ∀ f, js f ∈ orderedCheckpointFields → f ≠ "signatures" →
      (b.signed id keyId signature).get (js f) = (b.toJson.set (js "checkpoint_id") id).get (js f) := by
    intro f hf hs
    rw [get_signedCheckpoint, if_neg (by simpa using hs), CheckpointBody.unsigned, get_orderCheckpointFields, if_pos hf]
  constructor
  all_goals
    rw [hget _ (by decide) (by decide), get_set]
    simp [CheckpointBody.toJson]

end Issued

/-! ## An issued checkpoint verifies -/

/-- **An issued checkpoint verifies under the public key of its signing key**, when the options
expect no roots. -/
theorem verifyCheckpoint_issued {K : KeyReader} {b : CheckpointBody} {id key options : Json} {keyId signature : JsString}
    (hb : b.Valid) (h : CheckpointIssued P sk b id keyId signature) (hne : signature ≠ [])
    (hkey : SigningKey P (K.text key) sk) (hc : options.get (js "checkpoint") = some (b.signed id keyId signature))
    (hpk : options.get (js "publicKey") = some key)
    (hlog : orElse (options.get (js "expectedReceiptLogRoot")) (options.get (js "receiptLogRoot")) = none)
    (hactive : orElse (options.get (js "expectedActiveMemoryRoot"))
      (orElse (options.get (js "activeMemoryRoot")) (options.get (js "activeSetRoot"))) = none) :
    verifyCheckpoint P K options = .ok [] := by
  have hr := reads_issued b id keyId signature
  have hsig : (b.signed id keyId signature).get (js "signatures") = some (.arr [checkpointSignature keyId signature]) := by
    rw [get_signedCheckpoint, if_pos rfl]
  have hprev : isPreviousHash P (some (.str b.previous_checkpoint_hash)) = true := by
    rw [isPreviousHash, rootTest_str, Bool.or_eq_true]
    rcases hb.previous with h | h
    · exact Or.inl (by rw [h]; simp)
    · exact Or.inr h
  have hcanonical : hasCanonical (b.signed id keyId signature) = true := by
    simp [hasCanonical, checkpointFields, hr.schema, hr.checkpoint_id, hr.tenant_hash, hr.owner_scope_hash, hr.epoch,
      hr.active_memory_root, hr.deleted_memory_root, hr.receipt_log_root, hr.key_registry_root, hr.policy_registry_root,
      hr.previous, hr.issued_at]
  have hverify : verifySignature P (b.unsigned id) (some (checkpointSignature keyId signature)) (K.text key) = true := by
    unfold verifySignature checkpointSignature
    simp only [get_obj_cons, js_inj, if_true]
    simpa using hkey _ _ h.signed
  have hitem : checkpointSignatureErrors P K options (b.signed id keyId signature) (checkpointSignature keyId signature) =
      .ok [] := by
    have halg : isStr ((checkpointSignature keyId signature).get (js "alg")) (js "Ed25519") = true := by
      simp [checkpointSignature, ed25519]
    have hid : truthy ((checkpointSignature keyId signature).get (js "key_id")) = true := by
      simp [checkpointSignature, truthy, h.keyId_ne]
    have hval : truthy ((checkpointSignature keyId signature).get (js "value")) = true := by
      simp [checkpointSignature, truthy, hne]
    have hresolve : ∀ keyId, resolveJsonKey P keyId options = some key := by
      intro keyId
      unfold resolveJsonKey
      rw [hpk]
    unfold checkpointSignatureErrors
    rw [checkpointSignature]
    simp only
    rw [← checkpointSignature, halg, hid, hval, if_neg (by simp), hresolve, unsignedCheckpoint_signed, hcanonical]
    simp only [hverify, Bool.and_self, if_true]
  have hobj : ∃ fs, b.signed id keyId signature = .obj fs := ⟨_, rfl⟩
  obtain ⟨fs, hfs⟩ := hobj
  rw [verifyCheckpoint, hc, hfs]
  simp only
  rw [← hfs, hsig, hlog, hactive, hr.schema, hr.previous, hr.epoch, hprev]
  simp only [signatureItems, List.mapM_cons, List.mapM_nil, hitem, expectedRootErrors, bind, Except.bind, pure, Except.pure,
    List.flatten_cons, List.flatten_nil, List.append_nil]
  have hroots : checkpointRoots.flatMap (fun f => errorIf (!rootTest P ((b.signed id keyId signature).get (js f)))
      (f ++ " must be a sha256 root")) = [] := by
    simp [checkpointRoots, hr.tenant_hash, hr.owner_scope_hash, hr.active_memory_root, hr.deleted_memory_root,
      hr.receipt_log_root, hr.key_registry_root, hr.policy_registry_root, rootTest_str, hb.tenant_hash, hb.owner_scope_hash,
      hb.active_memory_root, hb.deleted_memory_root, hb.receipt_log_root, hb.key_registry_root, hb.policy_registry_root, errorIf]
  rw [hroots]
  simp [errorIf, natural?]

end EnigmaMemory
