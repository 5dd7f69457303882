import EnigmaMemory.Proof.Deletion
import EnigmaMemory.Proof.Filed
import EnigmaMemory.Proof.PackVerdict

/-!
# Compiled packs

The receipts of a pack are issued while it is compiled and keep verifying; the addresses of
its memories are the listed ones. So what the verifier says later depends on the later state
alone.

* `compiled_verifies_iff`: a compiled pack is valid against a vault exactly when all its
  addresses are active and not tombstoned there, and the verifier throws otherwise.
-/

namespace EnigmaMemory

open Json

variable {P : Platform} {v v' w : Vault} {pack : ContextPack} {pk : JsString}

/-! ## The receipts of a pack -/

/-- A receipt that a vault has issued for an access to a memory. -/
def IssuedFor (P : Platform) (v : Vault) (operation : String) (addr : JsString) (r : Json) : Prop :=
  ∃ (b : ReceiptBody) (signature sk : JsString), r = b.signed P signature ∧ b.Valid ∧ b.operation = js operation ∧
    b.memory_addr = some (.str addr) ∧ normalizeSigner P (some v.signer) none v.signingKeyPair.privateKey = .ok b.signer ∧
    v.signingKeyPair.privateKey = some sk ∧
    P.sign sk ((b.unsigned P).canonicalize P.toNumberFormat) = .ok signature ∧ signature ≠ []

theorem packEvent_issued {env : Ambient} {args : PackArgs} {operation : String} {packId record : Json} {addr : JsString}
    {e : Entry} (h : nextEntry P env v (packEvent args operation packId addr record) = .ok e) :
    IssuedFor P v operation addr e.receipt := by
  obtain ⟨i, hi, -, rfl⟩ := nextEntry_ok.1 h
  have hop : js operation = i.operation := Json.str.inj hi.operation.1
  exact ⟨i.body P v _ env, i.signature, i.privateKey, rfl, i.valid_body, hop.symm, rfl, hi.signer, hi.privateKey,
    hi.signature.1, hi.signature.2⟩

/-- The two receipts of a memory of a pack. -/
def PackedFor (P : Platform) (v : Vault) (addr : JsString) (p : Packed) : Prop :=
  IssuedFor P v "retrieve" addr p.retrieval ∧ IssuedFor P v "inject" addr p.injection

theorem packMemories_issued {args : PackArgs} {packId : Json} (addrs : List JsString) :
    ∀ (env : Ambient) (v : Vault) (packed : List Packed), packMemories P args packId env addrs v = .ok packed v' →
      (∀ p ∈ packed, ∃ a, PackedFor P v a p) ∧ ∀ a ∈ addrs, ∃ p ∈ packed, PackedFor P v a p := by
  induction addrs with
  | nil =>
    intro env v packed h
    rw [packMemories] at h
    obtain ⟨rfl, -⟩ := pure_ok.1 h
    simp
  | cons addr rest ih =>
    intro env v packed h
    rw [packMemories, get_bind] at h
    simp only [ofExcept_bind_ok, append_bind_ok] at h
    obtain ⟨content, -, e1, he1, e2, he2, h⟩ := h
    obtain ⟨others, t, hrest, h⟩ := EStateM.bind_eq_ok.1 h
    obtain ⟨rfl, rfl⟩ := pure_ok.1 h
    -- the events leave the signer as it is
    have hfirst : PackedFor P v addr ⟨publicMemory P ((v.memories.get addr).getD .null) content, e1.receipt, e2.receipt⟩ :=
      ⟨packEvent_issued he1, packEvent_issued (v := pushEntry P v e1) he2⟩
    obtain ⟨heach, hcovers⟩ := ih _ (pushEntry P (pushEntry P v e1) e2) _ hrest
    constructor
    · intro p hp
      rcases List.mem_cons.1 hp with rfl | hp
      · exact ⟨addr, hfirst⟩
      · exact heach p hp
    · intro a ha
      rcases List.mem_cons.1 ha with rfl | ha
      · exact ⟨_, List.mem_cons_self, hfirst⟩
      · obtain ⟨p, hp, hfor⟩ := hcovers a ha
        exact ⟨p, List.mem_cons_of_mem _ hp, hfor⟩

/-- What the receipts of a compiled pack are. -/
structure PackIssued (P : Platform) (v : Vault) (pack : ContextPack) : Prop where
  each : ∀ r ∈ pack.retrieval_receipts ++ pack.injection_receipts, ∃ operation a, IssuedFor P v operation a r
  covers : ∀ a ∈ pack.memory_addresses, ∀ operation ∈ ["retrieve", "inject"],
    ∃ r ∈ pack.retrieval_receipts ++ pack.injection_receipts, IssuedFor P v operation a r

theorem compileContextPack_issued {env : Ambient} {args : PackArgs}
    (h : compileContextPack P env args v = .ok pack v') : PackIssued P v pack := by
  unfold compileContextPack at h
  rw [get_bind] at h
  simp only [ofExcept_bind_ok, rejectInvalid_bind_ok] at h
  obtain ⟨passport, -, limit, -, selection, -, -, now, -, h⟩ := h
  obtain ⟨packed, t, hpacked, h⟩ := EStateM.bind_eq_ok.1 h
  simp only [ofExcept_bind_ok, get_bind] at h
  obtain ⟨receipts, -, h⟩ := h
  obtain ⟨rfl, -⟩ := pure_ok.1 h
  obtain ⟨heach, hcovers⟩ := packMemories_issued _ _ _ _ hpacked
  constructor
  · intro r hr
    simp only [List.mem_append, List.mem_map] at hr
    rcases hr with ⟨p, hp, rfl⟩ | ⟨p, hp, rfl⟩
    · obtain ⟨a, ha⟩ := heach p hp
      exact ⟨"retrieve", a, ha.1⟩
    · obtain ⟨a, ha⟩ := heach p hp
      exact ⟨"inject", a, ha.2⟩
  · intro a ha operation hop
    obtain ⟨p, hp, hfor⟩ := hcovers a ha
    simp only [List.mem_cons, List.not_mem_nil, or_false] at hop
    rcases hop with rfl | rfl
    · exact ⟨p.retrieval, List.mem_append_left _ (List.mem_map_of_mem hp), hfor.1⟩
    · exact ⟨p.injection, List.mem_append_right _ (List.mem_map_of_mem hp), hfor.2⟩

/-! ## They verify -/

/-- The signer of the vault names no other algorithm than Ed25519. -/
def SignsEd25519 (v : Vault) : Prop := orElse (v.signer.get (js "alg")) (some ed25519) = some ed25519

/-- The signer of a receipt has the algorithm that the signer of the vault names. -/
theorem normalizeSigner_eq {signer s : Json} {sk : Option JsString}
    (h : normalizeSigner P (some signer) none sk = .ok s) :
    ∃ id, id ≠ [] ∧ s = signerJson id ((orElse (signer.get (js "alg")) (some ed25519)).getD ed25519) := by
  unfold normalizeSigner at h
  split at h
  · rename_i fs hfs
    cases hfs
    obtain ⟨id, hid, h⟩ := Except.bind_eq_ok.1 h
    cases Except.pure_eq_ok.1 h
    exact ⟨id, (requiredString_ok.1 hid).2, rfl⟩
  · rename_i hobj
    have hnone : signer.get (js "alg") = none := by
      cases signer with
      | obj fs => exact absurd rfl (hobj fs)
      | _ => rfl
    cases sk with
    | none => cases h
    | some sk =>
      obtain ⟨pk, -, h⟩ := Except.bind_eq_ok.1 h
      cases Except.pure_eq_ok.1 h
      exact ⟨keyIdOf pk, List.append_ne_nil_of_left_ne_nil (by decide) _, by rw [hnone]; rfl⟩

theorem isAlgObject_signerJson {id : JsString} {alg : Json} (hne : id ≠ []) :
    isAlgObject (some (signerJson id alg)) (js "key_id") = Json.isStr (some alg) (js "Ed25519") := by
  simp [isAlgObject, signerJson, hne]

theorem receiptHasPublicShape_signed {b : ReceiptBody} {signature : JsString} (hb : b.Valid)
    (hsigner : isAlgObject (some b.signer) (js "key_id") = true) (hne : signature ≠ []) :
    receiptHasPublicShape P (b.signed P signature) = true := by
  have hr := reads_signed (P := P) b signature
  have hkeys : (b.signed P signature).keys.all
      (fun key => decide (key ∈ receiptFields) && !decide (key ∈ passportPlaintextKeys)) = true := by
    have hfields : receiptFields.all (fun key => decide (key ∈ receiptFields) && !decide (key ∈ passportPlaintextKeys)) = true := by
      decide
    exact List.all_eq_true.2 fun key hkey => List.all_eq_true.1 hfields key ((keys_orderReceiptFields _).subset hkey)
  have hvalue : isAlgObject (some (signatureJson signature)) (js "value") = true := by
    simp [isAlgObject, signatureJson, ed25519, hne]
  have hsigkeys : (signatureJson signature).keys.all (fun key => decide (key ∈ receiptSignatureFields)) = true := by
    simp [signatureJson, Json.keys, receiptSignatureFields]
  have hseq : (Json.natural? (some (.num (b.sequence : ℚ)))).isSome = true := by simp [Json.natural?]
  have hprev : previousReceiptTest P (some (.str b.previous_receipt_hash)) = true := by
    change (b.previous_receipt_hash == genesis || isRoot b.previous_receipt_hash) = true
    rcases hb.previous with h | h
    · simp [h]
    · simp [h]
  unfold receiptHasPublicShape
  rw [hr.schema, hkeys, hr.signer, hsigner, signed_signature, hvalue, signed_receipt_id, hr.operation, hr.tenant_id,
    hr.subject_id, hr.sequence, hseq, hr.event_hash, hr.active_set_root, hr.receipt_log_root, hr.previous_receipt_hash,
    hprev, rootTest_str, rootTest_str, rootTest_str, hb.event_hash, hb.active_set_root, hb.receipt_log_root]
  simp [isString, hsigkeys]

/-- **An issued receipt passes the loop over the receipts.** -/
theorem IssuedFor.verified {operation : String} {addr : JsString} {r : Json} (h : IssuedFor P v operation addr r)
    (halg : SignsEd25519 v) (hkey : ∀ sk, v.signingKeyPair.privateKey = some sk → SigningKey P pk sk) :
    Verified P (trustKey P (.str pk)) r := by
  obtain ⟨b, signature, sk, rfl, hb, -, -, hsigner, hsk, hsign, hne⟩ := h
  obtain ⟨id, hid, heq⟩ := normalizeSigner_eq hsigner
  rw [halg, Option.getD_some] at heq
  have hsigned : isAlgObject (some b.signer) (js "key_id") = true := by
    rw [heq, isAlgObject_signerJson hid]
    simp [ed25519]
  have hwell : malformed (some b.signer) (js "key_id") = false := by
    simp [heq, malformed, signerJson, ed25519, Json.truthy, Json.isStr, hid]
  exact ⟨receiptHasPublicShape_signed hb hsigned hne, verifyReceipt_signed hb hwell hne (hkey sk hsk) hsign rfl rfl⟩

/-- Under another algorithm no receipt passes. -/
theorem IssuedFor.not_verified {operation : String} {addr : JsString} {r : Json} {o : VerifyOptions}
    (h : IssuedFor P v operation addr r) (halg : ¬ SignsEd25519 v) : ¬ Verified P o r := by
  obtain ⟨b, signature, sk, rfl, hb, -, -, hsigner, -⟩ := h
  obtain ⟨id, hid, heq⟩ := normalizeSigner_eq hsigner
  rintro ⟨hshape, -⟩
  have hread : isAlgObject (some b.signer) (js "key_id") = true := by
    unfold receiptHasPublicShape at hshape
    simp only [Bool.and_eq_true, and_assoc] at hshape
    obtain ⟨-, -, hsigner, -⟩ := hshape
    rwa [(reads_signed (P := P) b signature).signer] at hsigner
  rw [heq, isAlgObject_signerJson hid, isStr_iff] at hread
  refine halg ?_
  unfold SignsEd25519
  cases hor : orElse (v.signer.get (js "alg")) (some ed25519) with
  | some alg =>
    rw [hor] at hread
    exact hread
  | none =>
    exfalso
    revert hor
    rcases v.signer.get (js "alg") with - | j
    · simp [orElse]
    · cases j <;> simp [orElse]

theorem IssuedFor.accounts {operation : String} {addr : JsString} {r : Json} (h : IssuedFor P v operation addr r) :
    Accounts operation (.str addr) r := by
  obtain ⟨b, signature, sk, rfl, -, hop, haddr, -⟩ := h
  have hr := reads_signed (P := P) b signature
  exact ⟨⟨.str addr, hr.memory_addr.trans haddr, by simp [sameValue]⟩, by rw [hr.operation, hop]⟩

/-! ## The verdict on a compiled pack -/

/-- `{ contextPack: pack, vault: w, publicKey: pk }`. -/
def compiledArgs (pack : ContextPack) (w : Vault) (pk : JsString) : VerifyPackArgs where
  options := .obj [(js "contextPack", pack.toJson), (js "publicKey", .str pk)]
  vault := some (.vault w)

theorem packOf_compiled : packOf (compiledArgs pack w pk) = some pack.toJson := by
  simp [packOf, compiledArgs, firstOf, orElse, Json.isStr, ContextPack.toJson]

theorem trusted_compiled : trustedKeyOptions P (compiledArgs pack w pk).options = some (trustKey P (.str pk)) := by
  simp [trustedKeyOptions, compiledArgs, firstOf, path, orElse]

theorem packReads_compiled : PackReads P (compiledArgs pack w pk) pack.toJson (w.tombstones.keys.map .str)
    (pack.memory_addresses.map .str) pack.memories (pack.retrieval_receipts ++ pack.injection_receipts)
    (trustKey P (.str pk)) where
  tombstones := by
    simp [suppliedTombstones, compiledArgs, tombstoneAddressesFrom, tombstoneList, iterate, bind, Except.bind, pure,
      Except.pure]
  addresses := by simp [ContextPack.toJson, iterate]
  memories := by simp [ContextPack.toJson, iterate]
  receipts := by simp [ContextPack.toJson, iterate]
  options := trusted_compiled

theorem aliveIn_compiled {a : JsString} :
    AliveIn (compiledArgs pack w pk) (w.tombstones.keys.map .str) (.str a) ↔ Live w a := by
  have hactive : suppliedActive (compiledArgs pack w pk) = w.activeAddresses.elems.map .str := by
    simp [suppliedActive, compiledArgs, activeAddressesFrom]
  rw [AliveIn, hactive, ← Bool.not_eq_true, hasValue_map_str, hasValue_map_str, OrdMap.mem_keys, Bool.not_eq_true]
  exact ⟨fun h => ⟨h.1, h.2⟩, fun h => ⟨h.active, h.free⟩⟩

theorem packVerdict_compiled : ∃ r, packVerdict P pack.toJson [] = .ok r := by
  have haddresses : iterate (pack.toJson.get (js "memory_addresses")) = .ok (pack.memory_addresses.map .str) := by
    simp [ContextPack.toJson, iterate]
  have hhashes : iterate (pack.toJson.get (js "receipt_hashes")) = .ok (pack.receipt_hashes.map .str) := by
    simp [ContextPack.toJson, iterate]
  unfold packVerdict publicContextPack
  rw [haddresses, hhashes]
  exact ⟨_, rfl⟩

/-- A compiled pack is valid when no check finds an error, and otherwise the verifier throws. -/
theorem verifyContextPack_compiled (P : Platform) (pack : ContextPack) (w : Vault) (pk : JsString) :
    (∀ r, verifyContextPack P (compiledArgs pack w pk) = .ok r → r.valid = true) ∧
      ((∃ r, verifyContextPack P (compiledArgs pack w pk) = .ok r) ↔
        contextPackErrors P (compiledArgs pack w pk) pack.toJson = .ok []) := by
  have hpack : packOf (compiledArgs pack w pk) = some pack.toJson := packOf_compiled
  have htrusted := verifyContextPack_trusted hpack (trusted_compiled (P := P))
  refine ⟨htrusted.1, ?_, htrusted.2 (by simp [ContextPack.toJson]) packVerdict_compiled⟩
  rintro ⟨r, hr⟩
  exact verifyContextPack_valid hpack hr (htrusted.1 r hr)

theorem packs_named (hfiled : Filed v) {addrs : List JsString} {memories : List Json}
    (h : List.Forall₂ (Packs P v) addrs memories) :
    ∀ m ∈ memories, ∃ a ∈ addrs, m.get (js "memory_addr") = some (.str a) := by
  induction h with
  | nil => simp
  | @cons a m addrs ms hm _ ih =>
    obtain ⟨record, content, hget, -, hmemory⟩ := hm
    obtain ⟨fate, hrecord, -⟩ := hfiled.record a record hget
    intro m' hm'
    rcases List.mem_cons.1 hm' with rfl | hm'
    · refine ⟨a, by simp, ?_⟩
      rw [hmemory]
      simp [publicMemory, get_obj_append, hrecord.addr]
    · obtain ⟨a', ha', hget'⟩ := ih m' hm'
      exact ⟨a', by simp [ha'], hget'⟩

theorem compiled_errors_nil {env : Ambient} {args : PackArgs} (hfiled : Filed v)
    (h : compileContextPack P env args v = .ok pack v') (halg : SignsEd25519 v)
    (hkey : ∀ sk, v.signingKeyPair.privateKey = some sk → SigningKey P pk sk) :
    contextPackErrors P (compiledArgs pack w pk) pack.toJson = .ok [] ↔ ∀ a ∈ pack.memory_addresses, Live w a := by
  have hissued := compileContextPack_issued h
  have hlive := (compileContextPack_steps h).2
  rw [contextPackErrors_nil packReads_compiled]
  constructor
  · rintro ⟨haddresses, -, -⟩ a ha
    exact aliveIn_compiled.1 (haddresses _ (List.mem_map_of_mem ha)).1
  · intro halive
    refine ⟨fun j hj => ?_, fun m hm j hget _ => ?_, fun r hr => ?_⟩
    · obtain ⟨a, ha, rfl⟩ := List.mem_map.1 hj
      have hne : a ≠ [] := (hfiled.address a (hlive a ha).1.active).ne
      refine ⟨aliveIn_compiled.2 (halive a ha), by simpa [Json.truthy] using hne, fun operation hop => ?_⟩
      obtain ⟨r, hr, hfor⟩ := hissued.covers a ha operation hop
      exact ⟨r, hr, hfor.accounts⟩
    · obtain ⟨a, ha, hname⟩ := packs_named hfiled (compileContextPack_packs h) m hm
      cases hget.symm.trans hname
      exact aliveIn_compiled.2 (halive a ha)
    · obtain ⟨operation, a, hfor⟩ := hissued.each r hr
      exact hfor.verified halg hkey

/-- **A compiled pack verifies exactly while its memories are alive.** Whatever has happened
to the vault since, the pack is valid against it when every address of the pack is active and
not tombstoned there, and otherwise the verifier throws. -/
theorem compiled_verifies_iff (P : Platform) (env : Ambient) (args : PackArgs) (v v' w : Vault) (pack : ContextPack)
    (pk : JsString) (hreach : Reachable P v) (hcompile : compileContextPack P env args v = .ok pack v')
    (halg : SignsEd25519 v) (hkey : ∀ sk, v.signingKeyPair.privateKey = some sk → SigningKey P pk sk) :
    ((∃ r, verifyContextPack P (compiledArgs pack w pk) = .ok r ∧ r.valid = true) ↔
      ∀ a ∈ pack.memory_addresses, a ∈ w.activeAddresses ∧ w.tombstones.has a = false) ∧
    ((∃ e, verifyContextPack P (compiledArgs pack w pk) = .error e) ↔
      ¬ ∀ a ∈ pack.memory_addresses, a ∈ w.activeAddresses ∧ w.tombstones.has a = false) := by
  obtain ⟨hvalid, hiff⟩ := verifyContextPack_compiled P pack w pk
  have hnil := compiled_errors_nil (w := w) hreach.filed hcompile halg hkey
  have hlive : (∀ a ∈ pack.memory_addresses, Live w a) ↔
      ∀ a ∈ pack.memory_addresses, a ∈ w.activeAddresses ∧ w.tombstones.has a = false :=
    forall₂_congr fun a _ => ⟨fun h => ⟨h.active, h.free⟩, fun h => ⟨h.1, h.2⟩⟩
  have hok : (∃ r, verifyContextPack P (compiledArgs pack w pk) = .ok r) ↔
      ∀ a ∈ pack.memory_addresses, a ∈ w.activeAddresses ∧ w.tombstones.has a = false := by
    rw [hiff, hnil, hlive]
  constructor
  · rw [← hok]
    exact exists_congr fun r => ⟨fun h => h.1, fun h => ⟨h, hvalid r h⟩⟩
  · rw [← hok]
    cases verifyContextPack P (compiledArgs pack w pk) with
    | ok r => simp
    | error e => simp

/-- The first memory in a pack of its own. -/
theorem FirstMemory.packed {v₀ : Vault} {addr : JsString} (h : FirstMemory v₀ v addr) : ∃ pack v',
    compileContextPack reference referenceEnv { memory_addresses := some [addr] } v = .ok pack v' ∧
      pack.memory_addresses = [addr] := by
  obtain ⟨u, hexec⟩ := stepCall_eq_some.1 h.remembered
  obtain ⟨r, hr⟩ := discard_ok.1 hexec
  obtain ⟨record, pack, v', -, -, -, hpack, hlist⟩ := remembered_packed h.signer₀ h.writable rfl hr
  obtain ⟨content, -, -, hcontent, -, haddr, -⟩ := remember_step hr
  cases hcontent
  rw [haddr, ← h.address] at hpack hlist
  exact ⟨pack, v', hpack, hlist⟩

theorem FirstMemory.reachable {v₀ : Vault} {addr : JsString} (h : FirstMemory v₀ v addr) : Reachable reference v :=
  ⟨referenceEnv, {}, v₀, h.created, .single (.call h.remembered)⟩

theorem FirstMemory.signsEd25519 {v₀ : Vault} {addr : JsString} (h : FirstMemory v₀ v addr) : SignsEd25519 v := by
  have hsigner := (createVault_created h.created).signer
  rw [SignsEd25519, (stepCall_grows h.remembered).signer, hsigner]
  simp [withDefault, orElse, signerFor, ed25519]

/-- The pack of the first memory is valid until the memory is deleted. -/
theorem compiled_verifies_tea : ∃ v₀ v v' v'' addr pack, createVault reference referenceEnv {} = .ok v₀ ∧
    stepCall reference v₀ (.remember referenceEnv { content := some tea }) = some v ∧
    compileContextPack reference referenceEnv { memory_addresses := some [addr] } v = .ok pack v' ∧
    pack.memory_addresses = [addr] ∧
    (∃ r, verifyContextPack reference (compiledArgs pack v' Reference.publicKey) = .ok r ∧ r.valid = true) ∧
    stepCall reference v' (.deleteMemory referenceEnv { memory_addr := some addr }) = some v'' ∧
    ∃ e, verifyContextPack reference (compiledArgs pack v'' Reference.publicKey) = .error e := by
  obtain ⟨v₀, v, addr, h⟩ := firstMemory
  obtain ⟨pack, v', hpack, hlist⟩ := h.packed
  have hreach := h.reachable
  have halg := h.signsEd25519
  have hsame := compileContextPack_sameStore hpack
  have hgrows : Grows v v' := stepCall_grows (c := .compileContextPack referenceEnv { memory_addresses := some [addr] })
    (stepCall_eq_some.2 ⟨(), discard_ok.2 ⟨pack, hpack⟩⟩)
  have hlive : Live v' addr := ⟨hsame.activeAddresses ▸ h.live.active, hsame.tombstones ▸ h.live.free⟩
  have hgrows₀ : Grows v₀ v' := (stepCall_grows h.remembered).trans _ _ _ hgrows
  have hdelete : Succeeds (deleteMemory reference referenceEnv { memory_addr := some addr }) v' :=
    deleteMemory_ok (hgrows.signer_ok h.signer) rfl h.ne h.quiet hlive (h.writable.of_grows hgrows₀)
  obtain ⟨r, v'', hr⟩ := hdelete
  have hgone : addr ∉ v''.activeAddresses := by
    obtain ⟨a, f, record, tombstone, hstep, hargs, -, -⟩ := deleteMemory_step hr
    obtain rfl : addr = a := Option.some.inj hargs
    obtain ⟨env, e, -, rfl⟩ := hstep.appended
    exact fun ha => (OrdSet.mem_delete.1 ha).1 rfl
  have hkey := fun (sk : JsString) (_ : v.signingKeyPair.privateKey = some sk) =>
    reference_signingKey Reference.publicKey sk
  refine ⟨v₀, v, v', v'', addr, pack, h.created, h.remembered, hpack, hlist, ?_,
    stepCall_eq_some.2 ⟨(), discard_ok.2 ⟨r, hr⟩⟩, ?_⟩
  · refine (compiled_verifies_iff reference referenceEnv _ v v' v' pack Reference.publicKey hreach hpack halg hkey).1.2 ?_
    intro a ha
    obtain rfl : a = addr := by simpa [hlist] using ha
    exact ⟨hlive.active, hlive.free⟩
  · refine (compiled_verifies_iff reference referenceEnv _ v v' v'' pack Reference.publicKey hreach hpack halg hkey).2.2 ?_
    intro hall
    exact hgone (hall addr (by simp [hlist])).1

/-! ## A vault with another signer -/

/-- A signer that names another algorithm. -/
def laptopSigner : Json := .obj [(js "key_id", .str (js "laptop")), (js "alg", .str (js "ES256"))]

/-- **A caller may name another algorithm.** The vault issues its receipts under it, and the
verifier refuses them although the memory is alive. -/
theorem laptop_pack_refused : ∃ v₀ v v' addr pack,
    createVault reference referenceEnv { signer := some laptopSigner } = .ok v₀ ∧
    stepCall reference v₀ (.remember referenceEnv { content := some tea }) = some v ∧
    compileContextPack reference referenceEnv { memory_addresses := some [addr] } v = .ok pack v' ∧
    pack.memory_addresses = [addr] ∧
    (∀ a ∈ pack.memory_addresses, a ∈ v'.activeAddresses ∧ v'.tombstones.has a = false) ∧
    ∃ e, verifyContextPack reference (compiledArgs pack v' Reference.publicKey) = .error e := by
  obtain ⟨v₀, hcreate⟩ : ∃ v₀, createVault reference referenceEnv { signer := some laptopSigner } = .ok v₀ := ⟨_, rfl⟩
  have hnew := createVault_created hcreate
  have hsigner : v₀.signer = laptopSigner := hnew.signer
  have hsk := hnew.privateKey_reference rfl
  have hs : Signer reference Reference.privateKey v₀ := by
    refine ⟨hsk, reference_signs _, ?_, ?_, by rw [hnew.sequence]⟩
    · rw [hnew.tenant_id]
      exact ⟨js "local", rfl, by decide, by decide⟩
    · rw [hsigner]
      exact ⟨laptopSigner, rfl, by decide⟩
  have hw : Writable reference v₀ none .absent := by
    refine ⟨trivial, ?_, ?_⟩
    · rw [hnew.subject_id]
      exact ⟨js "local-subject", rfl, by decide, by decide⟩
    · rw [hnew.policy_id]
      exact harmless_some.2 (by decide)
  have hfree : ∀ a, v₀.tombstones.has a = false := by
    intro a
    rw [hnew.tombstones]
    rfl
  have hok : Succeeds (remember reference referenceEnv { content := some tea }) v₀ :=
    remember_ok hs rfl tea_ne_null trivial (hfree _) hw.subject_id hw.policy_id
  obtain ⟨r, v, hr⟩ := hok
  have hv : stepCall reference v₀ (.remember referenceEnv { content := some tea }) = some v :=
    stepCall_eq_some.2 ⟨(), discard_ok.2 ⟨r, hr⟩⟩
  obtain ⟨record, pack, v', -, -, hlive, hpack, hlist⟩ := remembered_packed hs hw rfl hr
  have hsame := compileContextPack_sameStore hpack
  have halg : ¬ SignsEd25519 v := by
    rw [SignsEd25519, (stepCall_grows hv).signer, hsigner]
    simp [laptopSigner, orElse, ed25519]
  refine ⟨v₀, v, v', r.memory_addr, pack, hcreate, hv, hpack, hlist, fun a ha => ?_, ?_⟩
  · obtain rfl : a = r.memory_addr := by simpa [hlist] using ha
    exact ⟨hsame.activeAddresses ▸ hlive.active, hsame.tombstones ▸ hlive.free⟩
  · -- a pack with a memory has a receipt, and none of them passes
    obtain ⟨-, hiff⟩ := verifyContextPack_compiled reference pack v' Reference.publicKey
    cases hverify : verifyContextPack reference (compiledArgs pack v' Reference.publicKey) with
    | error e => exact ⟨e, rfl⟩
    | ok verdict =>
      exfalso
      have hnil := hiff.1 ⟨verdict, hverify⟩
      obtain ⟨-, -, hverified⟩ := (contextPackErrors_nil packReads_compiled).1 hnil
      obtain ⟨receipt, hmem, hfor⟩ := (compileContextPack_issued hpack).covers r.memory_addr (by simp [hlist]) "retrieve"
        (by simp)
      exact hfor.not_verified halg (hverified receipt hmem)

end EnigmaMemory
