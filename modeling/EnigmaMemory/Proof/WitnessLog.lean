import EnigmaMemory.Lib.HashChain
import EnigmaMemory.Proof.Reference
import EnigmaMemory.Proof.Relay
import EnigmaMemory.Spec.RelaySnapshot

/-!
# The witness log is a hash chain

The request handler and the reader of a snapshot check a checkpoint in different words; the handler's
check of the finished checkpoint is what the reader's loop asks for, one epoch later.

* `verify_complete`: what the verifier asks of a signed checkpoint.
* `validate_snoc`: the reader accepts a log with one checkpoint more.
* `witness_log_chained`: the log of every run is a chain, and the reader accepts it.
-/

namespace EnigmaMemory.Relay

open Json Mesh HashChain

variable {P : Platform}

/-! ## Checks -/

theorem assertPlainRecord_ok {value : Option Json} {context : String} {j : Json} :
    assertPlainRecord value context = .ok j ↔ value = some j ∧ j.isPlainRecord = true := by
  unfold assertPlainRecord
  split
  · rename_i fs
    constructor
    · intro h
      cases h
      exact ⟨rfl, rfl⟩
    · rintro ⟨h, -⟩
      cases h
      rfl
  · rename_i hne
    refine iff_of_false (fun h => nomatch h) ?_
    rintro ⟨rfl, hplain⟩
    cases j with
    | obj fs => exact hne fs rfl
    | _ => cases hplain

theorem assertRoot_ok {value : Option Json} {name : String} {s : JsString} :
    assertRoot value name = .ok s ↔ value = some (.str s) ∧ isRoot s = true := by
  unfold assertRoot
  split
  · rename_i t
    by_cases ht : isRoot t = true
    · rw [if_pos ht]
      constructor
      · intro h
        cases h
        exact ⟨rfl, ht⟩
      · rintro ⟨h, -⟩
        cases h
        rfl
    · rw [if_neg ht]
      refine iff_of_false (fun h => nomatch h) ?_
      rintro ⟨h, hs⟩
      cases h
      exact ht hs
  · rename_i hne
    exact iff_of_false (fun h => nomatch h) fun h => hne s h.1

theorem checkSuppliedPrevious_ok {supplied : Option Json} {expected : JsString} {u : Unit} :
    checkSuppliedPrevious supplied expected = .ok u ↔
      ∀ v, supplied = some v → v = .str expected ∧ isRoot expected = true := by
  cases supplied with
  | none => exact iff_of_true rfl (fun v h => nomatch h)
  | some v =>
    simp only [checkSuppliedPrevious, Except.bind_eq_ok, assertRoot_ok, failIf_ok, not_not]
    constructor
    · rintro ⟨s, ⟨hv, hs⟩, rfl⟩ w hw
      exact ⟨Option.some.inj (hw.symm.trans hv), hs⟩
    · intro h
      obtain ⟨rfl, hs⟩ := h v rfl
      exact ⟨expected, ⟨rfl, hs⟩, rfl⟩

/-! ## A checkpoint of the handler -/

theorem get_checkpointOptions {s : RelayState} {env : RelayEnv} {body epoch : Json} {previous key : JsString} :
    (checkpointOptions s env body epoch previous).get key = ((Json.obj [(js "witness_node_id", .str s.node.node_id),
      (js "epoch", epoch), (js "previous_witness_hash", .str previous),
      (js "receipt_log_root", (firstOf [body.get (js "receipt_log_root"), body.get (js "receiptLogRoot"),
        some (.str emptyMerkleRoot)]).getD .null),
      (js "active_set_root", (firstOf [body.get (js "active_set_root"), body.get (js "activeSetRoot"),
        body.get (js "active_memory_root"), body.get (js "activeMemoryRoot"), some (.str emptyMerkleRoot)]).getD .null),
      (js "issued_at", (firstOf [body.get (js "issued_at"), body.get (js "issuedAt"), some (.str (env.now 0))]).getD .null)]).get
      key).or (body.get key) := get_spread (by simp) _ _

/-- **What an accepted request has been checked for**, and the checkpoint it appends. -/
structure Accepts (P : Platform) (s : RelayState) (env : RelayEnv) (body checkpoint : Json) (witnessBody : Json) (c : Checkpoint)
    (signature : Json) : Prop where
  normalized : normalizeWitnessInput body = .ok witnessBody
  moves : epochStalls s.witnessLog.getLast? (requestEpoch s.witnessLog.getLast? witnessBody) = false
  continues : ∀ v, orElse (witnessBody.get (js "previous_witness_hash")) (witnessBody.get (js "previousWitnessHash")) = some v →
    v = .str (previousWitnessHash s.witnessLog) ∧ isRoot (previousWitnessHash s.witnessLog) = true
  reads : Reads P (checkpointOptions s env witnessBody (requestEpoch s.witnessLog.getLast? witnessBody)
    (previousWitnessHash s.witnessLog)) s.node c
  signs : createSignature P (c.toJson P) s.node = .ok signature
  complete : checkpoint = c.complete P signature
  verified : verifyWitnessCheckpoint P checkpoint (expectation s.node checkpoint (previousWitnessHash s.witnessLog)
    (numberOf (some (requestEpoch s.witnessLog.getLast? witnessBody)))) = []

theorem witnessed_ok {s : RelayState} {env : RelayEnv} {body checkpoint : Json} : witnessed P s env body = .ok checkpoint ↔
    ∃ witnessBody c signature, Accepts P s env body checkpoint witnessBody c signature := by
  simp only [witnessed, createWitnessCheckpoint, Except.bind_eq_ok, failIf_ok, checkSuppliedPrevious_ok, readCheckpoint_ok,
    Bool.not_eq_true, ne_eq, not_not]
  constructor
  · rintro ⟨witnessBody, hnormalized, ⟨⟩, hmoves, ⟨⟩, hcontinues, _, ⟨c, hreads, signature, hsigns, h⟩, ⟨⟩, hverified, h'⟩
    cases h
    cases h'
    exact ⟨witnessBody, c, signature, hnormalized, hmoves, hcontinues, hreads, hsigns, rfl, hverified⟩
  · rintro ⟨witnessBody, c, signature, h⟩
    exact ⟨witnessBody, h.normalized, (), h.moves, (), h.continues, checkpoint,
      ⟨c, h.reads, signature, h.signs, congrArg Except.ok h.complete.symm⟩, (), h.verified, rfl⟩

variable {s : RelayState} {env : RelayEnv} {body checkpoint witnessBody signature : Json} {c : Checkpoint}

theorem Accepts.epoch (h : Accepts P s env body checkpoint witnessBody c signature) :
    requestEpoch s.witnessLog.getLast? witnessBody = .num c.epoch := by
  have hepoch := h.reads.epoch
  rw [get_checkpointOptions] at hepoch
  simpa using hepoch

theorem Accepts.witness (h : Accepts P s env body checkpoint witnessBody c signature) : c.witness_node_id = s.node.node_id := by
  have hwitness := (requiredString_ok.1 h.reads.witness_node_id).1
  rw [get_checkpointOptions] at hwitness
  simpa [firstOf, orElse] using hwitness.symm

theorem Accepts.previous (h : Accepts P s env body checkpoint witnessBody c signature)
    (hroot : isRoot (previousWitnessHash s.witnessLog) = true) : c.previous_witness_hash = previousWitnessHash s.witnessLog := by
  have hprevious := h.reads.previous_witness_hash
  rw [get_checkpointOptions] at hprevious
  simp only [get_obj_cons, js_inj, String.reduceEq, if_false, if_true, Option.some_or, firstOf, orElse,
    normalizeRoot_of_isRoot hroot] at hprevious
  exact (Except.ok.inj hprevious).symm

theorem Accepts.isRoot_receipt (h : Accepts P s env body checkpoint witnessBody c signature) :
    isRoot c.receipt_log_root = true := isRoot_of_normalizeRoot h.reads.receipt_log_root

theorem Accepts.isRoot_active (h : Accepts P s env body checkpoint witnessBody c signature) :
    isRoot c.active_set_root = true := isRoot_of_normalizeRoot h.reads.active_set_root

theorem Accepts.isRoot_previous (h : Accepts P s env body checkpoint witnessBody c signature) :
    isRoot c.previous_witness_hash = true := isRoot_of_normalizeRoot h.reads.previous_witness_hash

/-- The epoch of an accepted request is above that of the last checkpoint. -/
theorem Accepts.epoch_lt (h : Accepts P s env body checkpoint witnessBody c signature) {last : Json}
    (hlast : s.witnessLog.getLast? = some last) : epochOf last < c.epoch := by
  have hmoves := h.moves
  rw [h.epoch, hlast] at hmoves
  simpa [epochStalls] using hmoves

/-! ## The verifier on a signed checkpoint -/

theorem root_eq : rootFromValue P (checkpointContents (some (.str c.subject_node_id)) (some (.str c.receipt_log_root))
    (some (.str c.active_set_root)) (some (.num c.epoch)) (some (.str c.previous_witness_hash))) = c.root P := rfl

/-- **What the verifier asks of a signed checkpoint.** -/
theorem verify_complete {node : Node} {previous : JsString} {minimum : ℚ} (hreceipt : isRoot c.receipt_log_root = true)
    (hactive : isRoot c.active_set_root = true) (hprevious : isRoot c.previous_witness_hash = true) (hexpected : isRoot previous = true) :
    verifyWitnessCheckpoint P (c.complete P signature) (expectation node (c.complete P signature) previous minimum) = [] ↔
      hasPlaintextLeak Mesh.FORBIDDEN_PLAINTEXT_KEYS (c.complete P signature) = false ∧ c.previous_witness_hash = previous ∧
      (minimum.den = 1 ∧ minimum ≤ c.epoch) ∧ c.witness_node_id = node.node_id ∧
      verifySignedRecord P node.trust_descriptor (c.complete P signature) = [] := by
  have hplain : (c.complete P signature).isPlainRecord = true := rfl
  have hroot : isRoot (c.root P) = true := isRoot_rootFromValue _
  have hepoch : (Json.natural? (some (.num (c.epoch : ℚ)))).isNone = false := by
    rw [natural?_eq_some.2 rfl]
    rfl
  simp only [verifyWitnessCheckpoint, hplain, Bool.not_true, Bool.false_eq_true, if_false, List.append_eq_nil_iff, errorIf_eq_nil,
    expectation, root_eq, get_complete_subject, get_complete_schema, get_complete_epoch, get_complete_root, get_complete_receipt,
    get_complete_active, get_complete_previous, get_complete_witness, List.flatMap_cons, List.flatMap_nil, rootTest_str, hroot,
    hreceipt, hactive, hprevious, hepoch, compareExpectedRoot_self, hexpected, numberOf, isStr, beq_iff_eq,
    Bool.not_eq_false', Bool.or_eq_false_iff, bne_eq_false_iff_eq, decide_eq_false_iff_not, not_lt, and_true, and_assoc,
    beq_self_eq_true]

/-! ## Names of fields -/

/-- The keys of what a relay signs and keeps. -/
def publicNames : List JsString :=
  RELAY_STATE_KEYS ++ RELAY_STATE_NODE_KEYS ++ RELAY_STATE_STORE_KEYS ++ RELAY_STATE_STORE_METADATA_KEYS ++
    RELAY_STATE_AUTHORIZATION_KEYS ++ RELAY_STATE_RECORD_KEYS ++ RELAY_STATE_PAIRING_KEYS ++ SIGNATURE_KEYS ++
    WITNESS_CHECKPOINT_KEYS ++ [js "witness_checkpoint_id", js "witness_node_id", js "witness_hash", js "role", js "key",
      js "public_key", js "capabilities", js "trust_roots", js "endpoints", js "descriptor_hash"]

theorem publicNames_harmless : ∀ k ∈ publicNames, isPlaintextKeyOf FORBIDDEN_PLAINTEXT_KEYS k = false := by decide +kernel

/-- No name that the mesh package forbids is one that the relay lets pass. -/
theorem forbidden_subset : ∀ k ∈ Mesh.FORBIDDEN_PLAINTEXT_KEYS, k ∈ FORBIDDEN_PLAINTEXT_KEYS := by decide +kernel

theorem leak_of_names {fs : List (JsString × Json)} (hnames : ∀ k ∈ fs.map Prod.fst, k ∈ publicNames)
    (hvalues : ∀ f ∈ fs, hasPlaintextLeak FORBIDDEN_PLAINTEXT_KEYS f.2 = false) :
    hasPlaintextLeak FORBIDDEN_PLAINTEXT_KEYS (.obj fs) = false :=
  leak_of_keys (fun k hk => publicNames_harmless k (hnames k hk)) hvalues

theorem leak_signatureObject (node : Node) (value : JsString) :
    hasPlaintextLeak FORBIDDEN_PLAINTEXT_KEYS (signatureObject node value) = false := by
  refine leak_of_names ?_ ?_
  · simp [publicNames, SIGNATURE_KEYS]
  · simp [leak_str, ed25519]

theorem leak_complete (node : Node) (value : JsString) :
    hasPlaintextLeak FORBIDDEN_PLAINTEXT_KEYS (c.complete P (signatureObject node value)) = false := by
  rw [Checkpoint.complete, hashed, signed]
  refine leak_of_names ?_ ?_
  · simp [Checkpoint.toJson, fields, publicNames, RELAY_STATE_RECORD_KEYS, RELAY_STATE_KEYS, WITNESS_CHECKPOINT_KEYS]
  · simp [Checkpoint.toJson, fields, leak_signatureObject, hasPlaintextLeak]

/-! ## The reader -/

/-- What the reader has checked a checkpoint for. -/
theorem validateCheckpoint_ok {x checkpoint : Json} {node : Node} {previous : JsString} {epoch : ℚ} :
    validateCheckpoint P x node previous epoch = .ok checkpoint ↔ x = checkpoint ∧ x.isPlainRecord = true ∧
      hasPlaintextLeak FORBIDDEN_PLAINTEXT_KEYS x = false ∧
      (x.get (js "witness_hash") = some (.str (signedRecordHash P x (js "witness_hash")))) ∧
      verifyWitnessCheckpoint P x (expectation node x previous (epoch + 1)) = [] ∧ epoch < epochOf x := by
  simp only [validateCheckpoint, assertNoPlaintextLookingFields, Except.bind_eq_ok, assertPlainRecord_ok, failIf_ok, assertRoot_ok,
    Bool.not_eq_true, ne_eq, not_not, not_le, pure, Except.pure, Except.ok.injEq]
  constructor
  · rintro ⟨_, ⟨h, hplain⟩, ⟨⟩, hleak, hash, ⟨hget, -⟩, ⟨⟩, hhash, ⟨⟩, hverified, ⟨⟩, hepoch, h'⟩
    cases h
    cases h'
    exact ⟨rfl, hplain, hleak, hhash ▸ hget, hverified, hepoch⟩
  · rintro ⟨rfl, hplain, hleak, hhash, hverified, hepoch⟩
    exact ⟨x, ⟨rfl, hplain⟩, (), hleak, _, ⟨hhash, isRoot_rootFromValue _⟩, (), rfl, (), hverified, (), hepoch, rfl⟩

/-- A log that the reader accepts from a hash and an epoch on. -/
def Valid (P : Platform) (node : Node) (log : List Json) (previous : JsString) (epoch : ℚ) : Prop :=
  validateCheckpoints P node log previous epoch = .ok log

theorem valid_cons {node : Node} {x : Json} {rest : List Json} {previous : JsString} {epoch : ℚ} :
    Valid P node (x :: rest) previous epoch ↔ validateCheckpoint P x node previous epoch = .ok x ∧
      Valid P node rest (textOf x "witness_hash") (epochOf x) := by
  simp only [Valid, validateCheckpoints, Except.bind_eq_ok, pure, Except.pure, Except.ok.injEq, List.cons.injEq]
  constructor
  · rintro ⟨y, hy, rest', hrest, rfl, rfl⟩
    exact ⟨hy, hrest⟩
  · rintro ⟨hx, hrest⟩
    exact ⟨x, hx, rest, hrest, rfl, rfl⟩

def lastEpoch (epoch : ℚ) (log : List Json) : ℚ := (log.getLast?.map epochOf).getD epoch

/-- **The reader accepts one checkpoint more** when it follows on the last. -/
theorem validate_snoc {node : Node} {log : List Json} {x : Json} {previous : JsString} {epoch : ℚ}
    (hlog : Valid P node log previous epoch)
    (hx : validateCheckpoint P x node (lastDigest (textOf · "witness_hash") previous log) (lastEpoch epoch log) = .ok x) :
    Valid P node (log ++ [x]) previous epoch := by
  induction log generalizing previous epoch with
  | nil => exact valid_cons.2 ⟨hx, rfl⟩
  | cons y rest ih =>
    obtain ⟨hy, hrest⟩ := valid_cons.1 hlog
    refine valid_cons.2 ⟨hy, ih hrest ?_⟩
    rw [lastDigest_cons] at hx
    rw [show lastEpoch (epochOf y) rest = lastEpoch epoch (y :: rest) from ?_]
    · exact hx
    · cases rest with
      | nil => rfl
      | cons z rest =>
        rw [lastEpoch, lastEpoch, List.getLast?_cons_cons]
        cases h : (z :: rest).getLast? with
        | none => simp at h
        | some w => rfl

/-! ## The chain -/

/-- The digest that a checkpoint names. -/
def previousOf (checkpoint : Json) : Option JsString :=
  match checkpoint.get (js "previous_witness_hash") with
  | some (.str s) => some s
  | _ => none

/-- **A hash chain of checkpoints.** -/
structure WitnessChain (P : Platform) (log : List Json) : Prop where
  epochs : log.Pairwise fun a b => epochOf a < epochOf b
  natural : ∀ x ∈ log, ∃ n : ℕ, x.get (js "epoch") = some (.num n)
  hashes : ∀ x ∈ log, x.get (js "witness_hash") = some (.str (rootFromValue P (x.without (js "witness_hash"))))
  first : ∀ x, log.head? = some x → x.get (js "previous_witness_hash") = some (.str emptyMerkleRoot)
  linked : Linked (textOf · "witness_hash") previousOf log
  roots : ∀ x ∈ log, x.get (js "checkpoint_root") = some (.str (rootFromValue P (checkpointContents
    (x.get (js "subject_node_id")) (x.get (js "receipt_log_root")) (x.get (js "active_set_root")) (x.get (js "epoch"))
    (x.get (js "previous_witness_hash")))))

theorem previousOf_eq {x : Json} {s : JsString} : previousOf x = some s ↔ x.get (js "previous_witness_hash") = some (.str s) := by
  unfold previousOf
  split
  · rename_i t ht
    rw [ht]
    simp
  · rename_i hne
    exact iff_of_false (fun h => nomatch h) (hne s)

theorem compareExpectedRoot_str {actual : Option Json} {expected : JsString} {name message : String} (h : isRoot expected = true) :
    compareExpectedRoot actual (some (.str expected)) name message = [] ↔ actual = some (.str expected) := by
  rw [compareExpectedRoot, normalizeRoot_of_isRoot h, errorIf_eq_nil]
  simp

/-- What the verifier has checked a checkpoint for, of what a chain is about. -/
theorem verified_chain {x : Json} {node : Node} {previous : JsString} {minimum : ℚ}
    (h : verifyWitnessCheckpoint P x (expectation node x previous minimum) = []) (hprevious : isRoot previous = true) :
    (∃ n : ℕ, x.get (js "epoch") = some (.num n)) ∧ previousOf x = some previous ∧
      x.get (js "checkpoint_root") = some (.str (rootFromValue P (checkpointContents (x.get (js "subject_node_id"))
        (x.get (js "receipt_log_root")) (x.get (js "active_set_root")) (x.get (js "epoch")) (x.get (js "previous_witness_hash"))))) := by
  unfold verifyWitnessCheckpoint at h
  split at h
  · cases h
  · simp only [List.append_eq_nil_iff, errorIf_eq_nil, expectation, compareExpectedRoot_str hprevious] at h
    obtain ⟨⟨⟨⟨⟨⟨⟨⟨⟨_, hepoch⟩, hroot⟩, -⟩, -⟩, -⟩, hlink⟩, -⟩, -⟩, -⟩ := h
    refine ⟨?_, previousOf_eq.2 hlink, by simpa using hroot⟩
    cases hn : Json.natural? (x.get (js "epoch")) with
    | none =>
      rw [hn] at hepoch
      cases hepoch
    | some n => exact ⟨n, natural?_eq_some.1 hn⟩

theorem textOf_of_get {x : Json} {key : String} {t : JsString} (h : x.get (js key) = some (.str t)) : textOf x key = t := by
  rw [textOf, h]

/-- **What the reader accepts is a chain**, from a hash and an epoch on. -/
theorem valid_chain {node : Node} {log : List Json} {previous : JsString} {epoch : ℚ} (hprevious : isRoot previous = true)
    (h : Valid P node log previous epoch) : Follows (textOf · "witness_hash") previousOf previous log ∧
      (∀ x ∈ log, epoch < epochOf x) ∧ (log.Pairwise fun a b => epochOf a < epochOf b) ∧
      ∀ x ∈ log, (∃ n : ℕ, x.get (js "epoch") = some (.num n)) ∧
        x.get (js "witness_hash") = some (.str (rootFromValue P (x.without (js "witness_hash")))) ∧
        x.get (js "checkpoint_root") = some (.str (rootFromValue P (checkpointContents
          (x.get (js "subject_node_id")) (x.get (js "receipt_log_root")) (x.get (js "active_set_root")) (x.get (js "epoch"))
          (x.get (js "previous_witness_hash"))))) := by
  induction log generalizing previous epoch with
  | nil => exact ⟨trivial, by simp, List.Pairwise.nil, by simp⟩
  | cons x rest ih =>
    obtain ⟨hx, hrest⟩ := valid_cons.1 h
    obtain ⟨-, -, -, hhash, hverified, hepoch⟩ := validateCheckpoint_ok.1 hx
    obtain ⟨hnatural, hlink, hroot⟩ := verified_chain hverified hprevious
    have htext : isRoot (textOf x "witness_hash") = true := by
      rw [textOf_of_get hhash]
      exact isRoot_rootFromValue _
    obtain ⟨hfollows, habove, hpairwise, hall⟩ := ih htext hrest
    refine ⟨⟨hlink, hfollows⟩, ?_, List.pairwise_cons.2 ⟨habove, hpairwise⟩, ?_⟩
    · intro y hy
      rcases List.mem_cons.1 hy with rfl | hy
      · exact hepoch
      · exact hepoch.trans (habove y hy)
    · intro y hy
      rcases List.mem_cons.1 hy with rfl | hy
      · exact ⟨hnatural, hhash, hroot⟩
      · exact hall y hy

theorem isRoot_empty : isRoot emptyMerkleRoot = true := isRoot_prefixedSha256 _

theorem chain_of_valid {node : Node} {log : List Json} (h : Valid P node log emptyMerkleRoot (-1)) : WitnessChain P log := by
  obtain ⟨hfollows, -, hpairwise, hall⟩ := valid_chain isRoot_empty h
  exact ⟨hpairwise, fun x hx => (hall x hx).1, fun x hx => (hall x hx).2.1, fun x hx => previousOf_eq.1 (hfollows.head hx),
    hfollows.linked, fun x hx => (hall x hx).2.2⟩

/-! ## Runs -/

/-- The hash that the handler expects is that of the last checkpoint. -/
theorem previousWitnessHash_eq {log : List Json} (h : WitnessChain P log) :
    previousWitnessHash log = lastDigest (textOf · "witness_hash") emptyMerkleRoot log := by
  rw [previousWitnessHash, lastDigest]
  cases hlast : log.getLast? with
  | none => rfl
  | some last =>
    have hhash := h.hashes last (List.mem_of_getLast? hlast)
    simp only [Option.bind_some, hhash, Option.map_some, Option.getD_some, textOf_of_get hhash]

theorem isRoot_previousWitnessHash {log : List Json} (h : WitnessChain P log) : isRoot (previousWitnessHash log) = true := by
  rw [previousWitnessHash]
  cases hlast : log.getLast? with
  | none => exact isRoot_empty
  | some last =>
    simp only [Option.bind_some, h.hashes last (List.mem_of_getLast? hlast)]
    exact isRoot_rootFromValue _

/-- The epoch before the next one is a whole number. -/
theorem lastEpoch_int {log : List Json} (h : WitnessChain P log) : ∃ m : ℤ, lastEpoch (-1) log = m := by
  rw [lastEpoch]
  cases hlast : log.getLast? with
  | none => exact ⟨-1, by simp⟩
  | some last =>
    obtain ⟨n, hn⟩ := h.natural last (List.mem_of_getLast? hlast)
    exact ⟨n, by simp [epochOf, hn, numberOf]⟩

theorem Accepts.lastEpoch_lt (h : Accepts P s env body checkpoint witnessBody c signature) : lastEpoch (-1) s.witnessLog < c.epoch := by
  rw [lastEpoch]
  cases hlast : s.witnessLog.getLast? with
  | none => exact lt_of_lt_of_le (by simp) (Nat.cast_nonneg c.epoch)
  | some last => exact h.epoch_lt hlast

/-- **An accepted checkpoint keeps the log valid.** -/
theorem Accepts.valid (h : Accepts P s env body checkpoint witnessBody c signature)
    (hlog : Valid P s.node s.witnessLog emptyMerkleRoot (-1)) :
    Valid P s.node (s.witnessLog ++ [checkpoint]) emptyMerkleRoot (-1) := by
  have hchain := chain_of_valid hlog
  have hroot := isRoot_previousWitnessHash hchain
  obtain ⟨-, value, -, hsignature⟩ := createSignature_ok.1 h.signs
  have hverified := h.verified
  rw [h.epoch, h.complete, verify_complete h.isRoot_receipt h.isRoot_active h.isRoot_previous hroot] at hverified
  obtain ⟨hleak, hprevious, -, hwitness, hsigned⟩ := hverified
  refine validate_snoc hlog (validateCheckpoint_ok.2 ⟨rfl, h.complete ▸ rfl, ?_, ?_, ?_, ?_⟩)
  · rw [h.complete, hsignature]
    exact leak_complete s.node value
  · rw [h.complete, get_complete_hash, signedRecordHash, without_complete]
  · rw [← previousWitnessHash_eq hchain, h.complete, verify_complete h.isRoot_receipt h.isRoot_active h.isRoot_previous hroot]
    obtain ⟨m, hm⟩ := lastEpoch_int hchain
    have hlt := h.lastEpoch_lt
    rw [hm] at hlt ⊢
    refine ⟨hleak, hprevious, ⟨?_, ?_⟩, hwitness, hsigned⟩
    · exact_mod_cast Rat.den_intCast (m + 1)
    · have : m < (c.epoch : ℤ) := by exact_mod_cast hlt
      exact_mod_cast (by omega : m + 1 ≤ (c.epoch : ℤ))
  · rw [h.complete, epochOf, get_complete_epoch]
    exact h.lastEpoch_lt

/-- A step keeps the log valid. -/
theorem step_valid {t : RelayState} {input : RelayEnv × RelayRequest} (hlog : Valid P s.node s.witnessLog emptyMerkleRoot (-1))
    (hstep : step P s input = some t) : Valid P t.node t.witnessLog emptyMerkleRoot (-1) := by
  have hserved := served (P := P) s input.1 input.2
  rw [Option.some.inj hstep] at hserved
  rw [served_node hserved]
  rcases served_witnessLog hserved with h | ⟨body, checkpoint, -, hcheckpoint, h⟩
  · rw [h]
    exact hlog
  · rw [h]
    obtain ⟨witnessBody, c, signature, haccepts⟩ := witnessed_ok.1 hcheckpoint
    exact haccepts.valid hlog

theorem createRelayState_log {o : RelayOptions} (h : createRelayState P o = .ok s) : s.witnessLog = [] := by
  simp only [createRelayState, Except.bind_eq_ok] at h
  obtain ⟨_, -, _, -, h⟩ := h
  cases h
  rfl

/-- The log of a run is valid. -/
theorem run_valid {o : RelayOptions} {inputs : List (RelayEnv × RelayRequest)} {t : RelayState} (h : createRelayState P o = .ok s)
    (hrun : Run.run (step P) s inputs = some t) : Valid P t.node t.witnessLog emptyMerkleRoot (-1) := by
  refine Run.run_invariant (I := fun s => Valid P s.node s.witnessLog emptyMerkleRoot (-1))
    (fun _ _ _ => step_valid) ?_ hrun
  rw [createRelayState_log h]
  rfl

/-- **The witness log of a relay is a hash chain** after any requests, the reader of a snapshot accepts
it as it is, and a request that is not accepted leaves it alone. -/
theorem witness_log_chained (P : Platform) (o : RelayOptions) (inputs : List (RelayEnv × RelayRequest)) (s t : RelayState)
    (hcreated : createRelayState P o = .ok s) (hrun : Run.run (step P) s inputs = some t) :
    WitnessChain P t.witnessLog ∧ validateWitnessLog P (some (.arr t.witnessLog)) t.node = .ok t.witnessLog ∧
      ∀ env req, (∀ body, (handleRelayRequest P t env req).1 ≠ .json 201 body) →
        (handleRelayRequest P t env req).2.witnessLog = t.witnessLog := by
  have hvalid := run_valid hcreated hrun
  refine ⟨chain_of_valid hvalid, hvalid, ?_⟩
  intro env req hrefused
  rw [served_refused (served t env req) hrefused]

/-! ## A relay on the reference platform -/

theorem reference_signingPair {keyPair : JsString × JsString} (h : keyPair.1 ≠ []) (h' : keyPair.2 ≠ []) :
    SigningPair reference keyPair where
  publicKey_ne := h
  privateKey_ne := h'
  signs text := ⟨Reference.sign text, rfl, (Reference.sign_unmarked text).1, decide_eq_true rfl⟩

/-- A relay of the new year. -/
def newYearRelay (allowUnauthenticated : Bool) : RelayOptions where
  keyPair := (Reference.publicKey, Reference.privateKey)
  role := js "relay_witness"
  endpoints := []
  created_at := some Reference.newYearText
  challengeTtlMs := 300000
  allowUnauthenticated

theorem newYear_signingPair (allowUnauthenticated : Bool) : SigningPair reference (newYearRelay allowUnauthenticated).keyPair :=
  reference_signingPair (by simp [newYearRelay, Reference.publicKey, js, utf16]) (by simp [newYearRelay, Reference.privateKey, js, utf16])

theorem exists_newYearRelay (allowUnauthenticated : Bool) : ∃ s, createRelayState reference (newYearRelay allowUnauthenticated) = .ok s :=
  exists_createRelayState (newYear_signingPair allowUnauthenticated) List.not_mem_nil ⟨by decide +revert, by decide +revert⟩

def newYearEnv : RelayEnv := ⟨fun _ => Reference.newYearText, Reference.newYear, []⟩

/-- A request with a body and no headers. -/
def bareRequest (pathname : String) (body : Json) : RelayRequest := ⟨js "POST", js pathname, [], none, none, .ok body⟩

/-- Two checkpoints without an epoch, and one whose epoch has passed. -/
theorem witness_log_chained_three : ∃ s t, createRelayState reference (newYearRelay true) = .ok s ∧
    Run.run (step reference) s ([.obj [], .obj [], .obj [(js "epoch", .num 0)]].map fun body =>
      (newYearEnv, bareRequest "/witness/checkpoint" body)) = some t ∧
    WitnessChain reference t.witnessLog ∧ validateWitnessLog reference (some (.arr t.witnessLog)) t.node = .ok t.witnessLog ∧
    ∀ env req, (∀ body, (handleRelayRequest reference t env req).1 ≠ .json 201 body) →
      (handleRelayRequest reference t env req).2.witnessLog = t.witnessLog := by
  obtain ⟨s, hs⟩ := exists_newYearRelay true
  obtain ⟨t, ht⟩ := exists_run (P := reference) s _
  exact ⟨s, t, hs, ht, witness_log_chained reference (newYearRelay true) _ s t hs ht⟩

end EnigmaMemory.Relay
