import EnigmaMemory.Proof.Canonical
import EnigmaMemory.Proof.Pairing

/-!
# Requests that are sent twice

The signature of a client covers the relay, the pairing, the operation and the request, so that it is
as good the second time. What a second sending does is up to the state it finds.

* `handle_push_records`, `handle_witness_log`: when a request changes something.
* `witnessed_again`: a checkpoint request that names nothing is accepted again.
* `replay_effects`: when a request that has been accepted changes nothing the second time.
-/

namespace EnigmaMemory.Relay

open Json Mesh HashChain

variable {P : Platform} {s t u : RelayState} {env env' : RelayEnv} {req : RelayRequest} {body : Json}

/-! ## When a request changes something -/

/-- The request is signed for a pairing that the relay knows, or needs no signature. -/
def Authorized (P : Platform) (s : RelayState) (req : RelayRequest) (operation : String) (body : Json) : Prop :=
  ∃ authorization, requireRelayAuthorization P s req operation (relayRequestHash P req (some body)) = .ok authorization

theorem handle_push {authorization record : Json} (hroute : req.IsFor "/relay/push") (hbody : req.body = .ok body)
    (hauthorized : requireRelayAuthorization P s req "relay.push" (relayRequestHash P req (some body)) = .ok authorization)
    (hrecord : pushed P s body = .ok record) : (handleRelayRequest P s env req).2 = { s with relayStore := s.relayStore.file record } := by
  simp only [handleRelayRequest, route, handlePush, hroute.1, hroute.2, js_inj, hbody, hauthorized, hrecord, bind, Except.bind, pure,
    Except.pure, reduceIte, String.reduceEq, and_false, and_self, or_self]

theorem handle_witness {authorization checkpoint : Json} (hroute : req.IsFor "/witness/checkpoint") (hbody : req.body = .ok body)
    (hauthorized : requireRelayAuthorization P s req "witness.checkpoint" (relayRequestHash P req (some body)) = .ok authorization)
    (hcheckpoint : witnessed P s env body = .ok checkpoint) :
    (handleRelayRequest P s env req).2 = { s with witnessLog := s.witnessLog ++ [checkpoint] } := by
  simp only [handleRelayRequest, route, handleWitness, hroute.1, hroute.2, js_inj, hbody, hauthorized, hcheckpoint, bind, Except.bind,
    pure, Except.pure, reduceIte, String.reduceEq, and_false, and_self, or_self]

theorem IsFor.eq {a b : String} (h : req.IsFor a) (h' : req.IsFor b) : a = b := js_inj.1 (h.2.symm.trans h'.2)

/-- **When a push changes the records.** -/
theorem handle_push_records (hroute : req.IsFor "/relay/push") (hbody : req.body = .ok body) :
    (handleRelayRequest P s env req).2.witnessLog = s.witnessLog ∧
      ((handleRelayRequest P s env req).2.relayStore.records = s.relayStore.records ↔
        (Authorized P s req "relay.push" body → ∀ record, pushed P s body = .ok record →
          s.relayStore.records.get (recordKey s.relayStore.records.size (idOf record)) = some record)) := by
  have hserved := served (P := P) s env req
  by_cases haccepted : ∃ authorization record, requireRelayAuthorization P s req "relay.push" (relayRequestHash P req (some body)) =
      .ok authorization ∧ pushed P s body = .ok record
  · obtain ⟨authorization, record, hauthorized, hrecord⟩ := haccepted
    rw [handle_push hroute hbody hauthorized hrecord]
    refine ⟨rfl, ?_⟩
    simp only [RelayStore.file, OrdMap.set_eq_self_iff]
    constructor
    · intro h _ record' hrecord'
      rw [Except.ok.inj (hrecord'.symm.trans hrecord)]
      exact h
    · exact fun h => h ⟨authorization, hauthorized⟩ record hrecord
  · have hsame : (handleRelayRequest P s env req).2 = s := by
      generalize (handleRelayRequest P s env req).1 = reply at hserved
      generalize (handleRelayRequest P s env req).2 = t at hserved
      cases hserved with
      | unchanged => rfl
      | push _ hbody' hauthorized hrecord =>
        cases hbody.symm.trans hbody'
        exact absurd ⟨_, _, hauthorized, hrecord⟩ haccepted
      | witness hroute' => exact absurd (IsFor.eq hroute hroute') (by decide)
      | challenge hroute' => exact absurd (IsFor.eq hroute hroute') (by decide)
      | complete hroute' => exact absurd (IsFor.eq hroute hroute') (by decide)
    rw [hsame]
    refine ⟨rfl, iff_of_true rfl ?_⟩
    rintro ⟨authorization, hauthorized⟩ record hrecord
    exact absurd ⟨authorization, record, hauthorized, hrecord⟩ haccepted

/-- **When a checkpoint request changes the log.** -/
theorem handle_witness_log (hroute : req.IsFor "/witness/checkpoint") (hbody : req.body = .ok body) :
    (handleRelayRequest P s env req).2.relayStore = s.relayStore ∧
      ((handleRelayRequest P s env req).2.witnessLog = s.witnessLog ↔
        (Authorized P s req "witness.checkpoint" body → ∀ checkpoint, witnessed P s env body ≠ .ok checkpoint)) := by
  have hserved := served (P := P) s env req
  by_cases haccepted : ∃ authorization checkpoint, requireRelayAuthorization P s req "witness.checkpoint"
      (relayRequestHash P req (some body)) = .ok authorization ∧ witnessed P s env body = .ok checkpoint
  · obtain ⟨authorization, checkpoint, hauthorized, hcheckpoint⟩ := haccepted
    rw [handle_witness hroute hbody hauthorized hcheckpoint]
    refine ⟨rfl, iff_of_false ?_ fun h => h ⟨authorization, hauthorized⟩ checkpoint hcheckpoint⟩
    simp
  · have hsame : (handleRelayRequest P s env req).2 = s := by
      generalize (handleRelayRequest P s env req).1 = reply at hserved
      generalize (handleRelayRequest P s env req).2 = t at hserved
      cases hserved with
      | unchanged => rfl
      | witness _ hbody' hauthorized hcheckpoint =>
        cases hbody.symm.trans hbody'
        exact absurd ⟨_, _, hauthorized, hcheckpoint⟩ haccepted
      | push hroute' => exact absurd (IsFor.eq hroute hroute') (by decide)
      | challenge hroute' => exact absurd (IsFor.eq hroute hroute') (by decide)
      | complete hroute' => exact absurd (IsFor.eq hroute hroute') (by decide)
    rw [hsame]
    refine ⟨rfl, iff_of_true rfl ?_⟩
    rintro ⟨authorization, hauthorized⟩ checkpoint hcheckpoint
    exact absurd ⟨authorization, checkpoint, hauthorized, hcheckpoint⟩ haccepted

/-! ## What a run keeps -/

/-- What no request changes, and a log that grows. -/
structure Grows (s t : RelayState) : Prop where
  node : t.node = s.node
  store_id : t.relayStore.store_id = s.relayStore.store_id
  store_node : t.relayStore.node = s.relayStore.node
  log : s.witnessLog <+: t.witnessLog

theorem Grows.refl (s : RelayState) : Grows s s := ⟨rfl, rfl, rfl, List.prefix_rfl⟩

theorem Grows.trans (h : Grows s t) (h' : Grows t u) : Grows s u :=
  ⟨h'.node.trans h.node, h'.store_id.trans h.store_id, h'.store_node.trans h.store_node, h.log.trans h'.log⟩

theorem served_grows {reply : RelayReply} (h : Served P s env req reply t) : Grows s t := by
  cases h with
  | unchanged => exact Grows.refl s
  | push => exact ⟨rfl, rfl, rfl, List.prefix_rfl⟩
  | witness => exact ⟨rfl, rfl, rfl, List.prefix_append _ _⟩
  | challenge _ _ hissued =>
    obtain ⟨_, rfl⟩ := createPairingChallenge_frame hissued
    exact ⟨rfl, rfl, rfl, List.prefix_rfl⟩
  | complete _ _ hcompleted =>
    obtain ⟨_, _, rfl⟩ := completePairing_frame hcompleted
    exact ⟨rfl, rfl, rfl, List.prefix_rfl⟩

theorem run_grows {inputs : List (RelayEnv × RelayRequest)} (h : Run.run (step P) s inputs = some t) : Grows s t := by
  refine Run.run_invariant (I := fun t => Grows s t) (fun u input w hu hstep => ?_) (Grows.refl s) h
  have hserved := served (P := P) u input.1 input.2
  rw [Option.some.inj hstep] at hserved
  exact hu.trans (served_grows hserved)

/-- A push stores the same record at any time. -/
theorem pushed_eq (h : Grows s t) : pushed P t body = pushed P s body := by
  simp only [pushed, relayRecord, unsignedRecord, recordId, h.store_id, h.store_node]

/-! ## A node that signs -/

variable {o : RelayOptions} {value : JsString}

theorem leak_newNode : hasPlaintextLeak FORBIDDEN_PLAINTEXT_KEYS (newNode P o value).toJson = false := by
  have hkey : hasPlaintextLeak FORBIDDEN_PLAINTEXT_KEYS (.obj [(js "alg", ed25519), (js "key_id", .str (keyIdOf o.keyPair.1)),
      (js "public_key", .str o.keyPair.1)]) = false := by
    refine leak_of_names ?_ ?_
    · simp [publicNames, SIGNATURE_KEYS]
    · simp [leak_str, ed25519]
  have hdescriptor : hasPlaintextLeak FORBIDDEN_PLAINTEXT_KEYS (newNode P o value).trust_descriptor = false := by
    simp only [newNode, newNode.newDescriptor, nodeDescriptor, hashed, signed, fields]
    refine leak_of_names ?_ ?_
    · simp [publicNames, RELAY_STATE_NODE_KEYS, RELAY_STATE_STORE_KEYS, RELAY_STATE_RECORD_KEYS]
    · simp [leak_str, leak_signatureObject, hkey, leak_arr]
  have hsigner : hasPlaintextLeak FORBIDDEN_PLAINTEXT_KEYS (signerObject (newNode P o value)) = false := by
    refine leak_of_names ?_ ?_
    · simp [publicNames, SIGNATURE_KEYS]
    · simp [leak_str, ed25519]
  refine leak_of_names ?_ ?_
  · simp [publicNames, RELAY_STATE_NODE_KEYS]
  · simp only [List.forall_mem_cons, leak_str, hsigner, hdescriptor, List.not_mem_nil, false_implies, implies_true, and_true, true_and]
    exact hdescriptor

/-- What the node of a new relay signs is signed under its descriptor. -/
theorem verifySigned_newNode (hkeys : SigningPair P o.keyPair) {record u : Json} {signature : JsString}
    (hget : record.get (js "signature") = some (signatureObject (newNode P o value) signature))
    (hpayload : Mesh.signaturePayload record = u)
    (hsigns : P.sign o.keyPair.2 (u.canonicalize P.toNumberFormat) = .ok signature) :
    verifySignedRecord P (newNode P o value).trust_descriptor record = [] := by
  obtain ⟨signature', hsigns', -, hverify⟩ := hkeys.signs (u.canonicalize P.toNumberFormat)
  obtain rfl : signature' = signature := Except.ok.inj (hsigns'.symm.trans hsigns)
  have hid : path (some (newNode P o value).trust_descriptor) ["key", "key_id"] = some (.str (keyIdOf o.keyPair.1)) := by
    simp [path, newNode, newNode.newDescriptor, nodeDescriptor, get_hashed, signed_get]
  have hkey : path (some (newNode P o value).trust_descriptor) ["key", "public_key"] = some (.str o.keyPair.1) := by
    simp [path, newNode, newNode.newDescriptor, nodeDescriptor, get_hashed, signed_get]
  have hkey_id : (newNode P o value).key_id = keyIdOf o.keyPair.1 := rfl
  rw [verifySignedRecord, hget, signatureObject]
  simp [hid, hkey, hkey_id, errorIf_eq_nil, verifySignature, hpayload, hverify, ed25519, isStr]

theorem exists_signature (hkeys : SigningPair P o.keyPair) (value : JsString) (u : Json) : ∃ signature,
    P.sign o.keyPair.2 (u.canonicalize P.toNumberFormat) = .ok signature ∧
      createSignature P u (newNode P o value) = .ok (signatureObject (newNode P o value) signature) := by
  obtain ⟨signature, hsigns, -, -⟩ := hkeys.signs (u.canonicalize P.toNumberFormat)
  exact ⟨signature, hsigns, createSignature_ok.2 ⟨keyIdOf_ne _, signature, hsigns, rfl⟩⟩

/-! ## Objects that pass the scan -/

theorem leak_set {j v : Json} {key : JsString} (hj : hasPlaintextLeak FORBIDDEN_PLAINTEXT_KEYS j = false)
    (hkey : key ∈ publicNames) (hv : hasPlaintextLeak FORBIDDEN_PLAINTEXT_KEYS v = false) :
    hasPlaintextLeak FORBIDDEN_PLAINTEXT_KEYS (j.set key v) = false :=
  leak_set_harmless hj (publicNames_harmless key hkey) hv

theorem leak_spread {j : Json} {fs : List (JsString × Json)} (hplain : j.isPlainRecord = true)
    (hj : hasPlaintextLeak FORBIDDEN_PLAINTEXT_KEYS j = false) (hnames : ∀ f ∈ fs, f.1 ∈ publicNames)
    (hvalues : ∀ f ∈ fs, hasPlaintextLeak FORBIDDEN_PLAINTEXT_KEYS f.2 = false) :
    hasPlaintextLeak FORBIDDEN_PLAINTEXT_KEYS (j.spread (.obj fs)) = false := by
  have hstart : Json.obj j.fields = j := by
    cases j with
    | obj fs => rfl
    | _ => cases hplain
  rw [spread, fields, hstart]
  clear hstart hplain
  induction fs generalizing j with
  | nil => exact hj
  | cons f fs ih =>
    rw [List.forall_mem_cons] at hnames hvalues
    rw [List.foldl_cons]
    exact ih (leak_set hj hnames.1 hvalues.1) hnames.2 hvalues.2

/-- What is inside an envelope passes the scan with it. -/
theorem normalizeWitnessInput_ok {witnessBody : Json} (h : normalizeWitnessInput body = .ok witnessBody) :
    witnessBody.isPlainRecord = true ∧ hasPlaintextLeak FORBIDDEN_PLAINTEXT_KEYS witnessBody = false := by
  simp only [normalizeWitnessInput, assertNoPlaintextLookingFields, Except.bind_eq_ok, assertPlainRecord_ok, failIf_ok,
    Bool.not_eq_true] at h
  obtain ⟨_, ⟨hbody, -⟩, ⟨⟩, hleak, inner, hinner, _, ⟨hrecord, hplain⟩, -, -, -, -, -, -, -, -, h⟩ := h
  cases hbody
  cases hrecord
  cases h
  refine ⟨hplain, ?_⟩
  unfold openEnvelope at hinner
  split at hinner
  · cases hinner
    exact hleak
  · rename_i v hv
    split at hinner
    · cases hinner
    · cases hinner
      exact leak_get hleak hv

/-! ## A checkpoint request the second time -/

/-- The field is there and is not `null`. -/
def Given (value : Option Json) : Prop := value ≠ none ∧ value ≠ some .null

/-- The request says which checkpoint it is for. -/
def NamesCheckpoint (witnessBody : Json) : Prop :=
  witnessBody.get (js "epoch") ≠ none ∨
    orElse (witnessBody.get (js "previous_witness_hash")) (witnessBody.get (js "previousWitnessHash")) ≠ none ∨
    orElse (witnessBody.get (js "checkpoint_root")) (witnessBody.get (js "checkpointRoot")) ≠ none

/-- The request has a time, or the clock has. -/
def Dated (P : Platform) (witnessBody : Json) (now : JsString) : Prop :=
  Given (orElse (witnessBody.get (js "issued_at")) (witnessBody.get (js "issuedAt"))) ∨ now ≠ [] ∧ (P.parseDate now).isSome = true

variable {checkpoint witnessBody signature : Json} {c : Checkpoint}

/-- The epoch of the next checkpoint. -/
def nextEpoch (log : List Json) : ℚ := (log.getLast?.map (epochOf · + 1)).getD 0

theorem nextEpoch_natural {log : List Json} (h : WitnessChain P log) : ∃ n : ℕ, nextEpoch log = n := by
  rw [nextEpoch]
  cases hlast : log.getLast? with
  | none => exact ⟨0, by simp⟩
  | some last =>
    obtain ⟨n, hn⟩ := h.natural last (List.mem_of_getLast? hlast)
    exact ⟨n + 1, by simp [epochOf, hn, numberOf]⟩

theorem lt_nextEpoch {log : List Json} (h : WitnessChain P log) {x : Json} (hx : x ∈ log) : epochOf x < nextEpoch log := by
  obtain ⟨before, last, rfl⟩ : ∃ before last, log = before ++ [last] := by
    rcases List.eq_nil_or_concat log with rfl | ⟨before, last, rfl⟩
    · cases hx
    · exact ⟨before, last, by simp⟩
  rw [nextEpoch, List.getLast?_concat, Option.map_some, Option.getD_some]
  rcases List.mem_append.1 hx with hx | hx
  · have := (List.pairwise_append.1 h.epochs).2.2 x hx last List.mem_cons_self
    linarith
  · rw [List.mem_singleton.1 hx]
    linarith

theorem orElse_assoc (a b c : Option Json) : orElse (orElse a b) c = orElse a (orElse b c) := by
  rcases a with _ | a
  · rfl
  · cases a <;> rfl

theorem orElse_of_given {v d : Option Json} (h : Given v) : orElse v d = v := by
  unfold orElse
  split
  · exact absurd rfl h.1
  · exact absurd rfl h.2
  · rfl

theorem orElse_of_not_given {v d : Option Json} (h : ¬ Given v) : orElse v d = d := by
  unfold orElse
  split
  · rfl
  · rfl
  · rename_i w hw
    exact absurd ⟨by simp, by simpa using hw⟩ h

/-- The time of a checkpoint, of the request or of the clock. -/
def issuedAt (witnessBody : Json) (now : JsString) : Option Json :=
  orElse (orElse (witnessBody.get (js "issued_at")) (witnessBody.get (js "issuedAt"))) (some (.str now))

theorem get_issued_at {epoch : Json} {previous : JsString} :
    (checkpointOptions s env witnessBody epoch previous).get (js "issued_at") = some ((issuedAt witnessBody (env.now 0)).getD .null) := by
  rw [get_checkpointOptions, issuedAt, orElse_assoc]
  simp [firstOf]

theorem leak_firstOf {l : List (Option Json)} (h : ∀ x ∈ l, ∀ v, x = some v → hasPlaintextLeak FORBIDDEN_PLAINTEXT_KEYS v = false) :
    hasPlaintextLeak FORBIDDEN_PLAINTEXT_KEYS ((firstOf l).getD .null) = false := by
  induction l with
  | nil => rfl
  | cons x rest ih =>
    rw [List.forall_mem_cons] at h
    cases rest with
    | nil =>
      cases x with
      | none => rfl
      | some v => exact h.1 v rfl
    | cons y rest =>
      rw [firstOf]
      by_cases hx : Given x
      · rw [orElse_of_given hx]
        cases x with
        | none => rfl
        | some v => exact h.1 v rfl
      · rw [orElse_of_not_given hx]
        exact ih h.2

theorem leak_checkpointOptions {epoch : ℕ} {previous : JsString} (hplain : witnessBody.isPlainRecord = true)
    (hclean : hasPlaintextLeak FORBIDDEN_PLAINTEXT_KEYS witnessBody = false) :
    hasPlaintextLeak FORBIDDEN_PLAINTEXT_KEYS (checkpointOptions s env witnessBody (.num epoch) previous) = false := by
  have hstr : ∀ t : JsString, ∀ v, some (Json.str t) = some v → hasPlaintextLeak FORBIDDEN_PLAINTEXT_KEYS v = false := by
    intro t v h
    cases h
    rfl
  have hget : ∀ key v, witnessBody.get key = some v → hasPlaintextLeak FORBIDDEN_PLAINTEXT_KEYS v = false :=
    fun key v hv => leak_get hclean hv
  refine leak_spread hplain hclean ?_ ?_
  · simp [publicNames, WITNESS_CHECKPOINT_KEYS]
  · simp only [List.forall_mem_cons, List.not_mem_nil, false_implies, implies_true, and_true]
    refine ⟨rfl, rfl, rfl, leak_firstOf ?_, leak_firstOf ?_, leak_firstOf ?_⟩ <;>
      simp only [List.forall_mem_cons, List.not_mem_nil, false_implies, implies_true, and_true]
    · exact ⟨hget _, hget _, hstr _⟩
    · exact ⟨hget _, hget _, hget _, hget _, hstr _⟩
    · exact ⟨hget _, hget _, hstr _⟩

/-- What a request is read for, whatever the log is: the subject and the two roots. -/
structure Readable (witnessBody : Json) (subject receipt active : JsString) : Prop where
  subject : requiredString (firstOf [witnessBody.get (js "subject_node_id"), witnessBody.get (js "subjectNodeId"),
    witnessBody.get (js "subject"), some (.str (js "subject"))]) (js "subject_node_id") = .ok subject
  receipt : normalizeRoot (some ((firstOf [witnessBody.get (js "receipt_log_root"), witnessBody.get (js "receiptLogRoot"),
    some (.str emptyMerkleRoot)]).getD .null)) "receipt_log_root" = .ok receipt
  active : normalizeRoot (some ((firstOf [witnessBody.get (js "active_set_root"), witnessBody.get (js "activeSetRoot"),
    witnessBody.get (js "active_memory_root"), witnessBody.get (js "activeMemoryRoot"), some (.str emptyMerkleRoot)]).getD .null))
    "active_set_root" = .ok active

theorem normalizeRoot_orElse {v : Json} {x : Option Json} {name : String} (h : v ≠ .null) :
    normalizeRoot (orElse (some v) x) name = normalizeRoot (some v) name := by
  cases v with
  | null => exact absurd rfl h
  | _ => rfl

theorem firstOf_ne_null {l : List (Option Json)} {d : Json} (hd : d ≠ .null) : (firstOf (l ++ [some d])).getD .null ≠ .null := by
  induction l with
  | nil => exact hd
  | cons x rest ih =>
    have hne : rest ++ [some d] ≠ [] := by simp
    obtain ⟨y, tail, htail⟩ := List.exists_cons_of_ne_nil hne
    rw [List.cons_append, htail, firstOf, ← htail]
    by_cases hx : Given x
    · rw [orElse_of_given hx]
      cases x with
      | none => exact absurd rfl hx.1
      | some v => exact fun h => hx.2 (congrArg some h)
    · rw [orElse_of_not_given hx]
      exact ih

/-- The roots in the options are those of the request. -/
theorem get_roots {epoch : Json} {previous : JsString} :
    normalizeRoot (firstOf [(checkpointOptions s env witnessBody epoch previous).get (js "receipt_log_root"),
      (checkpointOptions s env witnessBody epoch previous).get (js "receiptLogRoot")]) "receipt_log_root" =
      normalizeRoot (some ((firstOf [witnessBody.get (js "receipt_log_root"), witnessBody.get (js "receiptLogRoot"),
        some (.str emptyMerkleRoot)]).getD .null)) "receipt_log_root" ∧
    normalizeRoot (firstOf [(checkpointOptions s env witnessBody epoch previous).get (js "active_set_root"),
      (checkpointOptions s env witnessBody epoch previous).get (js "activeSetRoot"),
      (checkpointOptions s env witnessBody epoch previous).get (js "active_memory_root"),
      (checkpointOptions s env witnessBody epoch previous).get (js "activeMemoryRoot")]) "active_set_root" =
      normalizeRoot (some ((firstOf [witnessBody.get (js "active_set_root"), witnessBody.get (js "activeSetRoot"),
        witnessBody.get (js "active_memory_root"), witnessBody.get (js "activeMemoryRoot"), some (.str emptyMerkleRoot)]).getD .null))
        "active_set_root" := by
  have hstr : Json.str emptyMerkleRoot ≠ .null := by simp
  constructor
  · rw [get_checkpointOptions, firstOf]
    simp only [get_obj_cons, js_inj, String.reduceEq, if_false, if_true, Option.some_or]
    exact normalizeRoot_orElse (firstOf_ne_null (l := [_, _]) hstr)
  · rw [get_checkpointOptions, firstOf]
    simp only [get_obj_cons, js_inj, String.reduceEq, if_false, if_true, Option.some_or]
    exact normalizeRoot_orElse (firstOf_ne_null (l := [_, _, _, _]) hstr)

/-- The subject in the options is that of the request. -/
theorem get_subject {epoch : Json} {previous : JsString} :
    firstOf [(checkpointOptions s env witnessBody epoch previous).get (js "subject_node_id"),
      (checkpointOptions s env witnessBody epoch previous).get (js "subjectNodeId"),
      (checkpointOptions s env witnessBody epoch previous).get (js "subject"), some (.str (js "subject"))] =
    firstOf [witnessBody.get (js "subject_node_id"), witnessBody.get (js "subjectNodeId"), witnessBody.get (js "subject"),
      some (.str (js "subject"))] := by
  simp [get_checkpointOptions]

theorem Accepts.readable (h : Accepts P s env body checkpoint witnessBody c signature) :
    Readable witnessBody c.subject_node_id c.receipt_log_root c.active_set_root where
  subject := get_subject ▸ h.reads.subject_node_id
  receipt := get_roots.1 ▸ h.reads.receipt_log_root
  active := get_roots.2 ▸ h.reads.active_set_root

/-- **A request that names no checkpoint is accepted**, whatever the log is. -/
theorem witnessed_unnamed {subject receipt active issued_at : JsString} (hkeys : SigningPair P o.keyPair)
    (hnode : s.node = newNode P o value) (hchain : WitnessChain P s.witnessLog)
    (hnormalized : normalizeWitnessInput body = .ok witnessBody) (hnames : ¬ NamesCheckpoint witnessBody)
    (hreadable : Readable witnessBody subject receipt active) (hissued : issuedAt witnessBody (env.now 0) = some (.str issued_at))
    (hne : issued_at ≠ []) (hdate : (P.parseDate issued_at).isSome = true) :
    ∃ checkpoint, witnessed P s env body = .ok checkpoint := by
  simp only [NamesCheckpoint, not_or, not_not] at hnames
  obtain ⟨hepoch, hprevious, hroot⟩ := hnames
  obtain ⟨n, hn⟩ := nextEpoch_natural hchain
  have hrequest : requestEpoch s.witnessLog.getLast? witnessBody = .num n := by
    rw [requestEpoch, hepoch, ← hn]
    rfl
  have hnext := isRoot_previousWitnessHash hchain
  have hreceipt := isRoot_of_normalizeRoot hreadable.receipt
  have hactive := isRoot_of_normalizeRoot hreadable.active
  obtain ⟨hplain, hclean⟩ := normalizeWitnessInput_ok hnormalized
  let c : Checkpoint := ⟨s.node.node_id, subject, n, receipt, active, previousWitnessHash s.witnessLog, issued_at⟩
  obtain ⟨signature, hsigns, hsignature⟩ := exists_signature hkeys value (c.toJson P)
  have hreads : Reads P (checkpointOptions s env witnessBody (.num n) (previousWitnessHash s.witnessLog)) s.node c := by
    constructor
    · refine leak_mono forbidden_subset _ (leak_set (leak_checkpointOptions hplain hclean) ?_ ?_)
      · simp [publicNames, RELAY_STATE_KEYS]
      · rw [hnode]
        exact leak_newNode
    · rw [requiredString_ok, hnode]
      refine ⟨?_, by simp [c, hnode, newNode, js, utf16]⟩
      simp [get_checkpointOptions, firstOf, orElse, c, hnode]
    · rw [get_subject]
      exact hreadable.subject
    · rw [get_roots.1]
      exact hreadable.receipt
    · rw [get_roots.2]
      exact hreadable.active
    · rw [get_checkpointOptions]
      simp [c]
    · rw [get_checkpointOptions]
      simp [c, firstOf, orElse, normalizeRoot_of_isRoot hnext]
    · intro supplied hsupplied
      rw [get_checkpointOptions, get_checkpointOptions] at hsupplied
      simp [hroot] at hsupplied
    · rw [get_issued_at, hissued, dateString_ok]
      exact ⟨rfl, hne, hdate⟩
  refine ⟨c.complete P (signatureObject (newNode P o value) signature), witnessed_ok.2 ⟨witnessBody, c, _, hnormalized, ?_, ?_, ?_, ?_,
    rfl, ?_⟩⟩
  · rw [hrequest, ← hn, nextEpoch]
    cases hlast : s.witnessLog.getLast? with
    | none => rfl
    | some last =>
      obtain ⟨k, hk⟩ := hchain.natural last (List.mem_of_getLast? hlast)
      simp [epochStalls, epochOf, hk, numberOf]
  · rw [hprevious]
    intro v h
    cases h
  · rw [hrequest]
    exact hreads
  · rw [hnode]
    exact hsignature
  · rw [hrequest, verify_complete (c := c) hreceipt hactive hnext hnext]
    refine ⟨leak_mono forbidden_subset _ (leak_complete _ _), rfl, ⟨Rat.den_natCast n, le_rfl⟩, rfl, ?_⟩
    rw [hnode]
    exact verifySigned_newNode hkeys (get_complete_signature _ _) (signaturePayload_complete _ _) hsigns

/-- A request that was in time is in time again. -/
theorem dated_again (h : Accepts P s env body checkpoint witnessBody c signature) (hdated : Dated P witnessBody (env'.now 0)) :
    ∃ issued_at, issuedAt witnessBody (env'.now 0) = some (.str issued_at) ∧ issued_at ≠ [] ∧ (P.parseDate issued_at).isSome = true := by
  have hbefore := h.reads.issued_at
  rw [get_issued_at, dateString_ok] at hbefore
  obtain ⟨hvalue, hne, hdate⟩ := hbefore
  by_cases hgiven : Given (orElse (witnessBody.get (js "issued_at")) (witnessBody.get (js "issuedAt")))
  · -- the request has its own time
    refine ⟨c.issued_at, ?_, hne, hdate⟩
    rw [issuedAt, orElse_of_given hgiven] at hvalue ⊢
    rcases hv : orElse (witnessBody.get (js "issued_at")) (witnessBody.get (js "issuedAt")) with _ | v
    · exact absurd hv hgiven.1
    · rw [hv] at hvalue hgiven
      rw [Option.getD_some, orElse_of_given hgiven, orElse_of_given hgiven] at hvalue
      exact hvalue
  · obtain ⟨hnow, hdate'⟩ := hdated.resolve_left hgiven
    exact ⟨env'.now 0, by rw [issuedAt, orElse_of_not_given hgiven], hnow, hdate'⟩

/-- An accepted request is in time. -/
theorem Accepts.dated (h : Accepts P s env body checkpoint witnessBody c signature) : Dated P witnessBody (env.now 0) := by
  have hissued := h.reads.issued_at
  rw [get_issued_at, dateString_ok] at hissued
  obtain ⟨hvalue, hne, hdate⟩ := hissued
  by_cases hgiven : Given (orElse (witnessBody.get (js "issued_at")) (witnessBody.get (js "issuedAt")))
  · exact .inl hgiven
  · rw [issuedAt, orElse_of_not_given hgiven] at hvalue
    have heq : env.now 0 = c.issued_at := by simpa [orElse] using hvalue
    exact .inr ⟨heq ▸ hne, heq ▸ hdate⟩

/-! ## A checkpoint request that names its checkpoint -/

theorem epochOf_complete : epochOf (c.complete P signature) = c.epoch := by
  rw [epochOf, get_complete_epoch]
  rfl

/-- A second checkpoint has a later epoch. -/
theorem epoch_lt_again {checkpoint' witnessBody' signature' : Json} {c' : Checkpoint} (hchain : WitnessChain P t.witnessLog)
    (hmem : checkpoint ∈ t.witnessLog) (h : Accepts P s env body checkpoint witnessBody c signature)
    (h' : Accepts P t env' body checkpoint' witnessBody' c' signature') : c.epoch < c'.epoch := by
  obtain ⟨last, hlast⟩ : ∃ last, t.witnessLog.getLast? = some last :=
    ⟨_, List.getLast?_eq_getLast_of_ne_nil (List.ne_nil_of_mem hmem)⟩
  have hbefore := lt_nextEpoch hchain hmem
  rw [nextEpoch, hlast, h.complete, epochOf_complete] at hbefore
  have hafter := h'.epoch_lt hlast
  obtain ⟨k, hk⟩ := hchain.natural last (List.mem_of_getLast? hlast)
  simp only [Option.map_some, Option.getD_some, epochOf, hk, numberOf] at hbefore hafter
  have h₁ : c.epoch < k + 1 := by exact_mod_cast hbefore
  have h₂ : k < c'.epoch := by exact_mod_cast hafter
  omega

/-- What the contents of a checkpoint would be at another place of the log. -/
def contentsAt (checkpoint : Json) (epoch : ℚ) (previous : JsString) : Json :=
  checkpointContents (checkpoint.get (js "subject_node_id")) (checkpoint.get (js "receipt_log_root"))
    (checkpoint.get (js "active_set_root")) (some (.num epoch)) (some (.str previous))

/-- The texts whose digests tell the checkpoints of a log apart, and each from the next. -/
def replayTexts (P : Platform) (log : List Json) : Set JsString :=
  { x | x = merkleEmptyText ∨ ∃ y ∈ log, x = (y.without (js "witness_hash")).canonicalize P.toNumberFormat ∨
    (∃ previous, y.get (js "previous_witness_hash") = some (.str previous) ∧
      x = (contentsAt y (epochOf y) previous).canonicalize P.toNumberFormat) ∨
    x = (contentsAt y (nextEpoch log) (previousWitnessHash log)).canonicalize P.toNumberFormat }

theorem canonicalize_obj_ne (fs : List (JsString × Json)) : (Json.obj fs).canonicalize P.toNumberFormat ≠ merkleEmptyText := by
  rw [canonicalize]
  simp [merkleEmptyText, js, utf16]

/-- The hash of a checkpoint is not that of an earlier one, and not that of the empty set. -/
theorem previousWitnessHash_ne {before after : List Json} (hchain : WitnessChain P (before ++ checkpoint :: after))
    (hcf : CollisionFree (replayTexts P (before ++ checkpoint :: after))) :
    previousWitnessHash before ≠ previousWitnessHash (before ++ checkpoint :: after) := by
  set log := before ++ checkpoint :: after with hlog
  obtain ⟨last, hlast⟩ : ∃ last, log.getLast? = some last :=
    ⟨_, List.getLast?_eq_getLast_of_ne_nil (by simp [hlog])⟩
  have hmem : last ∈ checkpoint :: after := by
    rw [hlog, List.getLast?_append_of_ne_nil _ (by simp)] at hlast
    exact List.mem_of_getLast? hlast
  have hmemlog : last ∈ log := List.mem_append_right _ hmem
  have hhash : ∀ x ∈ log, x.get (js "witness_hash") =
      some (.str (prefixedSha256 ((x.without (js "witness_hash")).canonicalize P.toNumberFormat))) := hchain.hashes
  have htext : ∀ x ∈ log, (x.without (js "witness_hash")).canonicalize P.toNumberFormat ∈ replayTexts P log :=
    fun x hx => .inr ⟨x, hx, .inl rfl⟩
  rw [previousWitnessHash, previousWitnessHash, hlast]
  simp only [Option.bind_some, hhash last hmemlog]
  cases hfirst : before.getLast? with
  | none =>
    intro heq
    exact canonicalize_obj_ne _ (prefixedSha256_inj hcf (.inl rfl) (htext last hmemlog) heq).symm
  | some x =>
    have hx : x ∈ before := List.mem_of_getLast? hfirst
    simp only [Option.bind_some, hhash x (List.mem_append_left _ hx)]
    intro heq
    have hsame := canonicalize_inj (prefixedSha256_inj hcf (htext x (List.mem_append_left _ hx)) (htext last hmemlog) heq)
    -- they have one epoch, but epochs increase
    obtain ⟨n, hn⟩ := hchain.natural x (List.mem_append_left _ hx)
    have hwithout : ∀ y : Json, (y.without (js "witness_hash")).get (js "epoch") = y.get (js "epoch") :=
      fun y => by simp
    have hepoch := hsame.get_num ((hwithout x).trans hn)
    rw [hwithout] at hepoch
    have hlt := (List.pairwise_append.1 hchain.epochs).2.2 x hx last hmem
    rw [epochOf, epochOf, hn, hepoch] at hlt
    exact lt_irrefl _ hlt

/-- **A request that names its checkpoint is refused** once that checkpoint is in the log. -/
theorem witnessed_named {after : List Json} (hcf : CollisionFree (replayTexts P t.witnessLog))
    (hchain : WitnessChain P t.witnessLog) (h : Accepts P s env body checkpoint witnessBody c signature)
    (hlog : t.witnessLog = s.witnessLog ++ checkpoint :: after) (hnames : NamesCheckpoint witnessBody) (checkpoint' : Json) :
    witnessed P t env' body ≠ .ok checkpoint' := by
  intro haccepted
  obtain ⟨witnessBody', c', signature', h'⟩ := witnessed_ok.1 haccepted
  obtain rfl : witnessBody = witnessBody' := Except.ok.inj (h.normalized.symm.trans h'.normalized)
  have hmem : checkpoint ∈ t.witnessLog := by
    rw [hlog]
    simp
  have hlt := epoch_lt_again hchain hmem h h'
  rcases hepoch : witnessBody.get (js "epoch") with _ | supplied
  · rcases hnames.resolve_left (not_not.2 hepoch) with hprevious | hroot
    · -- the hash before the checkpoint is not the one that is expected now
      obtain ⟨v, hv⟩ := Option.ne_none_iff_exists'.1 hprevious
      have heq := (h.continues v hv).1.symm.trans (h'.continues v hv).1
      rw [hlog] at hchain hcf heq
      exact previousWitnessHash_ne hchain hcf (Json.str.inj heq)
    · -- two roots of one request, but of different contents
      obtain ⟨v, hv⟩ := Option.ne_none_iff_exists'.1 hroot
      have hsupplied : ∀ (u : RelayState) (e : RelayEnv) (j : Json) (p : JsString),
          orElse ((checkpointOptions u e witnessBody j p).get (js "checkpoint_root"))
            ((checkpointOptions u e witnessBody j p).get (js "checkpointRoot")) = some v := by
        intro u e j p
        rw [get_checkpointOptions, get_checkpointOptions]
        simpa using hv
      have hroots : c.root P = c'.root P :=
        Except.ok.inj ((h.reads.checkpoint_root v (hsupplied _ _ _ _)).symm.trans (h'.reads.checkpoint_root v (hsupplied _ _ _ _)))
      have hsubject : c.subject_node_id = c'.subject_node_id :=
        Except.ok.inj (h.readable.subject.symm.trans h'.readable.subject)
      have hreceipt : c.receipt_log_root = c'.receipt_log_root :=
        Except.ok.inj (h.readable.receipt.symm.trans h'.readable.receipt)
      have hactive : c.active_set_root = c'.active_set_root := Except.ok.inj (h.readable.active.symm.trans h'.readable.active)
      have hnext : (c'.epoch : ℚ) = nextEpoch t.witnessLog := by
        have hrequest := h'.epoch
        rw [requestEpoch, hepoch] at hrequest
        exact (Json.num.inj hrequest).symm
      have hcontents : c.contents.canonicalize P.toNumberFormat ∈ replayTexts P t.witnessLog := by
        refine .inr ⟨checkpoint, hmem, .inr (.inl ⟨c.previous_witness_hash, ?_, ?_⟩)⟩
        · rw [h.complete, get_complete_previous]
        · simp only [contentsAt, h.complete, get_complete_subject, get_complete_receipt, get_complete_active, epochOf_complete]
          rfl
      have hcontents' : c'.contents.canonicalize P.toNumberFormat ∈ replayTexts P t.witnessLog := by
        refine .inr ⟨checkpoint, hmem, .inr (.inr ?_)⟩
        simp only [contentsAt, h.complete, get_complete_subject, get_complete_receipt, get_complete_active, hsubject, hreceipt,
          hactive, ← hnext, ← h'.previous (isRoot_previousWitnessHash hchain)]
        rfl
      have hsame := canonicalize_inj (prefixedSha256_inj hcf hcontents hcontents' hroots)
      have hnum : c'.contents.get (js "epoch") = some (.num c.epoch) :=
        hsame.get_num (by simp [Checkpoint.contents, checkpointContents, field])
      have heq : c'.epoch = c.epoch := by simpa [Checkpoint.contents, checkpointContents, field] using hnum
      omega
  · -- one epoch twice
    have hrequest := h.epoch
    have hrequest' := h'.epoch
    rw [requestEpoch, hepoch] at hrequest hrequest'
    have heq : (c.epoch : ℚ) = c'.epoch := Json.num.inj (hrequest.symm.trans hrequest')
    have : c.epoch = c'.epoch := by exact_mod_cast heq
    omega

/-! ## Runs -/

variable {reply : Json}

/-- What an accepted push has stored. -/
theorem accepted_push (hroute : req.IsFor "/relay/push") (hbody : req.body = .ok body)
    (haccepted : (handleRelayRequest P u env req).1 = .json 201 reply) : ∃ record, pushed P u body = .ok record := by
  have hserved := served (P := P) u env req
  rw [haccepted] at hserved
  generalize (handleRelayRequest P u env req).2 = t at hserved
  cases hserved with
  | unchanged hreply => exact absurd rfl (hreply reply)
  | push _ hbody' _ hrecord =>
    cases hbody.symm.trans hbody'
    exact ⟨_, hrecord⟩
  | witness hroute' => exact absurd (IsFor.eq hroute hroute') (by decide)
  | challenge hroute' => exact absurd (IsFor.eq hroute hroute') (by decide)
  | complete hroute' => exact absurd (IsFor.eq hroute hroute') (by decide)

/-- What an accepted checkpoint request has appended. -/
theorem accepted_witness (hroute : req.IsFor "/witness/checkpoint") (hbody : req.body = .ok body)
    (haccepted : (handleRelayRequest P u env req).1 = .json 201 reply) : ∃ checkpoint, witnessed P u env body = .ok checkpoint ∧
      (handleRelayRequest P u env req).2.witnessLog = u.witnessLog ++ [checkpoint] := by
  have hserved := served (P := P) u env req
  rw [haccepted] at hserved
  generalize (handleRelayRequest P u env req).2 = t at hserved
  cases hserved with
  | unchanged hreply => exact absurd rfl (hreply reply)
  | witness _ hbody' _ hcheckpoint =>
    cases hbody.symm.trans hbody'
    exact ⟨_, hcheckpoint, rfl⟩
  | push hroute' => exact absurd (IsFor.eq hroute hroute') (by decide)
  | challenge hroute' => exact absurd (IsFor.eq hroute hroute') (by decide)
  | complete hroute' => exact absurd (IsFor.eq hroute hroute') (by decide)

theorem createRelayState_fresh (h : createRelayState P o = .ok s) : ∃ value, s.node = newNode P o value := by
  obtain ⟨value, hfresh⟩ := createRelayState_ok h
  exact ⟨value, hfresh.node⟩

theorem assertOnlyKeys_ok {j : Json} {allowed : List JsString} {context : String} {v : Unit} :
    assertOnlyKeys j allowed context = .ok v ↔ ∀ k ∈ j.keys, k ∈ allowed := by
  rw [assertOnlyKeys]
  cases h : j.keys.find? (· ∉ allowed) with
  | none => simpa using List.find?_eq_none.1 h
  | some key =>
    refine iff_of_false (fun h => nomatch h) fun hall => ?_
    have hkey := List.find?_some h
    rw [decide_eq_true_eq] at hkey
    exact hkey (hall key (List.mem_of_find?_eq_some h))

theorem verifySignature_str {payload : Json} {signature publicKey : JsString} :
    verifySignature P payload (some (.str signature)) publicKey = P.verify publicKey (payload.canonicalize P.toNumberFormat) signature := rfl

theorem publicKey_of_get {publicKey : JsString} (h : body.get (js "public_key") = some (.str publicKey)) (hne : publicKey ≠ []) :
    publicKeyFromPairingInput body = .ok publicKey := by
  rw [publicKeyFromPairingInput, h]
  simp [firstOf, orElse, hne]

/-- A client with a key gets a challenge. -/
theorem challenge_given {publicKey : JsString} (hkeys : SigningPair P o.keyPair) (hnode : s.node = newNode P o value)
    (hne : publicKey ≠ []) : ∃ challenge, createPairingChallenge P s env (.obj [(js "public_key", .str publicKey)]) =
      .ok (challenge, { s with pairingChallenges :=
                                 s.pairingChallenges.set (challengeId P s env publicKey) (openChallenge P s env publicKey) }) := by
  obtain ⟨signature, -, hsignature⟩ := exists_signature hkeys value (challengeJson P s env publicKey)
  simp only [createPairingChallenge, assertNoPlaintextLookingFields, Except.bind_eq_ok, assertPlainRecord_ok, failIf_ok,
    assertOnlyKeys_ok]
  refine ⟨_, _, ⟨rfl, rfl⟩, (), ?_, (), ?_, publicKey, publicKey_of_get rfl hne, _, hnode ▸ hsignature, rfl⟩
  · rw [Bool.not_eq_true]
    refine leak_of_names ?_ ?_
    · simp [publicNames]
    · simp [leak_str]
  · simp [Json.keys, PAIRING_CHALLENGE_KEYS]

def completionBody (id publicKey signature : JsString) : Json :=
  .obj [(js "challenge_id", .str id), (js "public_key", .str publicKey), (js "signature", .str signature)]

theorem challengeId_ne {publicKey : JsString} : challengeId P s env publicKey ≠ [] := by
  have hid : (challengeJson P s env publicKey).get (js "challenge_id") = some (.str (idFromValue P "pch_"
      (.obj [(js "clientPublicKey", .str publicKey), (js "nonce", .str (base64url env.nonce))]))) := by simp [challengeJson]
  rw [challengeId, textOf_of_get hid]
  simp [idFromValue, js, utf16]

/-- The identifier of a pairing. -/
def pairingId (P : Platform) (id publicKey issuedAt : JsString) : JsString :=
  idFromValue P "pair_" (.obj [(js "challengeId", .str id), (js "publicKey", .str publicKey), (js "issuedAt", .str issuedAt)])

@[simp] theorem textOf_signed_pairing_id {node_id id publicKey issuedAt : JsString} {signature : Json} :
    textOf (signed (pairingJson P node_id id publicKey issuedAt) signature) "pairing_id" = pairingId P id publicKey issuedAt :=
  textOf_of_get (by simp [signed_get, pairingJson, pairingId])

theorem pairingId_ne {id publicKey issuedAt : JsString} : pairingId P id publicKey issuedAt ≠ [] := by
  simp [pairingId, idFromValue, js, utf16]

/-- A client that signs its challenge in time is paired. -/
theorem completion_given {id signature : JsString} {pending : PendingChallenge} (hkeys : SigningPair P o.keyPair)
    (hnode : s.node = newNode P o value) (hpending : s.pairingChallenges.get id = some pending) (hid : id ≠ [])
    (hne : pending.publicKey ≠ []) (htime : dateLe P (textOf pending.challenge "expires_at") (env.now 0) = false)
    (hsigned : P.verify pending.publicKey (pending.challenge.canonicalize P.toNumberFormat) signature = true) :
    ∃ pairing t, completePairing P s env (completionBody id pending.publicKey signature) = .ok (pairing, t) ∧
      t.pairings.get (pairingId P id pending.publicKey (env.now 1)) = some pairing ∧
      pairing.get (js "client_public_key") = some (.str pending.publicKey) := by
  have hcheck : checkCompletion P s env (completionBody id pending.publicKey signature) = .ok (id, pending) := by
    simp only [checkCompletion, assertNoPlaintextLookingFields, Except.bind_eq_ok, assertPlainRecord_ok, failIf_ok, assertOnlyKeys_ok,
      requiredString_ok]
    refine ⟨_, ⟨rfl, rfl⟩, (), ?_, (), ?_, id, ⟨rfl, hid⟩, ?_⟩
    · rw [Bool.not_eq_true]
      refine leak_of_names ?_ ?_
      · simp [publicNames, RELAY_STATE_PAIRING_KEYS]
      · simp [leak_str]
    · simp [completionBody, Json.keys, PAIRING_COMPLETE_KEYS]
    · rw [hpending]
      simp only [Except.bind_eq_ok, failIf_ok]
      refine ⟨(), by rw [htime]; exact Bool.false_ne_true, pending.publicKey, publicKey_of_get rfl hne, (), not_not.2 rfl, (), ?_, rfl⟩
      rw [Bool.not_eq_false]
      exact hsigned
  obtain ⟨sig, -, hsig⟩ := exists_signature hkeys value (pairingJson P s.node.node_id id pending.publicKey (env.now 1))
  rw [← hnode] at hsig
  simp only [completePairing, Except.bind_eq_ok]
  refine ⟨_, _, ⟨(id, pending), hcheck, _, hsig, rfl⟩, ?_, ?_⟩
  · simp
  · simp [signed_get, pairingJson]

/-- A client gets a challenge and completes it. -/
def pairRequests (env : RelayEnv) (id publicKey signature : JsString) : List (RelayEnv × RelayRequest) :=
  [(env, bareRequest "/pairing/challenge" (.obj [(js "public_key", .str publicKey)])),
   (env, bareRequest "/pairing/complete" (completionBody id publicKey signature))]

theorem run_pairRequests {publicKey signature : JsString} (hkeys : SigningPair P o.keyPair) (hnode : s.node = newNode P o value)
    (hne : publicKey ≠ []) (htime : dateLe P (textOf (challengeJson P s env publicKey) "expires_at") (env.now 0) = false)
    (hsigned : P.verify publicKey ((challengeJson P s env publicKey).canonicalize P.toNumberFormat) signature = true) :
    ∃ u pairing, Run.run (step P) s (pairRequests env (challengeId P s env publicKey) publicKey signature) = some u ∧ Grows s u ∧
      u.pairings.get (pairingId P (challengeId P s env publicKey) publicKey (env.now 1)) = some pairing ∧
      pairing.get (js "client_public_key") = some (.str publicKey) := by
  obtain ⟨challenge, hchallenge⟩ : ∃ challenge, createPairingChallenge P s env _ = .ok (challenge, _) := challenge_given hkeys hnode hne
  set t : RelayState :=
    { s with pairingChallenges := s.pairingChallenges.set (challengeId P s env publicKey) (openChallenge P s env publicKey) } with ht
  have hpending : t.pairingChallenges.get (challengeId P s env publicKey) = some (openChallenge P s env publicKey) := by simp [ht]
  obtain ⟨pairing, u, hcompleted, hpairing, hkey⟩ := completion_given (s := t) hkeys hnode hpending challengeId_ne hne htime hsigned
  have hrun : Run.run (step P) s (pairRequests env (challengeId P s env publicKey) publicKey signature) = some u := by
    have hstep : step P s (env, bareRequest "/pairing/challenge" (.obj [(js "public_key", .str publicKey)])) = some t := by
      rw [step, handle_challenge ⟨rfl, rfl⟩ rfl hchallenge]
    have hstep' : step P t (env, bareRequest "/pairing/complete" (completionBody (challengeId P s env publicKey) publicKey signature)) =
        some u := by
      rw [step, handle_complete ⟨rfl, rfl⟩ rfl hcompleted]
    rw [pairRequests, Run.run, hstep, Option.bind_some, Run.run, hstep']
    rfl
  exact ⟨u, pairing, hrun, run_grows hrun, hpairing, hkey⟩

/-- A request that is signed for a pairing is authorised. -/
theorem authorized_of_signed {pairingId publicKey clientSignature : JsString} {pairing : Json} {operation : String}
    (hpairing : s.pairings.get pairingId = some pairing) (hid : req.pairingId = some pairingId) (hid_ne : pairingId ≠ [])
    (hsignature : req.clientSignature = some clientSignature) (hsignature_ne : clientSignature ≠ [])
    (hkey : pairing.get (js "client_public_key") = some (.str publicKey))
    (hsigned : P.verify publicKey ((relayAuthorizationPayload s.node.node_id pairingId (js operation)
      (relayRequestHash P req (some body))).canonicalize P.toNumberFormat) clientSignature = true) :
    Authorized P s req operation body := by
  rw [Authorized, requireRelayAuthorization]
  split
  · exact ⟨_, rfl⟩
  · have hid' : req.pairingId.filter (· ≠ []) = some pairingId := by simp [hid, hid_ne]
    have hsignature' : req.clientSignature.filter (· ≠ []) = some clientSignature := by simp [hsignature, hsignature_ne]
    simp only [hid', hsignature', hpairing, hkey, verifySignature_str, hsigned]
    exact ⟨_, rfl⟩

/-- A request for a checkpoint that names nothing is readable. -/
theorem readable_empty : Readable (.obj []) (js "subject") emptyMerkleRoot emptyMerkleRoot where
  subject := by simp [firstOf, orElse, requiredString_ok, js, utf16]
  receipt := by simp [firstOf, orElse, normalizeRoot_of_isRoot isRoot_empty]
  active := by simp [firstOf, orElse, normalizeRoot_of_isRoot isRoot_empty]

theorem normalize_empty : normalizeWitnessInput (.obj []) = .ok (.obj []) := by
  simp [normalizeWitnessInput, assertPlainRecord, assertNoPlaintextLookingFields, hasPlaintextLeak, hasPlaintextLeakFields, failIf,
    openEnvelope, assertOnlyKeys, Json.keys, assertRootIfDefined, orElse, firstOf, bind, Except.bind, pure, Except.pure]

/-- A request with an empty body gets the next checkpoint. -/
theorem witnessed_empty (hkeys : SigningPair P o.keyPair) (hnode : s.node = newNode P o value) (hchain : WitnessChain P s.witnessLog)
    (hne : env.now 0 ≠ []) (hdate : (P.parseDate (env.now 0)).isSome = true) : ∃ checkpoint, witnessed P s env (.obj []) = .ok checkpoint :=
  witnessed_unnamed hkeys hnode hchain normalize_empty (by simp [NamesCheckpoint, orElse]) readable_empty
    (by simp [issuedAt, orElse]) hne hdate

/-- The challenge of the first request of a client. -/
def firstChallenge (s : RelayState) : JsString := challengeId reference s newYearEnv Reference.publicKey

def firstPairing (s : RelayState) : JsString :=
  pairingId reference (firstChallenge s) Reference.publicKey Reference.newYearText

/-- The client is paired. -/
def firstRequests (s : RelayState) : List (RelayEnv × RelayRequest) :=
  pairRequests newYearEnv (firstChallenge s) Reference.publicKey
    (Reference.sign ((challengeJson reference s newYearEnv Reference.publicKey).canonicalize reference.toNumberFormat))

/-- The client asks for a checkpoint and names nothing. -/
def checkpointRequest (s : RelayState) : RelayRequest :=
  let bare := bareRequest "/witness/checkpoint" (.obj [])
  { bare with pairingId := some (firstPairing s),
              clientSignature := some (Reference.sign ((relayAuthorizationPayload s.node.node_id (firstPairing s)
                (js "witness.checkpoint") (relayRequestHash reference bare (some (.obj [])))).canonicalize reference.toNumberFormat)) }

theorem parse_newYearText : reference.parseDate Reference.newYearText = some Reference.newYear := by
  have h := Reference.parseDate_isoText Reference.newYear
  rw [Reference.isoText, if_pos rfl] at h
  exact h

theorem challenge_in_time {s : RelayState} {publicKey : JsString} (h : s.challengeTtlMs = 300000) :
    dateLe reference (textOf (challengeJson reference s newYearEnv publicKey) "expires_at") (newYearEnv.now 0) = false := by
  have hexpires : (challengeJson reference s newYearEnv publicKey).get (js "expires_at") =
      some (.str (futureIso reference Reference.newYear Reference.newYearText s.challengeTtlMs)) := by
    simp [challengeJson, newYearEnv]
  have hlater : reference.parseDate (futureIso reference Reference.newYear Reference.newYearText s.challengeTtlMs) =
      some (Reference.newYear + 300000) := by
    rw [futureIso, reference.isoText_parse, parse_newYearText, h]
    rfl
  rw [textOf_of_get hexpires, dateLe, hlater, newYearEnv, parse_newYearText]
  decide

/-- The relay appends a checkpoint for the paired client, as often as it asks. -/
theorem checkpoint_accepted {s u : RelayState} {pairing : Json} (hcreated : createRelayState reference (newYearRelay false) = .ok s)
    (hgrows : Grows s u) (hchain : WitnessChain reference u.witnessLog) (hpairing : u.pairings.get (firstPairing s) = some pairing)
    (hkey : pairing.get (js "client_public_key") = some (.str Reference.publicKey)) :
    ∃ reply checkpoint, (handleRelayRequest reference u newYearEnv (checkpointRequest s)).1 = .json 201 reply ∧
      (handleRelayRequest reference u newYearEnv (checkpointRequest s)).2 = { u with witnessLog := u.witnessLog ++ [checkpoint] } := by
  obtain ⟨value, hnode⟩ := createRelayState_fresh hcreated
  have hnode' : u.node = newNode reference (newYearRelay false) value := hgrows.node.trans hnode
  have hdate : (reference.parseDate (newYearEnv.now 0)).isSome = true := by
    rw [newYearEnv, parse_newYearText]
    rfl
  obtain ⟨checkpoint, hcheckpoint⟩ : ∃ checkpoint, witnessed reference u newYearEnv (.obj []) = .ok checkpoint :=
    witnessed_empty (newYear_signingPair false) hnode' hchain (by simp [newYearEnv, Reference.newYearText, js, utf16]) hdate
  have hverify : reference.verify Reference.publicKey ((relayAuthorizationPayload u.node.node_id (firstPairing s)
      (js "witness.checkpoint") (relayRequestHash reference (checkpointRequest s) (some (.obj [])))).canonicalize reference.toNumberFormat)
      (Reference.sign ((relayAuthorizationPayload s.node.node_id (firstPairing s) (js "witness.checkpoint")
        (relayRequestHash reference (checkpointRequest s) (some (.obj [])))).canonicalize reference.toNumberFormat)) = true := by
    rw [hgrows.node]
    exact decide_eq_true rfl
  obtain ⟨authorization, hauthorized⟩ : Authorized reference u (checkpointRequest s) "witness.checkpoint" (.obj []) :=
    authorized_of_signed hpairing rfl pairingId_ne rfl (Reference.sign_unmarked _).1 hkey hverify
  have happended : (handleRelayRequest reference u newYearEnv (checkpointRequest s)).2 = _ :=
    handle_witness ⟨rfl, rfl⟩ rfl hauthorized hcheckpoint
  obtain ⟨reply, hreply⟩ : ∃ reply, (handleRelayRequest reference u newYearEnv (checkpointRequest s)).1 = .json 201 reply := by
    by_contra hrefused
    have hsame := served_refused (served (P := reference) u newYearEnv (checkpointRequest s)) (not_exists.1 hrefused)
    rw [happended] at hsame
    simpa using congrArg RelayState.witnessLog hsame
  exact ⟨reply, checkpoint, hreply, happended⟩

theorem exists_replay : ∃ s u t reply, createRelayState reference (newYearRelay false) = .ok s ∧
    Run.run (step reference) s (firstRequests s) = some u ∧
    (handleRelayRequest reference u newYearEnv (checkpointRequest s)).1 = .json 201 reply ∧
    Run.run (step reference) s (firstRequests s ++ [(newYearEnv, checkpointRequest s)]) = some t ∧
    (handleRelayRequest reference t newYearEnv (checkpointRequest s)).2.witnessLog ≠ t.witnessLog := by
  obtain ⟨s, hs⟩ := exists_newYearRelay false
  obtain ⟨value, hfresh⟩ := createRelayState_ok hs
  have hne : Reference.publicKey ≠ [] := by simp [Reference.publicKey, js, utf16]
  obtain ⟨u, pairing, hu, hgrows, hpairing, hkey⟩ := run_pairRequests (newYear_signingPair false) hfresh.node hne
    (challenge_in_time hfresh.challengeTtlMs) (decide_eq_true rfl)
  change Run.run (step reference) s (firstRequests s) = some u at hu
  obtain ⟨reply, checkpoint, hreply, happended⟩ := checkpoint_accepted hs hgrows (chain_of_valid (run_valid hs hu)) hpairing hkey
  set t : RelayState := { u with witnessLog := u.witnessLog ++ [checkpoint] } with ht
  have hrun : Run.run (step reference) s (firstRequests s ++ [(newYearEnv, checkpointRequest s)]) = some t := by
    rw [Run.run_snoc hu, step, happended]
  obtain ⟨reply', checkpoint', -, happended'⟩ := checkpoint_accepted hs (run_grows hrun) (chain_of_valid (run_valid hs hrun)) hpairing hkey
  refine ⟨s, u, t, reply, hs, hu, hreply, hrun, ?_⟩
  rw [happended']
  simp

end EnigmaMemory.Relay
