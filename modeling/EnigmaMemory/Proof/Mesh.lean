import EnigmaMemory.Proof.Receipt
import EnigmaMemory.Spec.Mesh

/-!
# Checkpoints and records of the mesh

* `leak_obj`, `leak_get`: which objects the plaintext scan lets pass.
* `readCheckpoint_ok`: what the options of an accepted checkpoint are, and the checkpoint.
* `verify_iff`: when the verifier has nothing to say about a signed checkpoint.
-/

namespace EnigmaMemory

open Json

theorem natural?_eq_some {j : Option Json} {n : ℕ} : Json.natural? j = some n ↔ j = some (.num n) := by
  constructor
  · intro h
    unfold Json.natural? at h
    split at h
    · rename_i q
      split at h
      · rename_i hq
        have hcast : ((q.num.toNat : ℤ) : ℚ) = q := by
          rw [Int.toNat_of_nonneg hq.2]
          exact (Rat.den_eq_one_iff q).1 hq.1
        rw [← hcast, ← Option.some.inj h, Int.cast_natCast]
      · cases h
    · cases h
  · rintro rfl
    simp [Json.natural?]

namespace Mesh

theorem failIf_ok {p : Prop} [Decidable p] {e : JsError} {u : Unit} : failIf p e = .ok u ↔ ¬ p := by
  rw [failIf]
  split
  · rename_i hp
    exact iff_of_false (fun h => nomatch h) (fun h => h hp)
  · rename_i hp
    exact iff_of_true rfl hp

theorem errorIf_eq_nil {b : Bool} {message : String} : errorIf b message = [] ↔ b = false := by
  cases b <;> simp [errorIf]

/-! ## Plaintext -/

section Leak

variable {forbidden : List JsString}

theorem leakFields_eq_false {fs : List (JsString × Json)} : hasPlaintextLeakFields forbidden fs = false ↔
    ∀ f ∈ fs, (isPlaintextKeyOf forbidden f.1 = true → isBlank f.2 = true) ∧ hasPlaintextLeak forbidden f.2 = false := by
  induction fs with
  | nil => simp [hasPlaintextLeakFields]
  | cons f fs ih =>
    obtain ⟨key, nested⟩ := f
    rw [hasPlaintextLeakFields, Bool.or_eq_false_iff, Bool.or_eq_false_iff, ih, List.forall_mem_cons]
    cases isPlaintextKeyOf forbidden key <;> cases isBlank nested <;> simp

theorem leakItems_eq_false {xs : List Json} : hasPlaintextLeakItems forbidden xs = false ↔
    ∀ x ∈ xs, hasPlaintextLeak forbidden x = false := by
  induction xs with
  | nil => simp [hasPlaintextLeakItems]
  | cons x xs ih => rw [hasPlaintextLeakItems, Bool.or_eq_false_iff, ih, List.forall_mem_cons]

theorem leak_str {s : JsString} : hasPlaintextLeak forbidden (.str s) = false := rfl

theorem leak_arr {xs : List Json} : hasPlaintextLeak forbidden (.arr xs) = false ↔ ∀ x ∈ xs, hasPlaintextLeak forbidden x = false := by
  rw [hasPlaintextLeak, leakItems_eq_false]

theorem leak_obj {fs : List (JsString × Json)} : hasPlaintextLeak forbidden (.obj fs) = false ↔
    ∀ f ∈ fs, (isPlaintextKeyOf forbidden f.1 = true → isBlank f.2 = true) ∧ hasPlaintextLeak forbidden f.2 = false := by
  rw [hasPlaintextLeak, leakFields_eq_false]

/-- An object whose keys and values are all harmless. -/
theorem leak_of_keys {fs : List (JsString × Json)} (hkeys : ∀ k ∈ fs.map Prod.fst, isPlaintextKeyOf forbidden k = false)
    (hvalues : ∀ f ∈ fs, hasPlaintextLeak forbidden f.2 = false) : hasPlaintextLeak forbidden (.obj fs) = false := by
  refine leak_obj.2 fun f hf => ⟨fun hkey => ?_, hvalues f hf⟩
  rw [hkeys f.1 (List.mem_map_of_mem hf)] at hkey
  cases hkey

theorem mem_of_get {fs : List (JsString × Json)} {key : JsString} {v : Json} (h : (Json.obj fs).get key = some v) :
    (key, v) ∈ fs := by
  rw [Json.get] at h
  obtain ⟨before, after, rfl, -⟩ := List.lookup_eq_some_iff.1 h
  simp

theorem leak_get {j v : Json} {key : JsString} (h : hasPlaintextLeak forbidden j = false) (hv : j.get key = some v) :
    hasPlaintextLeak forbidden v = false := by
  cases j with
  | obj fs => exact (leak_obj.1 h _ (mem_of_get hv)).2
  | _ => cases hv

/-- A harmless field that is set. -/
theorem leak_set_harmless {j v : Json} {key : JsString} (hj : hasPlaintextLeak forbidden j = false)
    (hkey : isPlaintextKeyOf forbidden key = false) (hv : hasPlaintextLeak forbidden v = false) :
    hasPlaintextLeak forbidden (j.set key v) = false := by
  have hfields : ∀ f ∈ j.fields, (isPlaintextKeyOf forbidden f.1 = true → isBlank f.2 = true) ∧
      hasPlaintextLeak forbidden f.2 = false := by
    cases j with
    | obj fs => exact leak_obj.1 hj
    | _ => simp [fields]
  have hnew : (isPlaintextKeyOf forbidden key = true → isBlank v = true) ∧ hasPlaintextLeak forbidden v = false := by
    rw [hkey]
    exact ⟨fun h => absurd h Bool.false_ne_true, hv⟩
  rw [Json.set, leak_obj]
  generalize j.fields = fs at hfields
  induction fs with
  | nil =>
    rw [setField, List.forall_mem_singleton]
    exact hnew
  | cons f fs ih =>
    rw [List.forall_mem_cons] at hfields
    rw [setField]
    split
    · rw [List.forall_mem_cons]
      exact ⟨hnew, hfields.2⟩
    · rw [List.forall_mem_cons]
      exact ⟨hfields.1, ih hfields.2⟩

/-- Fewer forbidden keys let more pass. -/
theorem leak_mono {forbidden' : List JsString} (hsub : ∀ k ∈ forbidden, k ∈ forbidden') : ∀ j : Json,
    hasPlaintextLeak forbidden' j = false → hasPlaintextLeak forbidden j = false
  | .null, _ | .bool _, _ | .num _, _ | .str _, _ => rfl
  | .arr xs, h => leak_arr.2 fun x hx => leak_mono hsub x (leak_arr.1 h x hx)
  | .obj fs, h => by
    refine leak_obj.2 fun f hf => ?_
    obtain ⟨hkey, hvalue⟩ := leak_obj.1 h f hf
    refine ⟨fun hforbidden => hkey ?_, leak_mono hsub f.2 hvalue⟩
    rw [isPlaintextKeyOf, decide_eq_true_eq] at hforbidden ⊢
    exact hsub _ hforbidden
termination_by j => sizeOf j
decreasing_by
  · have := List.sizeOf_lt_of_mem hx
    simp only [Json.arr.sizeOf_spec]
    omega
  · have := List.sizeOf_lt_of_mem hf
    obtain ⟨k, v⟩ := f
    simp only [Json.obj.sizeOf_spec, Prod.mk.sizeOf_spec] at this ⊢
    omega

end Leak

/-! ## Signed and hashed objects -/

variable {P : Platform}

theorem signed_get {u signature : Json} {key : JsString} : (signed u signature).get key =
    (u.get key).or (if key = js "signature" then some signature else none) := by
  rw [signed, get_obj_append, get_obj_fields]
  by_cases h : key = js "signature" <;> simp [h]

theorem get_hashed {u : Json} {hashField key : JsString} : (hashed P u hashField).get key =
    (u.get key).or (if key = hashField then some (.str (rootFromValue P u)) else none) := by
  rw [hashed, get_obj_append, get_obj_fields]
  by_cases h : key = hashField <;> simp [h]

theorem withoutAll_append {fs gs : List (JsString × Json)} {names : List JsString} (hfs : ∀ k ∈ fs.map Prod.fst, k ∉ names)
    (hgs : ∀ k ∈ gs.map Prod.fst, k ∈ names) : withoutAll (.obj (fs ++ gs)) names = .obj fs := by
  rw [withoutAll, fields, List.filter_append, List.filter_eq_self.2, List.filter_eq_nil_iff.2, List.append_nil]
  · intro f hf
    simpa using hgs f.1 (List.mem_map_of_mem hf)
  · intro f hf
    simpa using hfs f.1 (List.mem_map_of_mem hf)

theorem without_append_singleton {fs : List (JsString × Json)} {key : JsString} {v : Json} (h : key ∉ fs.map Prod.fst) :
    (Json.obj (fs ++ [(key, v)])).without key = .obj fs := by
  rw [without, fields, List.filter_append, List.filter_eq_self.2]
  · simp
  · intro f hf
    simpa using fun he : f.1 = key => h (he ▸ List.mem_map_of_mem hf)

theorem isRoot_rootFromValue (v : Json) : isRoot (rootFromValue P v) = true := by
  cases v <;> exact isRoot_prefixedSha256 _

theorem rootTest_str {s : JsString} : rootTest P (some (.str s)) = isRoot s := rfl

theorem normalizeRoot_of_isRoot {s : JsString} {f : String} (h : isRoot s = true) :
    normalizeRoot (some (.str s)) f = .ok s := by
  rw [normalizeRoot, normalizeSha256Root, if_pos h]
  all_goals simp

theorem compareExpectedRoot_self {s expected : JsString} {f message : String} (h : isRoot expected = true) :
    compareExpectedRoot (some (.str s)) (some (.str expected)) f message = [] ↔ s = expected := by
  rw [compareExpectedRoot, normalizeRoot_of_isRoot h, errorIf_eq_nil]
  simp

/-- A root that is not there falls back to that of the empty set. -/
theorem isRoot_of_normalizeRoot {value : Option Json} {f : String} {s : JsString} (h : normalizeRoot value f = .ok s) :
    isRoot s = true := by
  unfold normalizeRoot at h
  split at h
  · cases h; exact isRoot_prefixedSha256 _
  · cases h; exact isRoot_prefixedSha256 _
  · rename_i v _
    unfold normalizeSha256Root at h
    split at h
    · split at h
      · rename_i hroot
        cases h
        exact hroot
      · split at h
        · rename_i hhash
          cases h
          exact isRoot_append hhash
        · cases h
    · cases h

theorem dateString_ok {value : Option Json} {f : String} {fallback : Option JsString} {s : JsString} :
    dateString P value f fallback = .ok s ↔
      orElse value (fallback.map .str) = some (.str s) ∧ s ≠ [] ∧ (P.parseDate s).isSome = true := by
  rw [dateString, Except.bind_eq_ok]
  constructor
  · rintro ⟨t, ht, h⟩
    obtain ⟨hv, hne⟩ := requiredString_ok.1 ht
    obtain ⟨⟨⟩, hdate, h⟩ := Except.bind_eq_ok.1 h
    cases h
    exact ⟨hv, hne, by simpa [Option.isSome_iff_ne_none] using failIf_ok.1 hdate⟩
  · rintro ⟨hv, hne, hdate⟩
    refine ⟨s, requiredString_ok.2 ⟨hv, hne⟩, Except.bind_eq_ok.2 ⟨(), failIf_ok.2 ?_, rfl⟩⟩
    simpa [Option.isSome_iff_ne_none] using hdate

/-! ## Checkpoints -/

/-- What the options of a checkpoint say. -/
structure Reads (P : Platform) (options : Json) (node : Node) (c : Checkpoint) : Prop where
  clean : hasPlaintextLeak FORBIDDEN_PLAINTEXT_KEYS (options.set (js "node") node.toJson) = false
  witness_node_id : requiredString (firstOf [options.get (js "witness_node_id"), options.get (js "witnessNodeId"),
    some (.str node.node_id)]) (js "witness_node_id") = .ok c.witness_node_id
  subject_node_id : requiredString (firstOf [options.get (js "subject_node_id"), options.get (js "subjectNodeId"),
    options.get (js "subject"), some (.str (js "subject"))]) (js "subject_node_id") = .ok c.subject_node_id
  receipt_log_root : normalizeRoot (firstOf [options.get (js "receipt_log_root"), options.get (js "receiptLogRoot")])
    "receipt_log_root" = .ok c.receipt_log_root
  active_set_root : normalizeRoot (firstOf [options.get (js "active_set_root"), options.get (js "activeSetRoot"),
    options.get (js "active_memory_root"), options.get (js "activeMemoryRoot")]) "active_set_root" = .ok c.active_set_root
  epoch : (options.get (js "epoch")).getD (.num 0) = .num c.epoch
  previous_witness_hash : normalizeRoot (firstOf [options.get (js "previous_witness_hash"),
    options.get (js "previousWitnessHash"), some (.str emptyMerkleRoot)]) "previous_witness_hash" = .ok c.previous_witness_hash
  checkpoint_root : ∀ supplied, orElse (options.get (js "checkpoint_root")) (options.get (js "checkpointRoot")) = some supplied →
    normalizeRoot (some supplied) "checkpoint_root" = .ok (c.root P)
  issued_at : dateString P (orElse (options.get (js "issued_at")) (options.get (js "issuedAt"))) "issued_at" (some DEFAULT_NOW) =
    .ok c.issued_at

theorem readEpoch_ok {value : Option Json} {n : ℕ} : readEpoch value = .ok n ↔ value = some (.num n) := by
  rw [← natural?_eq_some, readEpoch]
  cases Json.natural? value <;> simp

theorem checkSuppliedRoot_ok {supplied : Option Json} {root : JsString} {u : Unit} : checkSuppliedRoot supplied root = .ok u ↔
    ∀ v, supplied = some v → normalizeRoot (some v) "checkpoint_root" = .ok root := by
  cases supplied with
  | none => exact iff_of_true rfl (fun v h => nomatch h)
  | some v =>
    simp only [checkSuppliedRoot, Except.bind_eq_ok, failIf_ok, not_not]
    constructor
    · rintro ⟨r, hr, rfl⟩ w hw
      rwa [← Option.some.inj hw]
    · exact fun h => ⟨root, h v rfl, rfl⟩

theorem readCheckpoint_ok {options : Json} {node : Node} {c : Checkpoint} :
    readCheckpoint P options node = .ok c ↔ Reads P options node c := by
  simp only [readCheckpoint, assertNoPlaintext, Except.bind_eq_ok, failIf_ok, readEpoch_ok, checkSuppliedRoot_ok, Bool.not_eq_true]
  constructor
  · rintro ⟨⟨⟩, hclean, witness, hwitness, subject, hsubject, receipt, hreceipt, active, hactive, epoch, hepoch, previous,
      hprevious, ⟨⟩, hroot, issued, hissued, h⟩
    cases h
    exact ⟨hclean, hwitness, hsubject, hreceipt, hactive, Option.some.inj hepoch, hprevious, hroot, hissued⟩
  · intro h
    exact ⟨(), h.clean, _, h.witness_node_id, _, h.subject_node_id, _, h.receipt_log_root, _, h.active_set_root, _,
      congrArg some h.epoch, _, h.previous_witness_hash, (), h.checkpoint_root, _, h.issued_at, rfl⟩

/-- The signature that a node makes. -/
def signatureObject (node : Node) (value : JsString) : Json :=
  .obj [(js "alg", ed25519), (js "key_id", .str node.key_id), (js "value", .str value)]

theorem createSignature_ok {u signature : Json} {node : Node} : createSignature P u node = .ok signature ↔
    node.key_id ≠ [] ∧ ∃ value, P.sign node.privateKey (u.canonicalize P.toNumberFormat) = .ok value ∧
      signature = signatureObject node value := by
  simp only [createSignature, Except.bind_eq_ok, requiredString_ok, signPayload]
  constructor
  · rintro ⟨_, ⟨h, hne⟩, value, hvalue, hs⟩
    cases h
    cases hs
    exact ⟨hne, value, hvalue, rfl⟩
  · rintro ⟨hne, value, hvalue, rfl⟩
    exact ⟨_, ⟨rfl, hne⟩, value, hvalue, rfl⟩

/-- The checkpoint with its signature and its hash. -/
def Checkpoint.complete (P : Platform) (c : Checkpoint) (signature : Json) : Json :=
  hashed P (signed (c.toJson P) signature) (js "witness_hash")

section Complete

variable (c : Checkpoint) (signature : Json)

@[simp] theorem get_complete_epoch : (c.complete P signature).get (js "epoch") = some (.num c.epoch) := by
  simp [Checkpoint.complete, get_hashed, signed_get, Checkpoint.toJson]

@[simp] theorem get_complete_schema : (c.complete P signature).get (js "schema") = some (.str WITNESS_SCHEMA) := by
  simp [Checkpoint.complete, get_hashed, signed_get, Checkpoint.toJson]

@[simp] theorem get_complete_subject : (c.complete P signature).get (js "subject_node_id") = some (.str c.subject_node_id) := by
  simp [Checkpoint.complete, get_hashed, signed_get, Checkpoint.toJson]

@[simp] theorem get_complete_witness : (c.complete P signature).get (js "witness_node_id") = some (.str c.witness_node_id) := by
  simp [Checkpoint.complete, get_hashed, signed_get, Checkpoint.toJson]

@[simp] theorem get_complete_root : (c.complete P signature).get (js "checkpoint_root") = some (.str (c.root P)) := by
  simp [Checkpoint.complete, get_hashed, signed_get, Checkpoint.toJson]

@[simp] theorem get_complete_receipt : (c.complete P signature).get (js "receipt_log_root") = some (.str c.receipt_log_root) := by
  simp [Checkpoint.complete, get_hashed, signed_get, Checkpoint.toJson]

@[simp] theorem get_complete_active : (c.complete P signature).get (js "active_set_root") = some (.str c.active_set_root) := by
  simp [Checkpoint.complete, get_hashed, signed_get, Checkpoint.toJson]

@[simp] theorem get_complete_previous :
    (c.complete P signature).get (js "previous_witness_hash") = some (.str c.previous_witness_hash) := by
  simp [Checkpoint.complete, get_hashed, signed_get, Checkpoint.toJson]

@[simp] theorem get_complete_signature : (c.complete P signature).get (js "signature") = some signature := by
  simp [Checkpoint.complete, get_hashed, signed_get, Checkpoint.toJson]

@[simp] theorem get_complete_hash : (c.complete P signature).get (js "witness_hash") =
    some (.str (rootFromValue P (signed (c.toJson P) signature))) := by
  simp [Checkpoint.complete, get_hashed, signed_get, Checkpoint.toJson]

theorem without_complete : (c.complete P signature).without (js "witness_hash") = signed (c.toJson P) signature := by
  rw [Checkpoint.complete, hashed, without_append_singleton, signed, fields]
  simp [signed, Checkpoint.toJson, fields]

theorem signaturePayload_complete : signaturePayload (c.complete P signature) = c.toJson P := by
  rw [Checkpoint.complete, hashed, signed, Json.fields, signaturePayload, List.append_assoc]
  refine withoutAll_append ?_ ?_ <;> simp [Checkpoint.toJson, fields]

end Complete

end Mesh

end EnigmaMemory
