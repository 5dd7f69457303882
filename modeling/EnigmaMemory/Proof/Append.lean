import EnigmaMemory.Proof.MerkleRoot
import EnigmaMemory.Proof.Receipt
import EnigmaMemory.Spec.Vault

/-!
# Appended receipts

`appendEvent` reads a few values from the vault and from its argument, checks them, and
signs a receipt over them. `Issue` holds the values that passed the checks.

* `nextEntry_ok`: `appendEvent` succeeds exactly when there are such values, and they
  determine what it appends.
-/

namespace EnigmaMemory

open Json

variable {P : Platform} {v : Vault} {f : EventFields} {env : Ambient}

/-! ## Roots and hashes -/

theorem normalizeSha256Root_of_isRoot {s name : JsString} (h : isRoot s = true) :
    normalizeSha256Root (some (.str s)) name = .ok s := by
  rw [normalizeSha256Root, if_pos h]

theorem isRoot_computeSetRoot (values : List JsString) : isRoot (computeSetRoot values) = true :=
  MerkleSet.isRoot_root _

/-- A set root depends on the elements only. -/
theorem computeSetRoot_congr {l l' : List JsString} (h : ∀ a, a ∈ l ↔ a ∈ l') : computeSetRoot l = computeSetRoot l' := by
  refine MerkleSet.root_congr fun a => ?_
  rw [OrdSet.mem_ofList, OrdSet.mem_ofList, h]

theorem previousReceiptHash_cases (receipts : List Json) :
    previousReceiptHash P receipts = genesis ∨ isRoot (previousReceiptHash P receipts) = true := by
  unfold previousReceiptHash
  cases receipts.getLast? with
  | none => exact Or.inl rfl
  | some r => exact Or.inr (isRoot_prefixedSha256 _)

theorem isRoot_genesis : isRoot genesis = false := by decide

theorem normalizePreviousHash_previous (receipts : List Json) :
    normalizePreviousHash (some (.str (previousReceiptHash P receipts))) = .ok (previousReceiptHash P receipts) := by
  unfold normalizePreviousHash
  rcases previousReceiptHash_cases (P := P) receipts with h | h
  · rw [h, if_pos (by simp)]
  · rw [if_neg, normalizeSha256Root_of_isRoot h]
    intro hg
    rw [Json.str.inj (Option.some.inj (isStr_iff.1 hg)), isRoot_genesis] at h
    exact Bool.false_ne_true h

theorem requiredInteger_ok {z : ℤ} {name : JsString} {n : ℕ} :
    requiredInteger (some (.num z)) name = .ok n ↔ z = n := by
  have hz : Json.natural? (some (.num (z : ℚ))) = if 0 ≤ z then some z.toNat else none := by
    simp [Json.natural?]
  rw [requiredInteger, hz]
  split
  · rename_i m hm
    split at hm
    · cases hm
      simp only [Except.ok.injEq]
      omega
    · cases hm
  · rename_i hm
    split at hm
    · cases hm
    · simp only [reduceCtorEq, false_iff]
      omega

/-! ## The values of an appended receipt -/

/-- The checked values of an event and its receipt. -/
structure Issue where
  timestamp : JsString
  operation : JsString
  tenant_id : JsString
  subject_id : JsString
  sequence : ℕ
  signer : Json
  privateKey : JsString
  signature : JsString

namespace Issue

variable (P env v f) (i : Issue)

def event : Json := eventJson P v (env.uuid 0) i.timestamp f

def body : ReceiptBody where
  event_hash := prefixedSha256 ((i.event P v f env).canonicalize P.toNumberFormat)
  operation := i.operation
  tenant_id := i.tenant_id
  subject_id := i.subject_id
  sequence := i.sequence
  previous_receipt_hash := previousReceiptHash P v.receipts
  active_set_root := computeSetRoot v.activeAddresses.elems
  receipt_log_root := computeReceiptLogRootFrom P v.receipts
  timestamp := i.timestamp
  signer := i.signer
  memory_addr := orElse f.memory_addr none
  source_addr := orElse f.source_addr none
  provider := f.provider
  model := f.model
  policy_id := orElse (orElse f.policy_id (some v.policy_id)) none

def receipt : Json := (i.body P v f env).signed P i.signature

def entry : Entry :=
  ⟨⟨i.event P v f env, (i.event P v f env).canonicalize P.toNumberFormat,
    prefixedSha256 ((i.event P v f env).canonicalize P.toNumberFormat)⟩, i.timestamp, i.receipt P v f env⟩

/-- The checks that the values have passed, but for the last scan. -/
structure Checked : Prop where
  now : nowIso P (env.clock 0) f.now = .ok i.timestamp
  operation : f.operation = .str i.operation ∧ i.operation ≠ []
  tenant_id : orElse f.tenant_id (some v.tenant_id) = some (.str i.tenant_id) ∧ i.tenant_id ≠ []
  subject_id : orElse f.subject_id (some v.subject_id) = some (.str i.subject_id) ∧ i.subject_id ≠ []
  sequence : v.sequence = i.sequence
  signer : normalizeSigner P (some v.signer) none v.signingKeyPair.privateKey = .ok i.signer
  privateKey : v.signingKeyPair.privateKey = some i.privateKey
  signature : P.sign i.privateKey (((i.body P v f env).unsigned P).canonicalize P.toNumberFormat) = .ok i.signature ∧
    i.signature ≠ []

end Issue

/-! ## `appendEvent` -/

/-- The fields of an event that its receipt is made from. -/
structure EventReads (v : Vault) (f : EventFields) (ts : JsString) (event : Json) : Prop where
  operation : event.get (js "operation") = some f.operation
  tenant_id : event.get (js "tenant_id") = orElse f.tenant_id (some v.tenant_id)
  subject_id : event.get (js "subject_id") = orElse f.subject_id (some v.subject_id)
  memory_addr : event.get (js "memory_addr") = f.memory_addr
  source_addr : event.get (js "source_addr") = f.source_addr
  provider : event.get (js "provider") = f.provider
  model : event.get (js "model") = f.model
  policy_id : event.get (js "policy_id") = orElse f.policy_id (some v.policy_id)
  sequence : event.get (js "sequence") = some (.num v.sequence)
  timestamp : event.get (js "timestamp") = some (.str ts)
  camel : ∀ key ∈ ["tenantId", "subjectId", "memoryAddr", "sourceAddr", "policyId"], event.get (js key) = none
  isObj : ∃ fs, event = .obj fs

theorem eventReads (uuid ts : JsString) : EventReads v f ts (eventJson P v uuid ts f) := by
  constructor
  case camel =>
    intro key hkey
    simp only [List.mem_cons, List.not_mem_nil, or_false] at hkey
    rcases hkey with rfl | rfl | rfl | rfl | rfl
    all_goals simp [eventJson, get_obj_append]
  case isObj => exact ⟨_, rfl⟩
  all_goals simp [eventJson, get_obj_append]

/-- A value that is read twice is read once. -/
theorem orElse_twice (a : Option Json) : orElse a (orElse none (orElse a none)) = orElse a none := by
  rcases a with - | j
  · rfl
  · cases j <;> rfl

theorem orElse_self (a : Option Json) : orElse a a = a := by
  rcases a with - | j
  · rfl
  · cases j <;> rfl

theorem orElse_eq_str {a : Option Json} {s : JsString} : orElse a none = some (.str s) ↔ a = some (.str s) := by
  rcases a with - | j
  · simp [orElse]
  · cases j <;> simp [orElse]

theorem receiptBody_args {time : ℤ} {ts eh previous active log : JsString} {sk : Option JsString} {event : Json}
    {b : ReceiptBody} (he : EventReads v f ts event) (hts : ts ≠ []) (heh : isRoot eh = true)
    (hactive : isRoot active = true) (hlog : isRoot log = true)
    (hprev : normalizePreviousHash (some (.str previous)) = .ok previous) :
    receiptBody P time (receiptArgs v event eh previous active log) sk = .ok b ↔
      ∃ operation tenant subject signer, ∃ sequence : ℕ,
        (f.operation = .str operation ∧ operation ≠ []) ∧
        (orElse f.tenant_id (some v.tenant_id) = some (.str tenant) ∧ tenant ≠ []) ∧
        (orElse f.subject_id (some v.subject_id) = some (.str subject) ∧ subject ≠ []) ∧
        v.sequence = sequence ∧ normalizeSigner P (some v.signer) none sk = .ok signer ∧
        b = ⟨eh, operation, tenant, subject, sequence, previous, active, log, ts, signer,
          orElse f.memory_addr none, orElse f.source_addr none, f.provider, f.model,
          orElse (orElse f.policy_id (some v.policy_id)) none⟩ := by
  set args := receiptArgs v event eh previous active log with hargs
  have hget : ∀ key ∈ ["operation", "tenant_id", "subject_id", "memory_addr", "source_addr", "provider", "model",
      "policy_id", "sequence", "timestamp"], args.get (js key) = event.get (js key) := by
    intro key hkey
    simp only [List.mem_cons, List.not_mem_nil, or_false] at hkey
    rcases hkey with rfl | rfl | rfl | rfl | rfl | rfl | rfl | rfl | rfl | rfl
    all_goals simp [hargs, receiptArgs, get_obj_append]
  have hnone : ∀ key ∈ ["tenantId", "subjectId", "memoryAddr", "sourceAddr", "policyId", "key_id", "keyId"],
      args.get (js key) = none := by
    intro key hkey
    simp only [List.mem_cons, List.not_mem_nil, or_false] at hkey
    rcases hkey with rfl | rfl | rfl | rfl | rfl | rfl | rfl
    all_goals simp [hargs, receiptArgs, get_obj_append]
  obtain ⟨fs, hfs⟩ := he.isObj
  have hsource : (orElse (args.get (js "event")) (some args)).getD args = event := by
    simp [hargs, receiptArgs, hfs, orElse]
  have hopt : ∀ snake camel, snake ∈ ["tenant_id", "subject_id", "memory_addr", "source_addr", "policy_id"] →
      camel ∈ ["tenantId", "subjectId", "memoryAddr", "sourceAddr", "policyId"] →
      optionOrSource args event snake camel = orElse (event.get (js snake)) none := by
    intro snake camel hs hc
    have hs' : args.get (js snake) = event.get (js snake) := by
      refine hget snake ?_
      revert snake
      simp
    have hc' : args.get (js camel) = none := by
      refine hnone camel ?_
      revert camel
      simp
    rw [optionOrSource, hs', hc', he.camel camel hc, orElse_twice]
  have hsame : ∀ name, name ∈ ["provider", "model"] → optionOrSource args event name name = event.get (js name) := by
    intro name hname
    have hn : args.get (js name) = event.get (js name) := by
      refine hget name ?_
      revert name
      simp
    rw [optionOrSource, hn, orElse_self, orElse_self, orElse_self]
  have hread : args.get (js "previous_receipt_hash") = some (.str previous) ∧ args.get (js "event_hash") = some (.str eh) ∧
      args.get (js "active_set_root") = some (.str active) ∧ args.get (js "receipt_log_root") = some (.str log) ∧
      args.get (js "signer") = some v.signer := by
    simp [hargs, receiptArgs, get_obj_append]
  obtain ⟨h1, h2, h3, h4, h5⟩ := hread
  unfold receiptBody
  simp only [hsource, h1, h2, h3, h4, h5, hget "sequence" (by simp), hget "operation" (by simp),
    hget "timestamp" (by simp), hnone "key_id" (by simp), hnone "keyId" (by simp), he.sequence, he.operation, he.timestamp,
    hopt "tenant_id" "tenantId" (by simp) (by simp), hopt "subject_id" "subjectId" (by simp) (by simp),
    hopt "memory_addr" "memoryAddr" (by simp) (by simp), hopt "source_addr" "sourceAddr" (by simp) (by simp),
    hopt "policy_id" "policyId" (by simp) (by simp), hsame "provider" (by simp), hsame "model" (by simp),
    he.tenant_id, he.subject_id, he.memory_addr, he.source_addr, he.provider, he.model, he.policy_id, orElse_self]
  have hstr : ∀ s x, orElse (some (.str s)) x = some (.str s) := fun _ _ => rfl
  simp only [hstr, hprev, normalizeSha256Root_of_isRoot, heh, hactive, hlog]
  simp only [Except.bind_eq_ok, requiredInteger_ok, requiredString_ok, Except.pure_eq_ok, Option.some.injEq,
    orElse_eq_str]
  constructor
  · rintro ⟨n, hn, _, ⟨⟩, _, ⟨⟩, _, ⟨⟩, _, ⟨⟩, op, hop, _, ⟨⟨⟩, -⟩, signer, hsigner, t, ht, s, hs, rfl⟩
    exact ⟨op, t, s, signer, n, hop, ht, hs, hn, hsigner, rfl⟩
  · rintro ⟨op, t, s, signer, n, hop, ht, hs, hn, hsigner, rfl⟩
    exact ⟨n, hn, _, rfl, _, rfl, _, rfl, _, rfl, op, hop, ts, ⟨rfl, hts⟩, signer, hsigner, t, ht, s, hs, rfl⟩

theorem nowIso_eq {time : ℤ} {now : Now} {ts : JsString} (h : nowIso P time now = .ok ts) : ∃ t, ts = P.isoText t := by
  unfold nowIso at h
  split at h
  · cases h; exact ⟨_, rfl⟩
  · cases h; exact ⟨_, rfl⟩
  · cases h
  · split at h
    · cases h; exact ⟨_, rfl⟩
    · cases h

theorem nowIso_ne {time : ℤ} {now : Now} {ts : JsString} (h : nowIso P time now = .ok ts) : ts ≠ [] := by
  obtain ⟨t, rfl⟩ := nowIso_eq h
  exact P.isoText_ne t

/-- **What `appendEvent` appends.** It succeeds exactly when the checked values exist and
the receipt over them shows no plaintext marker. -/
theorem nextEntry_ok {e : Entry} : nextEntry P env v f = .ok e ↔ ∃ i : Issue, i.Checked P v f env ∧
    containsPlaintextMarker P.toNumberFormat (i.receipt P v f env) = false ∧ e = i.entry P v f env := by
  unfold nextEntry
  rw [Except.bind_eq_ok]
  constructor
  · rintro ⟨ts, hts, h⟩
    rw [Except.bind_eq_ok] at h
    obtain ⟨receipt, hr, h⟩ := h
    rw [buildReceipt, Except.bind_eq_ok] at hr
    obtain ⟨r, hcreate, hr⟩ := hr
    split at hr
    · cases hr
    rename_i hmark
    cases hr
    obtain ⟨body, sk, signature, hbody, hsk, hsign, hne, rfl⟩ := (createReceipt_ok
      (by simp [receiptArgs, get_obj_append]) (by simp [receiptArgs, get_obj_append])
      (by simp [receiptArgs, get_obj_append])).1 hcreate
    obtain ⟨op, tenant, subject, signer, n, hop, ht, hs, hn, hsigner, rfl⟩ := (receiptBody_args (eventReads _ _)
      (nowIso_ne hts) (isRoot_prefixedSha256 _) (isRoot_computeSetRoot _) (isRoot_computeSetRoot _)
      (normalizePreviousHash_previous _)).1 hbody
    exact ⟨⟨ts, op, tenant, subject, n, signer, sk, signature⟩, ⟨hts, hop, ht, hs, hn, hsigner, hsk, hsign, hne⟩,
      eq_false_of_ne_true hmark, (Except.pure_eq_ok.1 h).symm⟩
  · rintro ⟨i, hi, hmark, rfl⟩
    refine ⟨i.timestamp, hi.now, ?_⟩
    rw [Except.bind_eq_ok]
    refine ⟨i.receipt P v f env, ?_, rfl⟩
    rw [buildReceipt, Except.bind_eq_ok]
    refine ⟨i.receipt P v f env, (createReceipt_ok (by simp [receiptArgs, get_obj_append])
      (by simp [receiptArgs, get_obj_append]) (by simp [receiptArgs, get_obj_append])).2
        ⟨i.body P v f env, i.privateKey, i.signature, ?_, hi.privateKey, hi.signature.1, hi.signature.2, rfl⟩, ?_⟩
    · exact (receiptBody_args (eventReads _ _) (nowIso_ne hi.now) (isRoot_prefixedSha256 _) (isRoot_computeSetRoot _)
        (isRoot_computeSetRoot _) (normalizePreviousHash_previous _)).2
          ⟨i.operation, i.tenant_id, i.subject_id, i.signer, i.sequence, hi.operation, hi.tenant_id, hi.subject_id,
            hi.sequence, hi.signer, rfl⟩
    · rw [hmark]
      rfl

theorem Issue.valid_body (i : Issue) : (i.body P v f env).Valid where
  event_hash := isRoot_prefixedSha256 _
  active_set_root := isRoot_computeSetRoot _
  receipt_log_root := isRoot_computeSetRoot _
  previous := previousReceiptHash_cases _

end EnigmaMemory
