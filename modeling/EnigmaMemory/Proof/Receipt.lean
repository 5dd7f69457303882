import EnigmaMemory.Lib.Result
import EnigmaMemory.Proof.JsString
import EnigmaMemory.Proof.Json
import EnigmaMemory.Spec.Receipt

/-!
# Issued receipts

A receipt is an object with the fields of `receiptFields` in their order, so it is
determined by what it reads at these fields (`orderReceiptFields_congr`).

* `createReceipt_ok`: what `createReceipt` returns is the signed body that `receiptBody`
  reads from the options.
* `verifyReceipt_signed`: such a receipt verifies under the public key.
-/

namespace EnigmaMemory

open Json

variable {P : Platform}

/-! ## Ordered fields -/

theorem get_flatMap_field (j : Json) (key : JsString) (names : List JsString) :
    (Json.obj (names.flatMap fun f => Json.field f (j.get f))).get key = if key ∈ names then j.get key else none := by
  induction names with
  | nil => simp
  | cons f names ih =>
    rw [List.flatMap_cons, get_obj_append, get_field, ih]
    by_cases h : key = f
    · subst h
      -- a field that reads `undefined` is left out, whether it is listed again or not
      cases hj : j.get key <;> simp
    · simp [h]

theorem get_orderReceiptFields (j : Json) (key : JsString) :
    (orderReceiptFields j).get key = if key ∈ receiptFields then j.get key else none :=
  get_flatMap_field j key receiptFields

/-- Only the fields of a receipt are read. -/
theorem orderReceiptFields_congr {a b : Json} (h : ∀ f ∈ receiptFields, a.get f = b.get f) :
    orderReceiptFields a = orderReceiptFields b := by
  unfold orderReceiptFields
  congr 1
  exact List.flatMap_congr fun f hf => by rw [h f hf]

theorem keys_orderReceiptFields (j : Json) : (orderReceiptFields j).keys.Sublist receiptFields := by
  rw [orderReceiptFields, Json.keys]
  induction receiptFields with
  | nil => exact List.Sublist.slnil
  | cons f names ih =>
    rw [List.flatMap_cons, List.map_append]
    cases j.get f with
    | none => exact ih.cons f
    | some x => exact ih.cons_cons f

/-! ## Signed bodies -/

/-- The receipt of a body before it is signed. -/
def ReceiptBody.unsigned (P : Platform) (b : ReceiptBody) : Json :=
  orderReceiptFields (b.toJson.set (js "receipt_id") (.str (receiptIdOf P b.toJson)))

def signatureJson (signature : JsString) : Json := .obj [(js "alg", ed25519), (js "value", .str signature)]

/-- The receipt of a body with a signature. -/
def ReceiptBody.signed (P : Platform) (b : ReceiptBody) (signature : JsString) : Json :=
  orderReceiptFields ((b.unsigned P).set (js "signature") (signatureJson signature))

theorem requiredString_ok {value : Option Json} {name s : JsString} :
    requiredString value name = .ok s ↔ value = some (.str s) ∧ s ≠ [] := by
  unfold requiredString
  split
  · split
    · rename_i t h
      subst h
      simp
    · rename_i t h
      constructor
      · intro hok
        cases hok
        exact ⟨rfl, h⟩
      · rintro ⟨hs, -⟩
        rw [Json.str.inj (Option.some.inj hs)]
  · rename_i h
    exact iff_of_false (by simp) (fun hs => h s hs.1)

theorem normalizeReceiptSignature_ok {signature : JsString} {out : Json} :
    normalizeReceiptSignature (signatureJson signature) = .ok out ↔ signature ≠ [] ∧ out = signatureJson signature := by
  unfold normalizeReceiptSignature signatureJson
  simp only [Except.bind_eq_ok, requiredString_ok, Except.pure_eq_ok]
  constructor
  · rintro ⟨value, ⟨hv, hne⟩, rfl⟩
    simp at hv
    subst hv
    exact ⟨hne, by simp [orElse, ed25519]⟩
  · rintro ⟨hne, rfl⟩
    exact ⟨signature, ⟨by simp, hne⟩, by simp [orElse, ed25519]⟩

/-- **What `createReceipt` returns**, for options that bring no id and no signature. -/
theorem createReceipt_ok {time : ℤ} {options : Json} {privateKey : Option JsString} {r : Json}
    (hid : options.get (js "receipt_id") = none) (hid' : options.get (js "receiptId") = none)
    (hsig : options.get (js "signature") = none) :
    createReceipt P time options privateKey = .ok r ↔ ∃ body sk signature,
      receiptBody P time options privateKey = .ok body ∧ privateKey = some sk ∧
      P.sign sk ((body.unsigned P).canonicalize P.toNumberFormat) = .ok signature ∧ signature ≠ [] ∧
      r = body.signed P signature := by
  unfold createReceipt receiptSignature
  simp only [hid, hid', hsig, orElse, Option.getD_some]
  rw [Except.bind_eq_ok]
  constructor
  · rintro ⟨body, hbody, h⟩
    simp only [Except.bind_eq_ok, Except.pure_eq_ok] at h
    obtain ⟨signature, ⟨value, hvalue, rfl⟩, out, hout, rfl⟩ := h
    obtain ⟨hne, rfl⟩ := normalizeReceiptSignature_ok.1 hout
    cases privateKey with
    | none => cases hvalue
    | some sk => exact ⟨body, sk, value, hbody, rfl, hvalue, hne, rfl⟩
  · rintro ⟨body, sk, value, hbody, rfl, hvalue, hne, rfl⟩
    refine ⟨body, hbody, ?_⟩
    simp only [Except.bind_eq_ok, Except.pure_eq_ok]
    exact ⟨signatureJson value, ⟨value, hvalue, rfl⟩, signatureJson value,
      normalizeReceiptSignature_ok.2 ⟨hne, rfl⟩, rfl⟩

/-! ## What a signed receipt reads -/

section Signed

variable (b : ReceiptBody) (signature : JsString)

theorem get_unsigned (key : JsString) : (b.unsigned P).get key =
    if key ∈ receiptFields then
      if key = js "receipt_id" then some (.str (receiptIdOf P b.toJson)) else b.toJson.get key
    else none := by
  rw [ReceiptBody.unsigned, get_orderReceiptFields, get_set]

theorem get_signed (key : JsString) : (b.signed P signature).get key =
    if key = js "signature" then some (signatureJson signature) else (b.unsigned P).get key := by
  rw [ReceiptBody.signed, get_orderReceiptFields, get_set]
  split
  · rfl
  · rename_i h
    have hne : key ≠ js "signature" := fun he => h (by rw [he]; decide)
    rw [if_neg hne, get_unsigned, if_neg h]

theorem get_toJson_signature : b.toJson.get (js "signature") = none := by
  simp [ReceiptBody.toJson, get_obj_append]

theorem get_toJson_receipt_id : b.toJson.get (js "receipt_id") = none := by
  simp [ReceiptBody.toJson, get_obj_append]

/-- The receipt that the signature is made over is the one that it is checked against. -/
theorem unsignedReceipt_signed : unsignedReceipt (b.signed P signature) = b.unsigned P := by
  rw [unsignedReceipt, ReceiptBody.unsigned]
  refine orderReceiptFields_congr fun f hf => ?_
  rw [get_without, get_signed, get_unsigned, if_pos hf, get_set]
  split
  · rename_i hs
    subst hs
    rw [if_neg (by simp), get_toJson_signature]
  · rfl

/-- The id is derived from what it was derived from when it was issued. -/
theorem deriveReceiptId_signed : deriveReceiptId P (b.signed P signature) = receiptIdOf P b.toJson := by
  have hread : orderReceiptFields ((((b.signed P signature).without (js "receipt_id")).without (js "signature")).set
      (js "receipt_id") (.str [])) = orderReceiptFields (b.toJson.set (js "receipt_id") (.str [])) := by
    refine orderReceiptFields_congr fun f hf => ?_
    rw [get_set, get_set, get_without, get_without, get_signed, get_unsigned, if_pos hf]
    by_cases hid : f = js "receipt_id"
    · rw [if_pos hid, if_pos hid]
    · rw [if_neg hid, if_neg hid, if_neg hid, if_neg hid]
      split
      · rename_i hs
        rw [hs, get_toJson_signature]
      · rfl
  rw [deriveReceiptId, receiptIdOf, receiptIdOf, hread]

/-! ## A signed receipt verifies -/

/-- The hashes of a body are hashes. -/
structure ReceiptBody.Valid (b : ReceiptBody) : Prop where
  event_hash : isRoot b.event_hash = true
  active_set_root : isRoot b.active_set_root = true
  receipt_log_root : isRoot b.receipt_log_root = true
  previous : b.previous_receipt_hash = genesis ∨ isRoot b.previous_receipt_hash = true

theorem validateReceiptShape_signed : validateReceiptShape (b.signed P signature) = [] := by
  have hkeys : ∀ k ∈ (b.signed P signature).keys, k ∈ receiptFields := fun k hk =>
    (keys_orderReceiptFields _).subset hk
  have hplain : ∀ k ∈ receiptFields, k ∉ receiptPublicPlaintextKeys := by decide
  have hsig : (b.signed P signature).get (js "signature") = some (signatureJson signature) := by
    rw [get_signed, if_pos rfl]
  rw [validateReceiptShape, hsig, List.append_eq_nil_iff, List.flatMap_eq_nil_iff, List.flatMap_eq_nil_iff]
  constructor
  · intro k hk
    rw [if_pos (hkeys k hk), if_neg (hplain k (hkeys k hk))]
    rfl
  · intro k hk
    rw [if_pos]
    simpa [signatureJson, Json.keys, receiptSignatureFields] using hk

theorem rootTest_str {s : JsString} : rootTest P (some (.str s)) = isRoot s := rfl

/-- The fields of a body as a receipt reads them. -/
structure ReceiptBody.Reads (b : ReceiptBody) (r : Json) : Prop where
  schema : r.get (js "schema") = some (.str (js "enigma.receipt.v1"))
  event_hash : r.get (js "event_hash") = some (.str b.event_hash)
  operation : r.get (js "operation") = some (.str b.operation)
  tenant_id : r.get (js "tenant_id") = some (.str b.tenant_id)
  subject_id : r.get (js "subject_id") = some (.str b.subject_id)
  sequence : r.get (js "sequence") = some (.num b.sequence)
  previous_receipt_hash : r.get (js "previous_receipt_hash") = some (.str b.previous_receipt_hash)
  active_set_root : r.get (js "active_set_root") = some (.str b.active_set_root)
  receipt_log_root : r.get (js "receipt_log_root") = some (.str b.receipt_log_root)
  timestamp : r.get (js "timestamp") = some (.str b.timestamp)
  signer : r.get (js "signer") = some b.signer
  memory_addr : r.get (js "memory_addr") = b.memory_addr
  source_addr : r.get (js "source_addr") = b.source_addr
  provider : r.get (js "provider") = b.provider
  model : r.get (js "model") = b.model
  policy_id : r.get (js "policy_id") = b.policy_id

theorem signed_signature : (b.signed P signature).get (js "signature") = some (signatureJson signature) := by
  rw [get_signed, if_pos rfl]

theorem signed_receipt_id : (b.signed P signature).get (js "receipt_id") = some (.str (receiptIdOf P b.toJson)) := by
  rw [get_signed, if_neg (by simp), get_unsigned, if_pos (by decide), if_pos rfl]

theorem reads_signed : b.Reads (b.signed P signature) := by
  have hget : ∀ f, js f ∈ receiptFields → f ≠ "signature" → f ≠ "receipt_id" →
      (b.signed P signature).get (js f) = b.toJson.get (js f) := by
    intro f hf hs hi
    rw [get_signed, if_neg (by simpa using hs), get_unsigned, if_pos hf, if_neg (by simpa using hi)]
  constructor
  all_goals
    rw [hget _ (by decide) (by decide) (by decide)]
    simp [ReceiptBody.toJson, get_obj_append]

theorem errorIf_eq_nil {c : Bool} {m : String} : errorIf c m = [] ↔ c = false := by
  cases c <;> simp [errorIf]

/-- **An issued receipt verifies under the public key of its signing key.** -/
theorem verifyReceipt_signed {b : ReceiptBody} {signature pk sk : JsString} {o : VerifyOptions} (hb : b.Valid)
    (hsigner : malformed (some b.signer) (js "key_id") = false) (hne : signature ≠ [])
    (hkey : SigningKey P pk sk) (hsign : P.sign sk ((b.unsigned P).canonicalize P.toNumberFormat) = .ok signature)
    (ho : o.publicKey = some pk) (hexp : o.expectedSigner = none) : verifyReceipt P (b.signed P signature) o = [] := by
  have hr := reads_signed (P := P) b signature
  have hsig := signed_signature (P := P) b signature
  have hid := signed_receipt_id (P := P) b signature
  have hprev : isPreviousHash P (some (.str b.previous_receipt_hash)) = true := by
    rw [isPreviousHash, rootTest_str, Bool.or_eq_true]
    rcases hb.previous with h | h
    · exact Or.inl (by rw [h]; simp)
    · exact Or.inr h
  have hseq : (Json.natural? (some (.num b.sequence))).isNone = false := by simp [Json.natural?]
  have hvalue : malformed (some (signatureJson signature)) (js "value") = false := by
    simp [malformed, signatureJson, ed25519, Json.truthy, Json.isStr, hne]
  have hverify : signatureErrors P (b.signed P signature) o = [] := by
    have hok : verifySignature P (b.unsigned P) (some (signatureJson signature)) pk = true := by
      simp only [verifySignature, signatureJson]
      simp [hkey _ _ hsign]
    simp only [signatureErrors, resolvePublicKey, ho, unsignedReceipt_signed, hsig, hok]
    rfl
  have hplain : (b.signed P signature).isPlainRecord = true := rfl
  rw [verifyReceipt, hplain, hr.schema, hr.signer, hsig, hr.sequence, hr.event_hash, hr.active_set_root,
    hr.receipt_log_root, hr.previous_receipt_hash, hid, deriveReceiptId_signed, validateReceiptShape_signed, hexp,
    hverify, hsigner, hvalue, hseq, hprev, rootTest_str, rootTest_str, rootTest_str, hb.event_hash,
    hb.active_set_root, hb.receipt_log_root]
  simp [errorIf]

end Signed

end EnigmaMemory
