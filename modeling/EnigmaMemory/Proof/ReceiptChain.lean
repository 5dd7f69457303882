import EnigmaMemory.Lib.Result
import EnigmaMemory.Proof.Receipt

/-!
# Chains of receipts

`verifyReceiptChain` accepts exactly the lists of which every entry verifies, carries its
position as its sequence number and names the hash of its predecessor
(`chainErrors_eq_nil`, `embeddedErrors_eq_nil`).
-/

namespace EnigmaMemory

/-! ## What the loop accepts -/

variable {P : Platform}

/-- The hash that the receipt at a position has to name. -/
def previousAt (P : Platform) (first : Option JsString) (receipts : List Json) : ℕ → Option JsString
  | 0 => first
  | i + 1 => receipts[i]?.map (safeReceiptHash P)

/-- What the loop checks of the receipt `r` at position `i`. -/
structure EntryOk (P : Platform) (o : VerifyOptions) (i : ℕ) (previous : Option JsString) (r : Json) : Prop where
  verified : verifyReceipt P (o.receipt.getD r) o = []
  sequence : r.get (js "sequence") = some (.num (o.startSequence + i))
  previous : ∀ h, previous = some h → r.get (js "previous_receipt_hash") = some (.str h)

theorem entryErrors_eq_nil {o : VerifyOptions} {i : ℕ} {previous : Option JsString} {r : Json} :
    entryErrors P o i previous r = [] ↔ EntryOk P o i previous r := by
  unfold entryErrors
  rw [List.append_eq_nil_iff, List.append_eq_nil_iff, List.map_eq_nil_iff]
  constructor
  · rintro ⟨⟨hv, hs⟩, hp⟩
    refine ⟨hv, ?_, ?_⟩
    · split at hs
      · rename_i h; exact Json.isNum_iff.1 h
      · exact absurd hs (List.cons_ne_nil _ _)
    · rintro h rfl
      simp only at hp
      split at hp
      · rename_i hstr; exact Json.isStr_iff.1 hstr
      · exact absurd hp (List.cons_ne_nil _ _)
  · rintro ⟨hv, hs, hp⟩
    refine ⟨⟨hv, if_pos (Json.isNum_iff.2 hs)⟩, ?_⟩
    cases previous with
    | none => rfl
    | some h => exact if_pos (Json.isStr_iff.2 (hp h rfl))

/-- **The loop finds no error exactly when every entry is as it has to be.** -/
theorem chainErrors_eq_nil {o : VerifyOptions} (receipts : List Json) : ∀ (k : ℕ) (first : Option JsString),
    chainErrors P o k first receipts = [] ↔
      ∀ i r, receipts[i]? = some r → EntryOk P o (k + i) (previousAt P first receipts i) r := by
  induction receipts with
  | nil => intro k first; simp [chainErrors]
  | cons r rest ih =>
    intro k first
    rw [chainErrors, List.append_eq_nil_iff, entryErrors_eq_nil, ih]
    constructor
    · rintro ⟨h0, hrest⟩ i x hx
      cases i with
      | zero =>
        obtain rfl : r = x := Option.some.inj hx
        exact h0
      | succ i =>
        have h := hrest i x hx
        rw [show k + 1 + i = k + (i + 1) by omega] at h
        cases i with
        | zero => exact h
        | succ i => exact h
    · intro h
      refine ⟨h 0 r rfl, fun i x hx => ?_⟩
      have h' := h (i + 1) x hx
      rw [show k + (i + 1) = k + 1 + i by omega] at h'
      cases i with
      | zero => exact h'
      | succ i => exact h'

theorem embeddedErrors_eq_nil (receipts : List Json) : ∀ (k : ℕ) (before : MerkleSet),
    embeddedErrors P k before receipts = [] ↔ ∀ (i : ℕ) (r : Json), receipts[i]? = some r →
      r.get (js "receipt_log_root") = some (.str (MerkleSet.root (((receipts.take i).map (safeReceiptHash P)).foldl OrdSet.add before))) := by
  induction receipts with
  | nil => intro k before; simp [embeddedErrors]
  | cons r rest ih =>
    intro k before
    rw [embeddedErrors, List.append_eq_nil_iff, ih]
    constructor
    · rintro ⟨h0, hrest⟩ i x hx
      cases i with
      | zero =>
        obtain rfl : r = x := Option.some.inj hx
        split at h0
        · rename_i hstr; exact Json.isStr_iff.1 hstr
        · exact absurd h0 (List.cons_ne_nil _ _)
      | succ i => exact hrest i x hx
    · intro h
      exact ⟨if_pos (Json.isStr_iff.2 (h 0 r rfl)), fun i x hx => h (i + 1) x hx⟩

/-- What an accepted chain satisfies. -/
theorem chain_entries {receipts : List Json} {o : VerifyOptions} {res : ChainResult}
    (h : verifyReceiptChain P receipts o = .ok res) (hok : res.ok = true) :
    res.receipt_hashes = receipts.map (safeReceiptHash P) ∧
      ∀ i r, receipts[i]? = some r → EntryOk P o i (previousAt P (expectedPrevious o) receipts i) r := by
  unfold verifyReceiptChain at h
  obtain ⟨logErrors, -, h⟩ := Except.bind_eq_ok.1 h
  obtain ⟨startErrors, -, h⟩ := Except.bind_eq_ok.1 h
  obtain ⟨activeSetRoot, -, h⟩ := Except.bind_eq_ok.1 h
  obtain ⟨activeErrors, -, h⟩ := Except.bind_eq_ok.1 h
  have hres := Except.pure_eq_ok.1 h
  refine ⟨by rw [← hres], ?_⟩
  rw [ChainResult.ok, List.isEmpty_iff, ← hres] at hok
  simp only [List.append_eq_nil_iff] at hok
  have hc := (chainErrors_eq_nil receipts 0 (expectedPrevious o)).1 hok.1.1.1.1.1.2
  intro i r hr
  have := hc i r hr
  rwa [Nat.zero_add] at this

end EnigmaMemory
