import EnigmaMemory.Lib.Result
import EnigmaMemory.Proof.Receipt
import EnigmaMemory.Spec.VerifyPack

/-!
# What an accepted pack shows

`verifyContextPack` collects errors from three loops: over the addresses and the memories
for the state, over the receipts for their signatures, and over the addresses again for the
operations. `contextPackErrors_nil` says what it means that none of them finds anything, and
`verifyContextPack_valid` that a pack is accepted only then.
-/

namespace EnigmaMemory

open Json

variable {P : Platform} {args : VerifyPackArgs} {pack : Json}

/-! ## What the verifier reads -/

/-- The values that the checks run over. -/
structure PackReads (P : Platform) (args : VerifyPackArgs) (pack : Json)
    (tombstones addresses memories receipts : List Json) (options : VerifyOptions) : Prop where
  tombstones : suppliedTombstones args = .ok tombstones
  addresses : iterate (pack.get (js "memory_addresses")) = .ok addresses
  memories : iterate (pack.get (js "memories")) = .ok memories
  receipts : iterate (pack.get (js "receipts")) = .ok receipts
  options : trustedKeyOptions P args.options = some options

/-- An address that the supplied state calls active and not tombstoned. -/
def AliveIn (args : VerifyPackArgs) (tombstones : List Json) (addr : Json) : Prop :=
  hasValue (suppliedActive args) addr = true ∧ hasValue tombstones addr = false

/-- A receipt of an operation on a memory. -/
def Accounts (operation : String) (addr r : Json) : Prop :=
  (∃ a, r.get (js "memory_addr") = some a ∧ sameValue a addr = true) ∧
    r.get (js "operation") = some (.str (js operation))

/-- A receipt for each of the two accesses. -/
def Receipted (receipts : List Json) (addr : Json) : Prop :=
  ∀ operation ∈ ["retrieve", "inject"], ∃ r ∈ receipts, Accounts operation addr r

/-- A receipt that the loop over the receipts lets pass. -/
def Verified (P : Platform) (options : VerifyOptions) (r : Json) : Prop :=
  receiptHasPublicShape P r = true ∧ verifyReceipt P r options = []

theorem activityErrors_nil {tombstones : List Json} {addr : Json} :
    activityErrors P (suppliedActive args) tombstones addr = [] ↔ AliveIn args tombstones addr := by
  unfold activityErrors AliveIn
  cases hasValue tombstones addr <;> cases hasValue (suppliedActive args) addr <;> simp

theorem hasOperation_iff {receipts : List Json} {operation : String} {addr : Json} :
    hasOperation (receiptOperations receipts) operation addr = true ↔
      Json.truthy (some addr) = true ∧ ∃ r ∈ receipts, Accounts operation addr r := by
  simp only [hasOperation, receiptOperations, List.any_eq_true, List.mem_filterMap, Bool.and_eq_true, isStr_iff]
  constructor
  · rintro ⟨⟨a, op⟩, ⟨r, hr, hread⟩, hsame, hop⟩
    split at hread
    · rename_i htruthy
      obtain ⟨a', ha', hpair⟩ := Option.map_eq_some_iff.1 hread
      cases hpair
      obtain rfl := eq_of_sameValue hsame
      exact ⟨ha' ▸ htruthy, r, hr, ⟨_, ha', hsame⟩, hop⟩
    · cases hread
  · rintro ⟨htruthy, r, hr, ⟨a, ha, hsame⟩, hop⟩
    obtain rfl := eq_of_sameValue hsame
    exact ⟨(a, some (.str (js operation))), ⟨r, hr, by rw [ha, if_pos htruthy, hop]; rfl⟩, hsame, rfl⟩

theorem missingErrors_nil {receipts : List Json} {addr : Json} :
    missingErrors P (receiptOperations receipts) addr = [] ↔ Json.truthy (some addr) = true ∧ Receipted receipts addr := by
  have hsplit : missingErrors P (receiptOperations receipts) addr = [] ↔
      hasOperation (receiptOperations receipts) "retrieve" addr = true ∧
        hasOperation (receiptOperations receipts) "inject" addr = true := by
    unfold missingErrors
    cases hasOperation (receiptOperations receipts) "retrieve" addr <;>
      cases hasOperation (receiptOperations receipts) "inject" addr <;> simp
  rw [hsplit, hasOperation_iff, hasOperation_iff]
  simp only [Receipted, List.forall_mem_cons, List.not_mem_nil, false_implies, implies_true, and_true]
  tauto

theorem packReceiptErrors_nil {options : VerifyOptions} {r : Json} :
    packReceiptErrors P (some options) r = .ok [] ↔ Verified P options r := by
  unfold packReceiptErrors Verified verifyReceiptBestEffort
  simp only [Option.isNone_some, Bool.false_or]
  split
  · rename_i h
    rw [Bool.and_eq_true, List.isEmpty_iff] at h
    exact iff_of_true rfl h
  · rename_i h
    rw [Bool.and_eq_true, List.isEmpty_iff] at h
    refine iff_of_false ?_ h
    split <;> simp

/-! ## No errors -/

/-- The addresses that the first loop checks. -/
theorem mem_memoryAddressesFromPack {addresses memories all : List Json} {a : Json}
    (haddresses : iterate (pack.get (js "memory_addresses")) = .ok addresses)
    (hmemories : iterate (pack.get (js "memories")) = .ok memories) (hall : memoryAddressesFromPack pack = .ok all) :
    a ∈ all ↔ a ∈ addresses ∨ ∃ m ∈ memories, m.get (js "memory_addr") = some a ∧ Json.truthy (some a) = true := by
  rw [memoryAddressesFromPack, haddresses, hmemories] at hall
  cases Except.pure_eq_ok.1 hall
  rw [mem_distinctValues, List.mem_append, List.mem_filterMap]
  refine or_congr_right (exists_congr fun m => and_congr_right fun _ => ?_)
  constructor
  · intro h
    split at h
    · rename_i htruthy
      exact ⟨h, h ▸ htruthy⟩
    · cases h
  · rintro ⟨h, htruthy⟩
    rw [h, if_pos htruthy]

/-- **What it means that no loop finds an error.** -/
theorem contextPackErrors_nil {tombstones addresses memories receipts : List Json} {options : VerifyOptions}
    (h : PackReads P args pack tombstones addresses memories receipts options) :
    contextPackErrors P args pack = .ok [] ↔
      (∀ a ∈ addresses, AliveIn args tombstones a ∧ Json.truthy (some a) = true ∧ Receipted receipts a) ∧
      (∀ m ∈ memories, ∀ a, m.get (js "memory_addr") = some a → Json.truthy (some a) = true → AliveIn args tombstones a) ∧
      ∀ r ∈ receipts, Verified P options r := by
  obtain ⟨all, hall⟩ : ∃ all, memoryAddressesFromPack pack = .ok all := by
    rw [memoryAddressesFromPack, h.addresses, h.memories]
    exact ⟨_, rfl⟩
  have hmem := fun a => mem_memoryAddressesFromPack (a := a) h.addresses h.memories hall
  -- the receipts are checked one by one, and the lists of errors joined
  have hreceipts : (∃ errors, receipts.mapM (packReceiptErrors P (some options)) = .ok errors ∧ errors.flatten = []) ↔
      ∀ r ∈ receipts, Verified P options r := by
    rw [Except.mapM_flatten_eq_nil]
    exact forall₂_congr fun r _ => packReceiptErrors_nil
  have herrors : contextPackErrors P args pack = .ok [] ↔
      (∀ a ∈ all, AliveIn args tombstones a) ∧
      (∃ errors, receipts.mapM (packReceiptErrors P (some options)) = .ok errors ∧ errors.flatten = []) ∧
      ∀ a ∈ addresses, Json.truthy (some a) = true ∧ Receipted receipts a := by
    rw [contextPackErrors, h.tombstones, h.options, hall, h.receipts, h.addresses]
    change (receipts.mapM (packReceiptErrors P (some options)) >>= fun receiptErrors => _) = _ ↔ _
    rw [Except.bind_eq_ok]
    simp only [Option.isNone_some, Bool.false_eq_true, if_false, List.nil_append]
    constructor
    · rintro ⟨errors, hmap, hnil⟩
      have hnil := Except.pure_eq_ok.1 hnil
      rw [List.append_eq_nil_iff, List.append_eq_nil_iff, List.flatMap_eq_nil_iff, List.flatMap_eq_nil_iff] at hnil
      exact ⟨fun a ha => activityErrors_nil.1 (hnil.1.1 a ha), ⟨errors, hmap, hnil.1.2⟩,
        fun a ha => missingErrors_nil.1 (hnil.2 a ha)⟩
    · rintro ⟨halive, ⟨errors, hmap, hflat⟩, hlisted⟩
      refine ⟨errors, hmap, Except.pure_eq_ok.2 ?_⟩
      rw [List.append_eq_nil_iff, List.append_eq_nil_iff, List.flatMap_eq_nil_iff, List.flatMap_eq_nil_iff]
      exact ⟨⟨fun a ha => activityErrors_nil.2 (halive a ha), hflat⟩, fun a ha => missingErrors_nil.2 (hlisted a ha)⟩
  rw [herrors, hreceipts]
  constructor
  · rintro ⟨halive, hverified, hlisted⟩
    refine ⟨fun a ha => ⟨halive a ((hmem a).2 (Or.inl ha)), hlisted a ha⟩, fun m hm a ha htruthy => ?_, hverified⟩
    exact halive a ((hmem a).2 (Or.inr ⟨m, hm, ha, htruthy⟩))
  · rintro ⟨haddresses, hmemories, hverified⟩
    refine ⟨fun a ha => ?_, hverified, fun a ha => (haddresses a ha).2⟩
    rcases (hmem a).1 ha with ha | ⟨m, hm, hget, htruthy⟩
    · exact (haddresses a ha).1
    · exact hmemories m hm a hget htruthy

/-! ## Accepted packs -/

/-- The verdict repeats whether there were errors. -/
theorem packVerdict_valid {errors : List JsString} {r : PackVerdict} (h : packVerdict P pack errors = .ok r) :
    r.valid = errors.isEmpty := by
  unfold packVerdict at h
  simp only [Except.bind_eq_ok] at h
  obtain ⟨publicPack, -, addresses, -, h⟩ := h
  cases Except.pure_eq_ok.1 h
  rfl

/-- A pack is accepted when no check finds an error. -/
theorem verifyContextPack_valid {r : PackVerdict} (hpack : packOf args = some pack) (h : verifyContextPack P args = .ok r)
    (hvalid : r.valid = true) : contextPackErrors P args pack = .ok [] := by
  unfold verifyContextPack at h
  simp only [hpack] at h
  split at h
  · cases h
  obtain ⟨errors, herrors, h⟩ := Except.bind_eq_ok.1 h
  have hempty : errors.isEmpty = true := by
    split at h
    · exact (packVerdict_valid h).symm.trans hvalid
    · split at h
      · assumption
      · cases h
  rwa [List.isEmpty_iff.1 hempty] at herrors

theorem packReads_of_nil (h : contextPackErrors P args pack = .ok []) :
    ∃ tombstones addresses memories receipts options,
      PackReads P args pack tombstones addresses memories receipts options := by
  unfold contextPackErrors at h
  simp only [Except.bind_eq_ok] at h
  obtain ⟨tombstones, htombstones, all, hall, receipts, hreceipts, errors, -, addresses, haddresses, h⟩ := h
  simp only [memoryAddressesFromPack, Except.bind_eq_ok] at hall
  obtain ⟨_, -, memories, hmemories, -⟩ := hall
  obtain ⟨options, hoptions⟩ : ∃ options, trustedKeyOptions P args.options = some options := by
    cases ho : trustedKeyOptions P args.options with
    | some options => exact ⟨options, rfl⟩
    | none => simp [ho, pure, Except.pure] at h
  exact ⟨tombstones, addresses, memories, receipts, options, htombstones, haddresses, hmemories, hreceipts, hoptions⟩

/-! ## With a trusted key -/

/-- The first letter of an error text: `m` for a memory or a missing receipt, `r` for a receipt. -/
def LowerHead (e : JsString) : Prop := e.head? = some 109 ∨ e.head? = some 114

theorem not_lowerHead : ¬ LowerHead publicKeyRequired := by
  unfold LowerHead
  decide

theorem lowerHead_append {s : JsString} (h : LowerHead s) (t : JsString) : LowerHead (s ++ t) := by
  cases s with
  | nil => rcases h with h | h <;> cases h
  | cons c s => exact h

theorem lowerHead_activity {active tombstones : List Json} {addr : Json} {e : JsString}
    (h : e ∈ activityErrors P active tombstones addr) : LowerHead e := by
  unfold activityErrors at h
  rcases List.mem_append.1 h with h | h
  · split at h
    · obtain rfl := List.mem_singleton.1 h
      exact lowerHead_append (Or.inl (by decide)) _
    · cases h
  · split at h
    · cases h
    · obtain rfl := List.mem_singleton.1 h
      exact lowerHead_append (Or.inl (by decide)) _

theorem lowerHead_missing {operations : List (Json × Option Json)} {addr : Json} {e : JsString}
    (h : e ∈ missingErrors P operations addr) : LowerHead e := by
  unfold missingErrors at h
  rcases List.mem_append.1 h with h | h
  all_goals
    split at h
    · cases h
    · obtain rfl := List.mem_singleton.1 h
      exact lowerHead_append (Or.inl (by decide)) _

theorem lowerHead_receipt {options : Option VerifyOptions} {r : Json} {es : List JsString} {e : JsString}
    (h : packReceiptErrors P options r = .ok es) (he : e ∈ es) : LowerHead e := by
  unfold packReceiptErrors at h
  split at h
  · cases h
    cases he
  · split at h
    · cases h
    · cases h
      obtain rfl := List.mem_singleton.1 he
      exact lowerHead_append (Or.inr (by decide)) _

/-- With a trusted key no error text is the one for a missing key. -/
theorem publicKeyRequired_not_mem {options : VerifyOptions} {errors : List JsString}
    (ho : trustedKeyOptions P args.options = some options) (h : contextPackErrors P args pack = .ok errors) :
    publicKeyRequired ∉ errors := by
  unfold contextPackErrors at h
  simp only [Except.bind_eq_ok, ho] at h
  obtain ⟨tombstones, -, all, -, receipts, -, receiptErrors, hmap, addresses, -, h⟩ := h
  cases Except.pure_eq_ok.1 h
  intro hmem
  simp only [Option.isNone_some, Bool.false_eq_true, if_false, List.nil_append, List.mem_append, List.mem_flatMap] at hmem
  rcases hmem with (⟨a, -, ha⟩ | hr) | ⟨a, -, ha⟩
  · exact not_lowerHead (lowerHead_activity ha)
  · obtain ⟨r, -, es, hes, he⟩ := Except.mem_flatten_of_mapM _ _ hmap hr
    exact not_lowerHead (lowerHead_receipt hes he)
  · exact not_lowerHead (lowerHead_missing ha)

/-- **The verdict with a trusted key**: the pack is valid, or the call throws. -/
theorem verifyContextPack_trusted {options : VerifyOptions} (hpack : packOf args = some pack)
    (ho : trustedKeyOptions P args.options = some options) :
    (∀ r, verifyContextPack P args = .ok r → r.valid = true) ∧
      (pack.get (js "schema") = some (.str contextPackSchema) → (∃ r, packVerdict P pack [] = .ok r) →
        contextPackErrors P args pack = .ok [] → ∃ r, verifyContextPack P args = .ok r) := by
  constructor
  · intro r h
    unfold verifyContextPack at h
    simp only [hpack] at h
    split at h
    · cases h
    obtain ⟨errors, herrors, h⟩ := Except.bind_eq_ok.1 h
    rw [if_neg (publicKeyRequired_not_mem ho herrors)] at h
    split at h
    · rename_i hempty
      exact (packVerdict_valid h).trans hempty
    · cases h
  · rintro hschema ⟨r, hr⟩ hnil
    refine ⟨r, ?_⟩
    unfold verifyContextPack
    simp only [hpack, hschema, hnil, isStr_iff.2, Bool.not_true, Bool.false_eq_true, if_false]
    exact hr

end EnigmaMemory
