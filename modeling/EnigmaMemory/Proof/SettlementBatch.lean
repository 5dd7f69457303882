import EnigmaMemory.Proof.Settlement
import EnigmaMemory.Spec.SettlementBatch

/-!
# What a batch adds up

The amounts of a batch are those of the receipts as they are listed: a receipt that is listed twice counts twice.
The operators' totals are groups of the same list, so they add up to the total.

* `batch_totals`: the totals of a batch, for receipts whose amounts are numbers.
-/

namespace EnigmaMemory

namespace Settlement

open Json

variable {P : Platform} {input : Json} {batch : SettlementBatch}

/-! ## Sums of numbers -/

/-- The settled amount, of a receipt that has one. -/
def amountOf (receipt : Json) : ℚ :=
  match settledAmount receipt with
  | some (.num q) => q
  | _ => 0

/-- The receipt has a number as its amount. -/
def HasAmount (receipt : Json) : Prop := settledAmount receipt = some (.num (amountOf receipt))

/-- Numbers are added up exactly. -/
theorem sumUp_exact (F : NumberFormat) (receipts : List Json) (h : ∀ r ∈ receipts, HasAmount r) : ∀ q : ℚ,
    (receipts.map settledAmount).foldl (Total.plus F .finite) (.number (.finite q)) =
      .number (.finite (q + (receipts.map amountOf).sum)) := by
  induction receipts with
  | nil => exact fun q => by simp
  | cons r receipts ih =>
    intro q
    obtain ⟨hr, hrest⟩ := List.forall_mem_cons.1 h
    have hplus : Total.plus F .finite (.number (.finite q)) (settledAmount r) = .number (.finite (q + amountOf r)) := by
      rw [hr]
      rfl
    rw [List.map_cons, List.foldl_cons, hplus, ih hrest, List.map_cons, List.sum_cons, add_assoc]

/-! ## Operators -/

/-- The operator of a receipt. -/
def operatorOf (receipt : Json) : MapKey := mapKey 0 (receipt.get (js "operator_id"))

def OperatorTotal.key (entry : OperatorTotal) : MapKey := mapKey 0 entry.operator_id

theorem mapKey_zero {i j : ℕ} {v w : Option Json} (h : mapKey i v = mapKey j w) : mapKey 0 v = mapKey 0 w := by
  rcases v with _ | v <;> rcases w with _ | w
  · rfl
  · cases w <;> simp_all [mapKey]
  · cases v <;> simp_all [mapKey]
  · cases v <;> cases w <;> simp_all [mapKey]

/-- The entry of the receipts with a key. -/
theorem entry_eq (receipts : List (Json × ℕ)) (entry : OperatorTotal) :
    receipts.foldl (fun (entry : OperatorTotal) receipt =>
      { entry with amount := entry.amount.plus P.toNumberFormat .finite (settledAmount receipt.1) }) entry =
    { entry with amount := ((receipts.map Prod.fst).map settledAmount).foldl (Total.plus P.toNumberFormat .finite) entry.amount } := by
  induction receipts generalizing entry with
  | nil => rfl
  | cons r receipts ih => rw [List.foldl_cons, ih, List.map_cons, List.map_cons, List.foldl_cons]

/-- The first receipt of each operator, with its index. -/
def firstReceipts (receipts : List Json) : List (Json × ℕ) := Grouping.firsts operatorKey receipts.zipIdx

/-- The receipts of an operator. -/
def receiptsOf (receipts : List Json) (first : Json × ℕ) : List Json :=
  (Grouping.withKey operatorKey receipts.zipIdx (operatorKey first)).map Prod.fst

theorem receiptsOf_subset {receipts : List Json} {first : Json × ℕ} : ∀ r ∈ receiptsOf receipts first, r ∈ receipts := by
  intro r hr
  obtain ⟨x, hx, rfl⟩ := List.mem_map.1 hr
  exact List.fst_mem_of_mem_zipIdx (List.mem_filter.1 hx).1

/-- **The operators' totals**, one for each first receipt. -/
theorem operatorTotals_eq {receipts : List Json} (h : ∀ r ∈ receipts, HasAmount r) :
    operatorTotals P .finite receipts = (firstReceipts receipts).map fun first =>
      ⟨first.1.get (js "operator_id"), .number (.finite ((receiptsOf receipts first).map amountOf).sum)⟩ := by
  rw [operatorTotals, Grouping.groups_eq, List.map_map]
  refine List.map_congr_left fun first _ => ?_
  have hamounts := sumUp_exact P.toNumberFormat (receiptsOf receipts first) (fun r hr => h r (receiptsOf_subset r hr)) 0
  rw [zero_add] at hamounts
  simp only [Function.comp_apply, entry_eq]
  exact congrArg (OperatorTotal.mk _) hamounts

/-- The operators' totals add up to the total. -/
theorem sum_receiptsOf (receipts : List Json) :
    ((firstReceipts receipts).map fun first => ((receiptsOf receipts first).map amountOf).sum).sum = (receipts.map amountOf).sum := by
  have hsum := Grouping.sum_groups operatorKey (fun r => amountOf r.1) receipts.zipIdx
  have hfst : receipts.zipIdx.map (fun r => amountOf r.1) = receipts.map amountOf := by
    rw [show (fun r : Json × ℕ => amountOf r.1) = amountOf ∘ Prod.fst from rfl, ← List.map_map, List.zipIdx_map_fst]
  rw [hfst] at hsum
  rw [← hsum]
  simp only [firstReceipts, receiptsOf, List.map_map]
  rfl

/-! ## Telling operators apart -/

/-- What has been sorted: at most one entry, or entries of operators with names. -/
def Sortable (entries : List OperatorTotal) : Prop := entries.length ≤ 1 ∨ entries.all OperatorTotal.isText = true

theorem sortOperators_ok {entries sorted : List OperatorTotal} (h : sortOperators P entries = .ok sorted) :
    sorted.Perm entries ∧ Sortable entries := by
  unfold sortOperators at h
  split at h
  · rename_i hsortable
    cases h
    exact ⟨List.perm_insertionSort _ _, hsortable⟩
  · cases h

theorem mapKey_str {i : ℕ} {v : Option Json} {s : JsString} : mapKey i v = .str s ↔ v = some (.str s) := by
  rcases v with _ | v
  · simp [mapKey]
  · cases v <;> simp [mapKey]

/-- The keys of the operators are those of the entries. -/
theorem operatorKey_iff {receipts : List Json} (h : ∀ r ∈ receipts, HasAmount r)
    (hsortable : Sortable (operatorTotals P .finite receipts)) {x y : Json × ℕ} (hx : x ∈ receipts.zipIdx)
    (hy : y ∈ receipts.zipIdx) : operatorKey x = operatorKey y ↔ operatorOf x.1 = operatorOf y.1 := by
  refine ⟨mapKey_zero, fun hsame => ?_⟩
  have hfirst : ∀ z ∈ receipts.zipIdx, ∃ first ∈ firstReceipts receipts, operatorKey first = operatorKey z := by
    intro z hz
    exact List.mem_map.1 ((Grouping.mem_keys_firsts operatorKey _ _).2 (List.mem_map_of_mem hz))
  rw [Sortable, operatorTotals_eq h, List.length_map] at hsortable
  rcases hsortable with hlength | htext
  · obtain ⟨first, hmem, hkey⟩ := hfirst x hx
    obtain ⟨other, hmem', hkey'⟩ := hfirst y hy
    have hone : first = other := by
      match hlist : firstReceipts receipts, hlength with
      | [], _ => rw [hlist] at hmem; exact absurd hmem List.not_mem_nil
      | [a], _ =>
        rw [hlist, List.mem_singleton] at hmem hmem'
        rw [hmem, hmem']
    rw [← hkey, ← hkey', hone]
  · -- the operators of both receipts have names
    have hname : ∀ z ∈ receipts.zipIdx, ∃ s, z.1.get (js "operator_id") = some (.str s) := by
      intro z hz
      obtain ⟨first, hmem, hkey⟩ := hfirst z hz
      have hentry := List.all_eq_true.1 htext _ (List.mem_map_of_mem hmem)
      obtain ⟨s, hs⟩ : ∃ s, first.1.get (js "operator_id") = some (.str s) := by
        unfold OperatorTotal.isText at hentry
        split at hentry
        · rename_i s hs
          exact ⟨s, hs⟩
        · cases hentry
      refine ⟨s, mapKey_str.1 (hkey.symm.trans ?_)⟩
      rw [operatorKey, hs]
      rfl
    obtain ⟨s, hs⟩ := hname x hx
    obtain ⟨t, ht⟩ := hname y hy
    rw [operatorOf, operatorOf, hs, ht] at hsame
    rw [operatorKey, operatorKey, hs, ht]
    exact hsame

/-- The amount of an entry, as a number. -/
def OperatorTotal.value (entry : OperatorTotal) : ℚ :=
  match entry.amount with
  | .number (.finite q) => q
  | _ => 0

/-- **One entry for each operator**, with the amounts of its receipts. -/
structure Totalled (receipts : List Json) (entries : List OperatorTotal) : Prop where
  nodup : (entries.map OperatorTotal.key).Nodup
  keys : ∀ k, k ∈ entries.map OperatorTotal.key ↔ k ∈ receipts.map operatorOf
  amount : ∀ entry ∈ entries, entry.amount =
    .number (.finite ((receipts.filter fun r => operatorOf r = entry.key).map amountOf).sum)
  sum : (entries.map OperatorTotal.value).sum = (receipts.map amountOf).sum

theorem Totalled.perm {receipts : List Json} {entries sorted : List OperatorTotal} (h : Totalled receipts entries)
    (hperm : sorted.Perm entries) : Totalled receipts sorted where
  nodup := (hperm.map _).nodup_iff.2 h.nodup
  keys k := (hperm.map _).mem_iff.trans (h.keys k)
  amount entry hentry := h.amount entry (hperm.mem_iff.1 hentry)
  sum := (hperm.map _).sum_eq.trans h.sum

theorem receiptsOf_eq {receipts : List Json} (h : ∀ r ∈ receipts, HasAmount r)
    (hsortable : Sortable (operatorTotals P .finite receipts)) {first : Json × ℕ} (hfirst : first ∈ receipts.zipIdx) :
    receiptsOf receipts first = receipts.filter fun r => operatorOf r = operatorOf first.1 := by
  have hkeys : Grouping.withKey operatorKey receipts.zipIdx (operatorKey first) =
      receipts.zipIdx.filter ((fun r => decide (operatorOf r = operatorOf first.1)) ∘ Prod.fst) :=
    List.filter_congr fun x hx => decide_eq_decide.2 (operatorKey_iff h hsortable hx hfirst)
  rw [receiptsOf, hkeys, ← List.filter_map, List.zipIdx_map_fst]

theorem operatorTotals_totalled {receipts : List Json} (h : ∀ r ∈ receipts, HasAmount r)
    (hsortable : Sortable (operatorTotals P .finite receipts)) : Totalled receipts (operatorTotals P .finite receipts) := by
  have hsub : ∀ first ∈ firstReceipts receipts, first ∈ receipts.zipIdx :=
    fun first hfirst => (Grouping.firsts_sublist operatorKey receipts.zipIdx).subset hfirst
  have hkeys : (operatorTotals P .finite receipts).map OperatorTotal.key =
      (firstReceipts receipts).map fun first => operatorOf first.1 := by
    rw [operatorTotals_eq h, List.map_map]
    rfl
  refine ⟨?_, fun k => ?_, ?_, ?_⟩
  · rw [hkeys]
    refine List.Nodup.map_on (fun x hx y hy he => ?_) (List.Nodup.of_map _ (Grouping.nodup_firsts operatorKey receipts.zipIdx))
    exact List.inj_on_of_nodup_map (Grouping.nodup_firsts operatorKey receipts.zipIdx) hx hy
      ((operatorKey_iff h hsortable (hsub x hx) (hsub y hy)).2 he)
  · rw [hkeys, List.mem_map, List.mem_map]
    constructor
    · rintro ⟨first, hfirst, rfl⟩
      exact ⟨first.1, List.fst_mem_of_mem_zipIdx (hsub first hfirst), rfl⟩
    · rintro ⟨r, hr, rfl⟩
      obtain ⟨i, hi⟩ := List.getElem?_of_mem hr
      have hmem : (r, i) ∈ receipts.zipIdx := List.mk_mem_zipIdx_iff_getElem?.2 hi
      obtain ⟨first, hfirst, hkey⟩ := List.mem_map.1
        ((Grouping.mem_keys_firsts operatorKey _ _).2 (List.mem_map_of_mem (f := operatorKey) hmem))
      exact ⟨first, hfirst, mapKey_zero hkey⟩
  · intro entry hentry
    rw [operatorTotals_eq h, List.mem_map] at hentry
    obtain ⟨first, hfirst, rfl⟩ := hentry
    rw [receiptsOf_eq h hsortable (hsub first hfirst)]
    rfl
  · rw [operatorTotals_eq h, List.map_map, ← sum_receiptsOf]
    rfl

/-! ## The totals of a batch -/

/-- The receipts that are listed, each once. -/
def distinctReceipts (receipts : List Json) : List Json :=
  Grouping.firsts (fun r => mapKey 0 (r.get (js "settlement_receipt_hash"))) receipts

theorem createSettlementBatch_ok (h : createSettlementBatch P .finite input = .ok batch) :
    batch.total_settled_amount = Total.sumUp P.toNumberFormat .finite ((batchReceipts input).map settledAmount) ∧
      sortOperators P (operatorTotals P .finite (batchReceipts input)) = .ok batch.operator_totals := by
  simp only [createSettlementBatch, Except.bind_eq_ok] at h
  obtain ⟨-, -, -, -, -, -, assetName, -, -, -, generatedAt, -, batchRef, -, sorted, hsorted, -, -, h⟩ := h
  cases Except.pure_eq_ok.1 h
  exact ⟨rfl, hsorted⟩

theorem distinctReceipts_eq {receipts : List Json}
    (h : (receipts.map fun r => mapKey 0 (r.get (js "settlement_receipt_hash"))).Nodup) : distinctReceipts receipts = receipts :=
  Grouping.firsts_of_nodup _ h

/-- **What a batch adds up**: the amounts of all the receipts that are listed, in total and for each operator. -/
theorem batch_totals (P : Platform) (input : Json) (batch : SettlementBatch)
    (h : createSettlementBatch P .finite input = .ok batch)
    (hamounts : ∀ r ∈ batchReceipts input, ∃ q, settledAmount r = some (.num q)) :
    batch.total_settled_amount = .number (.finite ((batchReceipts input).map amountOf).sum) ∧
      Totalled (batchReceipts input) batch.operator_totals ∧
      (((batchReceipts input).map fun r => mapKey 0 (r.get (js "settlement_receipt_hash"))).Nodup →
        batch.total_settled_amount = .number (.finite ((distinctReceipts (batchReceipts input)).map amountOf).sum)) := by
  have hnumbers : ∀ r ∈ batchReceipts input, HasAmount r := by
    intro r hr
    obtain ⟨q, hq⟩ := hamounts r hr
    rw [HasAmount, amountOf, hq]
  obtain ⟨htotal, hsorted⟩ := createSettlementBatch_ok h
  obtain ⟨hperm, hsortable⟩ := sortOperators_ok hsorted
  have hsum := sumUp_exact P.toNumberFormat (batchReceipts input) hnumbers 0
  rw [zero_add] at hsum
  refine ⟨htotal.trans hsum, (operatorTotals_totalled hnumbers hsortable).perm hperm, fun hdistinct => ?_⟩
  rw [distinctReceipts_eq hdistinct]
  exact htotal.trans hsum

/-! ## A receipt that is listed twice -/

/-- The scan of an object, under the names of its fields. -/
theorem assertFields_at (fs : List (JsString × Json)) (path : JsString) (hkeys : ∀ f ∈ fs, quietKey f.1 = true)
    (h : ∀ f ∈ fs, assertNoSensitivePayload P f.2 (keyPath path f.1) = .ok ()) : assertFields P fs path = .ok () := by
  induction fs with
  | nil => rfl
  | cons f fs ih =>
    obtain ⟨key, child⟩ := f
    have hkey := hkeys (key, child) List.mem_cons_self
    rw [quietKey, Bool.not_eq_true'] at hkey
    rw [assertFields, hkey, h (key, child) List.mem_cons_self]
    exact ih (fun g hg => hkeys g (List.mem_cons_of_mem _ hg)) fun g hg => h g (List.mem_cons_of_mem _ hg)

def twiceReceipts : List Json := [sampleReceipt reference "operator-a", sampleReceipt reference "operator-a"]

def twiceInput : Json := .obj [(js "receipts", .arr twiceReceipts), (js "batch_ref", .str (js "batch-1"))]

theorem twice_numbers : ∀ r ∈ twiceReceipts, HasAmount r := by
  simp only [twiceReceipts, List.forall_mem_cons, List.not_mem_nil, false_implies, implies_true, and_true]
  exact ⟨rfl, rfl⟩

theorem twice_sorted : ∃ sorted, sortOperators reference (operatorTotals reference .finite twiceReceipts) = .ok sorted := by
  have htext : (operatorTotals reference .finite twiceReceipts).all OperatorTotal.isText = true := by
    rw [operatorTotals_eq twice_numbers, List.all_map, List.all_eq_true]
    intro first hfirst
    have hmem := List.fst_mem_of_mem_zipIdx ((Grouping.firsts_sublist operatorKey _).subset hfirst)
    rw [twiceReceipts, List.mem_cons, List.mem_singleton, or_self] at hmem
    rw [Function.comp_apply, OperatorTotal.isText, hmem]
    rfl
  unfold sortOperators
  rw [if_pos (Or.inr htext)]
  exact ⟨_, rfl⟩

/-- Texts of the package are not scanned where it puts them. -/
theorem statement_passes {text path : JsString} (h : regexTest statementPathRe path = true) :
    assertNoSensitivePayload P (.str text) path = .ok () := by
  rw [assertNoSensitivePayload, h]
  rfl

theorem thesis_passes : assertNoSensitivePayload P (.str productThesis) (js "batch.product_thesis") = .ok () :=
  statement_passes (by decide +kernel)

theorem boundary_passes : assertNoSensitivePayload reference claimBoundary (js "batch.claim_boundary") = .ok () := by
  have hpaths : (List.range 3).all (fun i => regexTest statementPathRe
      (indexPath reference.toNumberFormat (js "batch.claim_boundary") i)) = true := by decide +kernel
  have hpath := fun i hi => List.all_eq_true.1 hpaths i (List.mem_range.2 hi)
  rw [claimBoundary, assertNoSensitivePayload, assertItems, assertItems, assertItems, assertItems,
    statement_passes (hpath 0 (by decide)), statement_passes (hpath 1 (by decide)), statement_passes (hpath 2 (by decide))]
  rfl

/-- A batch of quiet parts passes the scan. -/
theorem scan_batch {b : SettlementBatch} (hdate : b.generated_at = epoch reference) (href : quietString b.batch_ref = true)
    (hasset : quietString b.asset = true) (hhashes : ∀ hash ∈ b.receipt_hashes, Quiet (hash.getD .null))
    (htotal : Quiet b.total_settled_amount.toJson) (htotals : ∀ entry ∈ b.operator_totals, Quiet (entry.toJson b.asset)) :
    assertNoSensitivePayload reference (b.toJson reference) (js "batch") = .ok () := by
  let fields := b.body.fields ++ [(js "batch_id", Json.str (idFrom reference "batch_" b.body)),
    (js "batch_hash", Json.str (digest reference b.body))]
  have hfields : b.toJson reference = .obj fields := by
    simp only [fields, SettlementBatch.toJson, SettlementBatch.body, hdate]
    rfl
  have hnames : [js "schema", js "product_thesis", js "generated_at", js "batch_ref", js "asset", js "receipt_count",
      js "receipt_hashes", js "total_settled_amount", js "operator_totals", js "claim_boundary", js "batch_id",
      js "batch_hash"].all quietKey = true := by decide +kernel
  have hkeys : fields.map Prod.fst = [js "schema", js "product_thesis", js "generated_at", js "batch_ref", js "asset",
      js "receipt_count", js "receipt_hashes", js "total_settled_amount", js "operator_totals", js "claim_boundary",
      js "batch_id", js "batch_hash"] := by
    simp only [fields, SettlementBatch.body, hdate]
    rfl
  have harr : ∀ {xs : List Json}, (∀ x ∈ xs, Quiet x) → ∀ path, assertNoSensitivePayload reference (.arr xs) path = .ok () :=
    fun hxs => (Quiet.arr hxs).assert
  rw [hfields, assertNoSensitivePayload]
  refine assertFields_at _ _ (fun f hf => List.all_eq_true.1 hnames _ (hkeys ▸ List.mem_map_of_mem hf)) ?_
  rw [← List.forall_iff_forall_mem]
  simp only [fields, SettlementBatch.body, hdate]
  refine ⟨(Quiet.str (by decide)).assert _, thesis_passes, (Quiet.str (by decide)).assert _, (Quiet.str href).assert _,
    (Quiet.str hasset).assert _, (Quiet.num _).assert _, harr ?_ _, htotal.assert _, harr ?_ _, boundary_passes,
    (quiet_idFrom (by decide) _).assert _, (quiet_digest _).assert _⟩
  · intro x hx
    obtain ⟨hash, hhash, rfl⟩ := List.mem_map.1 hx
    exact hhashes hash hhash
  · intro x hx
    obtain ⟨entry, hentry, rfl⟩ := List.mem_map.1 hx
    exact htotals entry hentry

/-- The batch of the receipt and itself. -/
def twiceBatch (sorted : List OperatorTotal) : SettlementBatch where
  generated_at := epoch reference
  batch_ref := js "batch-1"
  asset := js "USDC"
  receipt_count := 2
  receipt_hashes := twiceReceipts.map (·.get (js "settlement_receipt_hash"))
  total_settled_amount := Total.sumUp reference.toNumberFormat .finite (twiceReceipts.map settledAmount)
  operator_totals := sorted

theorem twice_batched : ∃ batch, createSettlementBatch reference .finite twiceInput = .ok batch := by
  have hreceipt : Quiet (sampleReceipt reference "operator-a") := quiet_sampleReceipt (by decide)
  have hnames : [js "receipts", js "batch_ref"].all quietKey = true := by decide
  have hquiet : Quiet twiceInput := by
    refine quiet_obj hnames rfl ⟨.arr ?_, .str (by decide)⟩
    simp only [twiceReceipts, List.forall_mem_cons, List.not_mem_nil, false_implies, implies_true, and_true]
    exact ⟨hreceipt, hreceipt⟩
  have hcheck : ∀ index, checkReceipt reference (js "USDC") (sampleReceipt reference "operator-a") index = .ok () := by
    intro index
    unfold checkReceipt
    rw [hreceipt.assert]
    rfl
  obtain ⟨sorted, hsorted⟩ := twice_sorted
  have hasset : asset (orElse (twiceInput.get (js "asset")) (path twiceReceipts.head? ["settled_price", "asset"])) "asset" =
      .ok (js "USDC") := rfl
  have hdate : isoTimestamp reference (option twiceInput "generated_at" "generatedAt") "generated_at" (epoch reference) =
      .ok (epoch reference) := rfl
  have href : requiredString (option twiceInput "batch_ref" "batchRef") "batch_ref" = .ok (js "batch-1") := rfl
  have hchecks : checkReceipts reference (js "USDC") twiceReceipts 0 = .ok () := by
    simp only [twiceReceipts, checkReceipts, hcheck, Except.ok_bind]
  have hbatchRef : quietString (js "batch-1") = true := by decide
  have hname : quietString (js "USDC") = true := by decide
  refine ⟨twiceBatch sorted, ?_⟩
  simp only [createSettlementBatch, Except.bind_eq_ok]
  refine ⟨(), rfl, (), hquiet.assert _, (), rfl, _, hasset, (), hchecks, _, hdate, _, href, _, hsorted, (),
    scan_batch rfl hbatchRef hname ?hhashes ?htotal ?htotals, rfl⟩
  case hhashes =>
    intro hash hhash
    obtain ⟨r, hr, rfl⟩ := List.mem_map.1 hhash
    change r ∈ twiceReceipts at hr
    rw [twiceReceipts, List.mem_cons, List.mem_singleton, or_self] at hr
    rw [hr]
    exact quiet_digest _
  case htotal => exact .num _
  case htotals =>
    intro entry hentry
    have hmem := (sortOperators_ok hsorted).1.mem_iff.1 hentry
    rw [operatorTotals_eq twice_numbers, List.mem_map] at hmem
    obtain ⟨first, hfirst, rfl⟩ := hmem
    have hreceipt := List.fst_mem_of_mem_zipIdx ((Grouping.firsts_sublist operatorKey _).subset hfirst)
    rw [twiceReceipts, List.mem_cons, List.mem_singleton, or_self] at hreceipt
    have hnames : [js "operator_id", js "amount", js "asset"].all quietKey = true := by decide
    rw [hreceipt]
    exact quiet_obj hnames rfl ⟨.str (by decide), .num _, .str hname⟩

/-- The totals of the receipt and itself. -/
theorem batch_totals_twice : ∃ batch, createSettlementBatch reference .finite twiceInput = .ok batch ∧
    batch.total_settled_amount = .number (.finite (twiceReceipts.map amountOf).sum) := by
  obtain ⟨batch, hbatch⟩ := twice_batched
  exact ⟨batch, hbatch, (batch_totals reference twiceInput batch hbatch fun r hr => ⟨_, twice_numbers r hr⟩).1⟩

/-- A receipt that is listed twice is settled twice. -/
theorem duplicate_counted : ¬∀ (P : Platform) (input : Json) (batch : SettlementBatch),
    createSettlementBatch P .finite input = .ok batch →
      (∀ r ∈ batchReceipts input, ∃ q, settledAmount r = some (.num q)) →
        batch.total_settled_amount = .number (.finite ((distinctReceipts (batchReceipts input)).map amountOf).sum) := by
  intro h
  obtain ⟨batch, hbatch⟩ := twice_batched
  have hdistinct := h reference twiceInput batch hbatch fun r hr => ⟨_, twice_numbers r hr⟩
  have hsum := sumUp_exact reference.toNumberFormat twiceReceipts twice_numbers 0
  have htotal := (createSettlementBatch_ok hbatch).1.trans hsum
  rw [htotal] at hdistinct
  have hamount : amountOf (sampleReceipt reference "operator-a") = 3 := rfl
  have honce : distinctReceipts twiceReceipts = [sampleReceipt reference "operator-a"] := by
    simp [distinctReceipts, Grouping.firsts, twiceReceipts]
  have hnumber : (0 : ℚ) + (twiceReceipts.map amountOf).sum = ((distinctReceipts twiceReceipts).map amountOf).sum :=
    Numeric.finite.inj (Total.number.inj hdistinct)
  rw [honce] at hnumber
  simp only [twiceReceipts, List.map_cons, List.map_nil, List.sum_cons, List.sum_nil, hamount] at hnumber
  norm_num at hnumber

end Settlement

end EnigmaMemory
