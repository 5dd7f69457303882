import EnigmaMemory.Proof.Receipt
import EnigmaMemory.Proof.Reference
import EnigmaMemory.Spec.Settlement

/-!
# What an accepted settlement shows

`verifyServiceSettlementReceipt` compares the references between job, quote and receipt and
recomputes the digest of the receipt. `Checked` lists what it looks at, `Settled` what a
settlement should be.

* `settlement_sound_iff`: an accepted receipt settles the quote for the job exactly if what the
  verifier does not look at is right too.
-/

namespace EnigmaMemory

namespace Settlement

open Json

variable {P : Platform} {job quote receipt input : Json}

/-! ## Settlements -/

/-- What the identifier and the digest of a job are taken over. -/
def jobBody (job : Json) : Json := (job.without (js "job_id")).without (js "job_hash")

def quoteBody (quote : Json) : Json := (quote.without (js "quote_id")).without (js "quote_hash")

def receiptBody (receipt : Json) : Json :=
  (receipt.without (js "settlement_receipt_id")).without (js "settlement_receipt_hash")

/-- The settled amount, the quoted price and the most that the job pays. -/
structure Amounts (job quote receipt : Json) (settled quoted most : ℚ) : Prop where
  settled : path (some receipt) ["settled_price", "amount"] = some (.num settled)
  quoted : path (some quote) ["price", "amount"] = some (.num quoted)
  most : path (some job) ["max_price", "amount"] = some (.num most)

/-- **The receipt settles the quote for the job**: it names the tenant, the operator and the
service, the digests of both bodies, and an amount within the quoted price, which is within
what the job pays, all in one asset. -/
structure Settled (P : Platform) (job quote receipt : Json) : Prop where
  job_tenant : receipt.get (js "tenant_id") = job.get (js "tenant_id")
  quote_tenant : receipt.get (js "tenant_id") = quote.get (js "tenant_id")
  operator : receipt.get (js "operator_id") = quote.get (js "operator_id")
  service : receipt.get (js "service_kind") = quote.get (js "service_kind")
  job_hash : receipt.get (js "job_hash") = some (.str (digest P (jobBody job)))
  quote_hash : receipt.get (js "quote_hash") = some (.str (digest P (quoteBody quote)))
  amounts : ∃ settled quoted most, Amounts job quote receipt settled quoted most ∧
    0 ≤ settled ∧ settled ≤ quoted ∧ quoted ≤ most
  asset : ∃ asset, path (some receipt) ["settled_price", "asset"] = some asset ∧
    path (some quote) ["price", "asset"] = some asset ∧ path (some job) ["max_price", "asset"] = some asset

/-- What the verifier does not look at: the copied fields of the receipt, the digests by which
job and quote are named, the sign of the amount, and the price against the job. -/
structure Unchecked (P : Platform) (job quote receipt : Json) : Prop where
  job_tenant : receipt.get (js "tenant_id") = job.get (js "tenant_id")
  quote_tenant : receipt.get (js "tenant_id") = quote.get (js "tenant_id")
  operator : receipt.get (js "operator_id") = quote.get (js "operator_id")
  service : receipt.get (js "service_kind") = quote.get (js "service_kind")
  job_hash : job.get (js "job_hash") = some (.str (digest P (jobBody job)))
  quote_hash : quote.get (js "quote_hash") = some (.str (digest P (quoteBody quote)))
  amounts : ∃ settled quoted most, Amounts job quote receipt settled quoted most ∧ 0 ≤ settled ∧ quoted ≤ most
  asset : ∃ asset, path (some quote) ["price", "asset"] = some asset ∧ path (some job) ["max_price", "asset"] = some asset

/-! ## What the verifier looks at -/

/-- A value with fields to read. -/
def Present (value : Option Json) : Prop := ∃ v, value = some v ∧ v ≠ .null

theorem member_ok {owner x : Option Json} {key : String} :
    member owner key = .ok x ↔ Present owner ∧ path owner [key] = x := by
  unfold member
  split
  · simp [Present]
  · simp [Present]
  · rename_i v hv
    have hpresent : Present (some v) := ⟨v, rfl, hv⟩
    simp [hpresent, path]

/-- Two artifacts agree on a field. -/
def Agree (a b : Json) (key : String) : Prop := strictEq (a.get (js key)) (b.get (js key)) = true

structure Checked (P : Platform) (job quote receipt : Json) : Prop where
  settled_price : Present (receipt.get (js "settled_price"))
  price : Present (quote.get (js "price"))
  receipt_job : Agree receipt job "job_hash" ∧ Agree receipt job "job_id"
  receipt_quote : Agree receipt quote "quote_hash" ∧ Agree receipt quote "quote_id"
  quote_job : Agree quote job "job_hash" ∧ Agree quote job "job_id"
  usage_event : Agree receipt job "usage_event_hash"
  memory_commitment : Agree receipt job "memory_commitment_root"
  policy : Agree receipt job "policy_hash"
  asset : strictEq (path (some receipt) ["settled_price", "asset"]) (path (some quote) ["price", "asset"]) = true
  amount : greater P.toNumberFormat (path (some receipt) ["settled_price", "amount"])
    (path (some quote) ["price", "amount"]) = false
  off_chain : path (some receipt) ["settlement_boundary", "raw_memory_on_chain"] = some (.bool false)
  no_roi : path (some receipt) ["settlement_boundary", "token_roi_claim"] = some (.bool false)
  id : receipt.get (js "settlement_receipt_id") = some (.str (receiptIdFrom P (receiptBody receipt)))
  hash : receipt.get (js "settlement_receipt_hash") = some (.str (digest P (receiptBody receipt)))

theorem artifactErrors_nil : artifactErrors P job quote receipt = .ok [] ↔ Checked P job quote receipt := by
  constructor
  · intro h
    obtain ⟨settledAsset, h₁, h⟩ := Except.bind_eq_ok.1 h
    obtain ⟨quotedAsset, h₂, h⟩ := Except.bind_eq_ok.1 h
    obtain ⟨settledAmount, h₃, h⟩ := Except.bind_eq_ok.1 h
    obtain ⟨quotedAmount, h₄, h⟩ := Except.bind_eq_ok.1 h
    obtain ⟨hsettled, rfl⟩ := member_ok.1 h₁
    obtain ⟨hprice, rfl⟩ := member_ok.1 h₂
    obtain ⟨-, rfl⟩ := member_ok.1 h₃
    obtain ⟨-, rfl⟩ := member_ok.1 h₄
    have h := Except.pure_eq_ok.1 h
    simp only [List.append_eq_nil_iff, errorIf_eq_nil, Bool.or_eq_false_iff, differ, Bool.not_eq_false', strictEq_str,
      strictEq_bool] at h
    obtain ⟨⟨⟨⟨⟨⟨⟨⟨⟨⟨⟨hrj, hrq⟩, hqj⟩, husage⟩, hmemory⟩, hpolicy⟩, hasset⟩, hamount⟩, hchain⟩, hroi⟩, hid⟩, hhash⟩ := h
    exact ⟨hsettled, hprice, hrj, hrq, hqj, husage, hmemory, hpolicy, hasset, hamount, hchain, hroi, hid, hhash⟩
  · intro h
    have hmember : ∀ {owner : Option Json} (key : String), Present owner → member owner key = .ok (path owner [key]) :=
      fun key howner => member_ok.2 ⟨howner, rfl⟩
    rw [artifactErrors, hmember _ h.settled_price, hmember _ h.price, hmember _ h.settled_price, hmember _ h.price]
    refine Except.pure_eq_ok.2 ?_
    simp only [List.append_eq_nil_iff, errorIf_eq_nil, Bool.or_eq_false_iff, differ, Bool.not_eq_false', strictEq_str,
      strictEq_bool]
    exact ⟨⟨⟨⟨⟨⟨⟨⟨⟨⟨⟨h.receipt_job, h.receipt_quote⟩, h.quote_job⟩, h.usage_event⟩, h.memory_commitment⟩, h.policy⟩, h.asset⟩,
      h.amount⟩, h.off_chain⟩, h.no_roi⟩, h.id⟩, h.hash⟩

/-- The input as the verifier reads it. -/
structure Reads (input job quote receipt : Json) : Prop where
  job : input.get (js "job") = some job
  quote : input.get (js "quote") = some quote
  receipt : input.get (js "receipt") = some receipt

/-- **The verifier accepts exactly three checked artifacts that its scan lets pass.** -/
theorem verify_ok_iff (hr : Reads input job quote receipt) :
    verifyServiceSettlementReceipt P input = .ok ⟨[]⟩ ↔
      scanErrors P input = [] ∧ hasSchema (some job) jobSchema = true ∧ hasSchema (some quote) quoteSchema = true ∧
        hasSchema (some receipt) receiptSchema = true ∧ Checked P job quote receipt := by
  have hjob : member (some input) "job" = .ok (some job) := by
    refine member_ok.2 ⟨⟨input, rfl, ?_⟩, hr.job⟩
    rintro rfl
    cases hr.job
  rw [verifyServiceSettlementReceipt, hjob, hr.quote, hr.receipt, ← artifactErrors_nil]
  simp only [Option.getD_some, Bind.bind, Except.bind]
  split
  · rename_i hnil
    simp only [List.isEmpty_iff, List.append_eq_nil_iff, errorIf_eq_nil, Bool.not_eq_false'] at hnil
    obtain ⟨⟨⟨hscan, hj⟩, hq⟩, hre⟩ := hnil
    simp only [hscan, hj, hq, hre, true_and]
    cases artifactErrors P job quote receipt with
    | error e => simp
    | ok found => simp [pure, Except.pure]
  · rename_i hnil
    refine iff_of_false ?_ ?_
    · intro h
      have h := Verification.mk.inj (Except.pure_eq_ok.1 h)
      rw [h] at hnil
      exact hnil rfl
    · rintro ⟨hscan, hj, hq, hre, -⟩
      rw [hscan, hj, hq, hre] at hnil
      exact hnil rfl

theorem Verification.ok_iff {v : Verification} : v.ok = true ↔ v = ⟨[]⟩ := by
  cases v
  simp [Verification.ok]

/-! ## Soundness -/

/-- The amount that the verifier accepts is within the price, if both are numbers. -/
theorem Checked.settled_le (h : Checked P job quote receipt) {settled quoted most : ℚ}
    (ha : Amounts job quote receipt settled quoted most) : settled ≤ quoted := by
  have hle := h.amount
  rw [ha.settled, ha.quoted, greater_num, decide_eq_false_iff_not, not_lt] at hle
  exact hle

/-- **An accepted receipt settles the quote for the job exactly if what the verifier does not
look at is right.** -/
theorem settlement_sound_iff (P : Platform) (input job quote receipt : Json) (v : Verification)
    (hr : Reads input job quote receipt) (hv : verifyServiceSettlementReceipt P input = .ok v) (hok : v.ok = true) :
    Settled P job quote receipt ↔ Unchecked P job quote receipt := by
  rw [Verification.ok_iff.1 hok] at hv
  obtain ⟨-, -, -, -, hc⟩ := (verify_ok_iff hr).1 hv
  -- the references that are compared carry the digests over to the receipt
  have hjob := eq_of_strictEq hc.receipt_job.1
  have hquote := eq_of_strictEq hc.receipt_quote.1
  have hasset := eq_of_strictEq hc.asset
  constructor
  · intro h
    obtain ⟨settled, quoted, most, ha, hpos, -, hmost⟩ := h.amounts
    obtain ⟨asset, -, hq, hj⟩ := h.asset
    exact ⟨h.job_tenant, h.quote_tenant, h.operator, h.service, hjob ▸ h.job_hash, hquote ▸ h.quote_hash,
      ⟨settled, quoted, most, ha, hpos, hmost⟩, asset, hq, hj⟩
  · intro h
    obtain ⟨settled, quoted, most, ha, hpos, hmost⟩ := h.amounts
    obtain ⟨asset, hq, hj⟩ := h.asset
    exact ⟨h.job_tenant, h.quote_tenant, h.operator, h.service, hjob.trans h.job_hash, hquote.trans h.quote_hash,
      ⟨settled, quoted, most, ha, hpos, hc.settled_le ha, hmost⟩, asset, hasset.trans hq, hq, hj⟩

/-! ## A receipt that pays another operator -/

/-- A string that the scan lets pass. -/
def quietString (s : JsString) : Bool := !regexTest secretValueRe s

def quietKey (key : JsString) : Bool := !(regexTest forbiddenKeyRe key && decide (key ∉ safeFieldNames))

/-- A value that the scan lets pass wherever it stands. -/
inductive Quiet : Json → Prop
  | null : Quiet .null
  | bool (b : Bool) : Quiet (.bool b)
  | num (q : ℚ) : Quiet (.num q)
  | str {s : JsString} : quietString s = true → Quiet (.str s)
  | arr {xs : List Json} : (∀ x ∈ xs, Quiet x) → Quiet (.arr xs)
  | obj {fs : List (JsString × Json)} : (∀ f ∈ fs, quietKey f.1 = true) → (∀ f ∈ fs, Quiet f.2) → Quiet (.obj fs)

theorem assertItems_quiet (xs : List Json) (h : ∀ x ∈ xs, ∀ path, assertNoSensitivePayload P x path = .ok ()) :
    ∀ path index, assertItems P xs path index = .ok () := by
  induction xs with
  | nil => exact fun _ _ => rfl
  | cons x xs ih =>
    intro path index
    rw [assertItems, h x List.mem_cons_self]
    exact ih (fun y hy => h y (List.mem_cons_of_mem _ hy)) path (index + 1)

theorem assertFields_quiet (fs : List (JsString × Json)) (hkeys : ∀ f ∈ fs, quietKey f.1 = true)
    (h : ∀ f ∈ fs, ∀ path, assertNoSensitivePayload P f.2 path = .ok ()) : ∀ path, assertFields P fs path = .ok () := by
  induction fs with
  | nil => exact fun _ => rfl
  | cons f fs ih =>
    intro path
    obtain ⟨key, child⟩ := f
    have hkey := hkeys (key, child) List.mem_cons_self
    rw [quietKey, Bool.not_eq_true'] at hkey
    rw [assertFields, hkey, h (key, child) List.mem_cons_self]
    exact ih (fun g hg => hkeys g (List.mem_cons_of_mem _ hg)) (fun g hg => h g (List.mem_cons_of_mem _ hg)) path

theorem Quiet.assert {value : Json} (h : Quiet value) : ∀ path, assertNoSensitivePayload P value path = .ok () := by
  induction h with
  | null | bool | num => exact fun _ => rfl
  | str hs =>
    intro path
    rw [quietString, Bool.not_eq_true'] at hs
    rw [assertNoSensitivePayload, hs, Bool.and_false]
    rfl
  | arr _ ih =>
    intro path
    rw [assertNoSensitivePayload]
    exact assertItems_quiet _ ih path 0
  | obj hkeys _ ih =>
    intro path
    rw [assertNoSensitivePayload]
    exact assertFields_quiet _ hkeys ih path

theorem Quiet.fields {value : Json} (h : Quiet value) : ∀ f ∈ value.fields, quietKey f.1 = true ∧ Quiet f.2 := by
  cases h with
  | obj hkeys hfs => exact fun f hf => ⟨hkeys f hf, hfs f hf⟩
  | _ => simp [Json.fields]

/-- A quiet value under a quiet name keeps an object quiet. -/
theorem Quiet.set {j x : Json} {key : JsString} (h : Quiet j) (hkey : quietKey key = true) (hx : Quiet x) : Quiet (j.set key x) := by
  have hset : ∀ f ∈ setField key x j.fields, quietKey f.1 = true ∧ Quiet f.2 := by
    intro f hf
    rcases mem_setField j.fields hf with rfl | hf
    · exact ⟨hkey, hx⟩
    · exact h.fields f hf
  exact .obj (fun f hf => (hset f hf).1) fun f hf => (hset f hf).2

/-- An object is quiet if its names and its values are. -/
theorem quiet_obj {names : List JsString} (hnames : names.all quietKey = true) {fs : List (JsString × Json)}
    (hfs : fs.map Prod.fst = names) (h : (fs.map Prod.snd).Forall Quiet) : Quiet (.obj fs) := by
  rw [List.forall_iff_forall_mem] at h
  subst hfs
  exact .obj (fun f hf => List.all_eq_true.1 hnames _ (List.mem_map_of_mem hf)) fun f hf => h _ (List.mem_map_of_mem hf)

/-- The characters of identifiers and digests. -/
def tokenRanges : List (ℕ × ℕ) := [(48, 58), (95, 95), (97, 104), (106, 106), (108, 108), (111, 113), (115, 117)]

/-- No secret is written in the characters of identifiers and digests alone. -/
theorem quietString_of_over {s : JsString} (h : CharClass.Over tokenRanges (unitCodes s)) : quietString s = true := by
  have hleaves : secretValueRe.leaves tokenRanges = true := by decide
  rw [quietString, regexTest, Regex.test, Regex.search_eq_false hleaves _ _ h]
  rfl

theorem over_hex {s : JsString} (h : ∀ c ∈ s, isHexDigit c = true) : CharClass.Over tokenRanges (unitCodes s) := by
  intro x hx
  obtain ⟨c, hc, rfl⟩ := List.mem_map.1 hx
  have hdigit : 48 ≤ c ∧ c ≤ 57 ∨ 97 ≤ c ∧ c ≤ 102 := of_decide_eq_true (h c hc)
  rcases hdigit with ⟨hlow, hhigh⟩ | ⟨hlow, hhigh⟩
  · have hhigh' : c.val ≤ 57 := hhigh
    exact ⟨(48, 58), by decide, hlow, by omega⟩
  · have hhigh' : c.val ≤ 102 := hhigh
    exact ⟨(97, 104), by decide, hlow, by omega⟩

theorem over_append {s t : JsString} (hs : CharClass.Over tokenRanges (unitCodes s))
    (ht : CharClass.Over tokenRanges (unitCodes t)) : CharClass.Over tokenRanges (unitCodes (s ++ t)) := by
  intro x hx
  rw [unitCodes, List.map_append, List.mem_append] at hx
  exact hx.elim (hs x) (ht x)

theorem hex_sha256Hex (s : JsString) : ∀ c ∈ sha256Hex s, isHexDigit c = true := by
  have h := isHash_sha256Hex s
  rw [isHash, Bool.and_eq_true, List.all_eq_true] at h
  exact h.2

theorem quiet_digest (body : Json) : Quiet (.str (digest P body)) := by
  have hpre : CharClass.Over tokenRanges (unitCodes sha256Prefix) := by decide
  exact .str (quietString_of_over (over_append hpre (over_hex (hex_sha256Hex _))))

theorem quiet_idFrom {kind : String} (hkind : CharClass.Over tokenRanges (unitCodes (js kind))) (body : Json) :
    Quiet (.str (idFrom P kind body)) := by
  have hdrop : (digest P body).drop 7 = sha256Hex ((canonicalize body).stringify P.toNumberFormat) :=
    List.drop_left' (by decide)
  refine .str (quietString_of_over (over_append hkind (over_hex fun c hc => ?_)))
  rw [hdrop] at hc
  exact hex_sha256Hex _ c (List.mem_of_mem_take hc)

/-- The body of a sealed artifact is what was sealed. -/
theorem body_sealed {idKey hashKey kind : String} {fs : List (JsString × Json)} (hid : (obj fs).get (js idKey) = none)
    (hhash : (obj fs).get (js hashKey) = none) (hne : js hashKey ≠ js idKey) :
    ((sealed P idKey hashKey kind (.obj fs)).without (js idKey)).without (js hashKey) = .obj fs := by
  have hset : sealed P idKey hashKey kind (.obj fs) =
      ((Json.obj fs).set (js idKey) (.str (idFrom P kind (.obj fs)))).set (js hashKey) (.str (digest P (.obj fs))) := rfl
  rw [hset, without_comm, without_set (by rw [get_set, if_neg hne, hhash])]
  exact without_set hid _

theorem get_sealed {idKey hashKey kind : String} {body : Json} (key : JsString) :
    (sealed P idKey hashKey kind body).get key = if key = js hashKey then some (.str (digest P body))
      else if key = js idKey then some (.str (idFrom P kind body)) else body.get key := by
  have hset : sealed P idKey hashKey kind body = ((Json.obj body.fields).set (js idKey) (.str (idFrom P kind body))).set
      (js hashKey) (.str (digest P body)) := rfl
  rw [hset, get_set, get_set, get_obj_fields]

theorem Quiet.sealed {idKey hashKey kind : String} {fs : List (JsString × Json)} (h : Quiet (.obj fs))
    (hid : quietKey (js idKey) = true) (hhash : quietKey (js hashKey) = true)
    (hkind : CharClass.Over tokenRanges (unitCodes (js kind))) : Quiet (sealed P idKey hashKey kind (.obj fs)) :=
  (h.set hid (quiet_idFrom hkind _)).set hhash (quiet_digest _)

def sampleJobBody : Json :=
  .obj [(js "schema", .str jobSchema), (js "tenant_id", .str (js "tenant-1")), (js "max_price", price 5 (some (.str (js "USDC"))))]

def sampleJob (P : Platform) : Json := sealed P "job_id" "job_hash" "pjob_" sampleJobBody

def sampleQuoteBody (P : Platform) : Json :=
  .obj [(js "schema", .str quoteSchema), (js "job_id", .str (jobIdFrom P sampleJobBody)),
    (js "job_hash", .str (digest P sampleJobBody)), (js "tenant_id", .str (js "tenant-1")),
    (js "operator_id", .str (js "operator-a")), (js "service_kind", .str (js "relay")),
    (js "price", price 3 (some (.str (js "USDC"))))]

def sampleQuote (P : Platform) : Json := sealed P "quote_id" "quote_hash" "quote_" (sampleQuoteBody P)

/-- A receipt for the quote that pays the given operator. -/
def sampleReceiptBody (P : Platform) (operator : String) : Json :=
  .obj [(js "schema", .str receiptSchema), (js "job_id", .str (jobIdFrom P sampleJobBody)),
    (js "job_hash", .str (digest P sampleJobBody)), (js "quote_id", .str (quoteIdFrom P (sampleQuoteBody P))),
    (js "quote_hash", .str (digest P (sampleQuoteBody P))), (js "tenant_id", .str (js "tenant-1")),
    (js "operator_id", .str (js operator)), (js "service_kind", .str (js "relay")),
    (js "settled_price", price 3 (some (.str (js "USDC")))),
    (js "settlement_boundary", flags [("raw_memory_on_chain", false), ("token_roi_claim", false)])]

def sampleReceipt (P : Platform) (operator : String) : Json :=
  sealed P "settlement_receipt_id" "settlement_receipt_hash" "settle_" (sampleReceiptBody P operator)

def sampleInput (P : Platform) (operator : String) : Json :=
  .obj [(js "job", sampleJob P), (js "quote", sampleQuote P), (js "receipt", sampleReceipt P operator)]

theorem sample_reads (P : Platform) (operator : String) :
    Reads (sampleInput P operator) (sampleJob P) (sampleQuote P) (sampleReceipt P operator) := ⟨rfl, rfl, rfl⟩

theorem receiptBody_sample (operator : String) : receiptBody (sampleReceipt P operator) = sampleReceiptBody P operator :=
  body_sealed rfl rfl (by decide)

theorem sample_checked (operator : String) : Checked P (sampleJob P) (sampleQuote P) (sampleReceipt P operator) := by
  have hbody := receiptBody_sample (P := P) operator
  have hagree : ∀ s : JsString, strictEq (some (.str s)) (some (.str s)) = true := fun s => strictEq_str.2 rfl
  refine ⟨⟨_, rfl, ?_⟩, ⟨_, rfl, ?_⟩, ⟨hagree _, hagree _⟩, ⟨hagree _, hagree _⟩, ⟨hagree _, hagree _⟩, rfl, rfl, rfl, hagree _, ?_,
    rfl, rfl, ?_, ?_⟩
  · exact Json.noConfusion
  · exact Json.noConfusion
  · exact decide_eq_false (lt_irrefl 3)
  · rw [hbody]
    rfl
  · rw [hbody]
    rfl

/-- The names in the sample. -/
def sampleNames : List JsString :=
  [js "job", js "quote", js "receipt", js "schema", js "tenant_id", js "max_price", js "amount", js "asset", js "job_id",
    js "job_hash", js "quote_id", js "quote_hash", js "operator_id", js "service_kind", js "price", js "settled_price",
    js "settlement_boundary", js "settlement_receipt_id", js "settlement_receipt_hash", js "raw_memory_on_chain",
    js "token_roi_claim"]

theorem sampleNames_quiet {names : List JsString} (h : names ⊆ sampleNames) : names.all quietKey = true := by
  have hall : sampleNames.all quietKey = true := by
    unfold sampleNames
    repeat rw [js_ofList]
    decide +kernel
  exact List.all_eq_true.2 fun key hkey => List.all_eq_true.1 hall key (h hkey)

theorem Quiet.sealed_sample {idKey hashKey kind : String} {fs : List (JsString × Json)} (h : Quiet (.obj fs))
    (hnames : [js idKey, js hashKey] ⊆ sampleNames) (hkind : CharClass.Over tokenRanges (unitCodes (js kind))) :
    Quiet (Settlement.sealed P idKey hashKey kind (.obj fs)) := by
  have hquiet := sampleNames_quiet hnames
  simp only [List.all_cons, List.all_nil, Bool.and_true, Bool.and_eq_true] at hquiet
  exact h.sealed hquiet.1 hquiet.2 hkind

theorem sampleTexts_quiet : ∀ text ∈ [jobSchema, quoteSchema, receiptSchema, js "tenant-1", js "operator-a", js "relay", js "USDC"],
    Quiet (.str text) := by
  have hall : [jobSchema, quoteSchema, receiptSchema, js "tenant-1", js "operator-a", js "relay", js "USDC"].all quietString = true := by
    decide +kernel
  exact fun text htext => .str (List.all_eq_true.1 hall text htext)

theorem quiet_price (amount : ℚ) : Quiet (price amount (some (.str (js "USDC")))) := by
  have hnames : [js "amount", js "asset"].all quietKey = true := sampleNames_quiet (by simp [sampleNames])
  exact quiet_obj hnames rfl ⟨.num amount, sampleTexts_quiet _ (by simp)⟩

theorem quiet_sampleJob : Quiet (sampleJob P) := by
  have hbody : Quiet sampleJobBody :=
    quiet_obj (sampleNames_quiet (by simp [sampleNames])) rfl ⟨sampleTexts_quiet _ (by simp), sampleTexts_quiet _ (by simp), quiet_price 5⟩
  exact hbody.sealed_sample (by simp [sampleNames]) (by decide)

theorem quiet_sampleQuote : Quiet (sampleQuote P) := by
  have hbody : Quiet (sampleQuoteBody P) :=
    quiet_obj (sampleNames_quiet (by simp [sampleNames])) rfl ⟨sampleTexts_quiet _ (by simp), quiet_idFrom (by decide) _,
      quiet_digest _, sampleTexts_quiet _ (by simp), sampleTexts_quiet _ (by simp), sampleTexts_quiet _ (by simp), quiet_price 3⟩
  exact hbody.sealed_sample (by simp [sampleNames]) (by decide)

theorem quiet_sampleReceipt {operator : String} (h : quietString (js operator) = true) : Quiet (sampleReceipt P operator) := by
  have hboundary : Quiet (flags [("raw_memory_on_chain", false), ("token_roi_claim", false)]) :=
    quiet_obj (sampleNames_quiet (List.drop_subset 19 sampleNames)) rfl ⟨.bool false, .bool false⟩
  have hbody : Quiet (sampleReceiptBody P operator) :=
    quiet_obj (sampleNames_quiet (by simp [sampleNames])) rfl ⟨sampleTexts_quiet _ (by simp), quiet_idFrom (by decide) _,
      quiet_digest _, quiet_idFrom (by decide) _, quiet_digest _, sampleTexts_quiet _ (by simp), .str h,
      sampleTexts_quiet _ (by simp), quiet_price 3, hboundary⟩
  exact hbody.sealed_sample (by simp [sampleNames]) (by decide)

/-- The verifier accepts the receipt, whatever operator it pays. -/
theorem sample_accepted {operator : String} (h : quietString (js operator) = true) :
    verifyServiceSettlementReceipt P (sampleInput P operator) = .ok ⟨[]⟩ := by
  have hquiet : Quiet (sampleInput P operator) :=
    quiet_obj (sampleNames_quiet (List.take_subset 3 sampleNames)) rfl ⟨quiet_sampleJob, quiet_sampleQuote, quiet_sampleReceipt h⟩
  have hscan : scanErrors P (sampleInput P operator) = [] := by rw [scanErrors, hquiet.assert]
  exact (verify_ok_iff (sample_reads P operator)).2 ⟨hscan, rfl, rfl, rfl, sample_checked operator⟩

theorem sample_unchecked (P : Platform) :
    Unchecked P (sampleJob P) (sampleQuote P) (sampleReceipt P "operator-a") := by
  have hjob : jobBody (sampleJob P) = sampleJobBody := body_sealed rfl rfl (by decide)
  have hquote : quoteBody (sampleQuote P) = sampleQuoteBody P := body_sealed rfl rfl (by decide)
  have htenant : (sampleReceipt P "operator-a").get (js "tenant_id") = some (.str (js "tenant-1")) := rfl
  have hjobTenant : (sampleJob P).get (js "tenant_id") = some (.str (js "tenant-1")) := rfl
  have hquoteTenant : (sampleQuote P).get (js "tenant_id") = some (.str (js "tenant-1")) := rfl
  have hoperator : (sampleReceipt P "operator-a").get (js "operator_id") = some (.str (js "operator-a")) := rfl
  have hservice : (sampleReceipt P "operator-a").get (js "service_kind") = some (.str (js "relay")) := rfl
  have hamounts : Amounts (sampleJob P) (sampleQuote P) (sampleReceipt P "operator-a") 3 3 5 := ⟨rfl, rfl, rfl⟩
  refine ⟨htenant.trans hjobTenant.symm, htenant.trans hquoteTenant.symm, hoperator, hservice, ?_, ?_,
    ⟨3, 3, 5, hamounts, by norm_num, by norm_num⟩, .str (js "USDC"), rfl, rfl⟩
  · rw [hjob]
    rfl
  · rw [hquote]
    rfl

theorem settlement_sound_same_operator :
    verifyServiceSettlementReceipt reference (sampleInput reference "operator-a") = .ok ⟨[]⟩ ∧
      Settled reference (sampleJob reference) (sampleQuote reference) (sampleReceipt reference "operator-a") := by
  have haccepted := @sample_accepted reference "operator-a" (by decide)
  have hsound := settlement_sound_iff reference _ _ _ _ _ (sample_reads reference "operator-a") haccepted rfl
  exact ⟨haccepted, hsound.2 (sample_unchecked reference)⟩

/-- A receipt for the quote of one operator that pays another one is accepted. -/
theorem settlement_other_operator :
    verifyServiceSettlementReceipt reference (sampleInput reference "operator-b") = .ok ⟨[]⟩ ∧
      ¬ Settled reference (sampleJob reference) (sampleQuote reference) (sampleReceipt reference "operator-b") := by
  refine ⟨sample_accepted (by decide), fun h => ?_⟩
  have hoperator : some (Json.str (js "operator-b")) = some (.str (js "operator-a")) := h.operator
  have heq := Json.str.inj (Option.some.inj hoperator)
  exact absurd heq (by decide)

end Settlement

end EnigmaMemory
