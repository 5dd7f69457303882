import EnigmaMemory.Proof.Append

/-!
# The scan for plaintext markers

A receipt is refused when its text contains one of three markers. A comma or a brace is in
no marker and a colon only ends one, so the text of an object is free of markers exactly
when its values are and no key ends in one (`marker_obj`).

* `marker_order`: a receipt is free of markers exactly when the values of its fields are.
* `nextEntry_accepted_iff`: `appendEvent` succeeds exactly when what it is given is free of
  markers and complete.
-/

namespace EnigmaMemory

open Json

/-! ## Words in texts -/

section Words

variable {α : Type*} {c : α} {m a b : List α}

/-- A word that has `c` at most at its end lies on one side of an occurrence of `c`. -/
theorem infix_append_cons (h : c ∉ m.dropLast) : m <:+: a ++ c :: b ↔ m <:+: a ++ [c] ∨ m <:+: b := by
  constructor
  · rintro ⟨s, t, hst⟩
    rw [show a ++ c :: b = (a ++ [c]) ++ b by simp, List.append_eq_append_iff] at hst
    rcases hst with ⟨u, hu, -⟩ | ⟨u, hu, hb⟩
    · exact Or.inl ⟨s, u, hu.symm⟩
    · rw [List.append_eq_append_iff] at hu
      rcases hu with ⟨w, hw, hm⟩ | ⟨w, -, hw⟩
      · -- the word would cross the occurrence: then `c` is inside it
        rcases List.eq_nil_or_concat u with rfl | ⟨u, x, rfl⟩
        · rw [List.append_nil] at hm
          exact Or.inl ⟨s, [], by rw [hm, hw, List.append_nil]⟩
        · rcases List.eq_nil_or_concat w with rfl | ⟨w, y, rfl⟩
          · refine Or.inr ⟨[], t, ?_⟩
            rw [hb, hm]
            rfl
          · have hy : c = y := by
              have hlast := congrArg List.getLast? hw
              simpa using hlast
            refine absurd ?_ h
            rw [hm, hy]
            simp [List.dropLast_cons_of_ne_nil]
      · exact Or.inr ⟨w, t, by rw [hb, hw]⟩
  · rintro (⟨s, t, hst⟩ | ⟨s, t, hst⟩)
    · refine ⟨s, t ++ b, ?_⟩
      rw [← List.append_assoc, hst]
      simp
    · refine ⟨a ++ c :: s, t, ?_⟩
      rw [← hst]
      simp

/-- A word without `c` lies in what is around `c`. -/
theorem infix_append_cons_of_notMem (h : c ∉ m) (hm : m ≠ []) : m <:+: a ++ c :: b ↔ m <:+: a ∨ m <:+: b := by
  rw [infix_append_cons (fun hc => h (List.dropLast_subset _ hc))]
  refine or_congr_left ⟨?_, fun ha => ha.trans (List.prefix_append a [c]).isInfix⟩
  rintro ⟨s, t, hst⟩
  rcases List.eq_nil_or_concat t with rfl | ⟨t, x, rfl⟩
  · rw [List.append_nil] at hst
    have hlast : c ∈ m := by
      have hl := congrArg List.getLast? hst
      rw [List.getLast?_append_of_ne_nil _ hm] at hl
      exact List.mem_of_getLast? (by simpa using hl)
    exact absurd hlast h
  · have ht : s ++ m ++ t = a := by
      have := congrArg List.dropLast hst
      simpa using this
    exact ⟨s, t, ht⟩

end Words

theorem includes_iff {m t : JsString} : includes m t = true ↔ m <:+: t := by
  induction t with
  | nil => simp [includes]
  | cons c t ih => rw [includes, Bool.or_eq_true, ih, List.isPrefixOf_iff_prefix, List.infix_cons_iff]

/-! ## Texts with a marker -/

/-- A text that the scan refuses. -/
def marked (t : JsString) : Bool := plaintextMarkers.any fun marker => includes marker (toLowerCase t)

theorem containsPlaintextMarker_eq (F : NumberFormat) (j : Json) :
    containsPlaintextMarker F j = marked (j.stringify F) := rfl

theorem marked_iff {t : JsString} : marked t = true ↔ ∃ m ∈ plaintextMarkers, m <:+: toLowerCase t := by
  simp [marked, includes_iff]

theorem toLowerCase_append (a b : JsString) : toLowerCase (a ++ b) = toLowerCase a ++ toLowerCase b :=
  List.flatMap_append

theorem marker_ne : ∀ m ∈ plaintextMarkers, m ≠ [] := by decide

theorem colon_notMem_marker : ∀ m ∈ plaintextMarkers, (0x3A : CodeUnit) ∉ m.dropLast := by decide

/-- A unit of no marker separates texts. -/
theorem marked_append_cons {c : CodeUnit} (hc : ∀ m ∈ plaintextMarkers, c ∉ m) (hl : lowerUnit c = [c]) (a b : JsString) :
    marked (a ++ c :: b) = (marked a || marked b) := by
  rw [Bool.eq_iff_iff, Bool.or_eq_true, marked_iff, marked_iff, marked_iff]
  have hlow : toLowerCase (a ++ c :: b) = toLowerCase a ++ c :: toLowerCase b := by
    rw [toLowerCase_append, toLowerCase, toLowerCase, List.flatMap_cons, hl]
    rfl
  rw [hlow, ← exists_or]
  refine exists_congr fun m => ?_
  rw [← and_or_left]
  exact and_congr_right fun hm => infix_append_cons_of_notMem (hc m hm) (marker_ne m hm)

theorem marked_append_colon (a b : JsString) : marked (a ++ 0x3A :: b) = (marked (a ++ [0x3A]) || marked b) := by
  rw [Bool.eq_iff_iff, Bool.or_eq_true, marked_iff, marked_iff, marked_iff]
  have hlow : ∀ b, toLowerCase (a ++ 0x3A :: b) = toLowerCase a ++ 0x3A :: toLowerCase b := fun b => toLowerCase_append _ _
  rw [hlow, hlow, ← exists_or]
  refine exists_congr fun m => ?_
  rw [← and_or_left]
  exact and_congr_right fun hm => infix_append_cons (colon_notMem_marker m hm)

theorem marked_nil : marked [] = false := by decide

theorem marked_joinComma (l : List JsString) : marked (joinComma l) = l.any marked := by
  induction l with
  | nil => exact marked_nil
  | cons x l ih =>
    cases l with
    | nil => simp [joinComma]
    | cons y l =>
      rw [joinComma, marked_append_cons (by decide) (by decide), ih]
      rfl

/-- **The text of an object is free of markers exactly when its keys and values are.** -/
theorem marker_obj (F : NumberFormat) (fs : List (JsString × Json)) : containsPlaintextMarker F (.obj fs) =
    fs.any fun f => marked (jsonQuote f.1 ++ [0x3A]) || containsPlaintextMarker F f.2 := by
  have hbraces : ∀ t, marked (0x7B :: (t ++ [0x7D])) = marked t := by
    intro t
    have h1 := marked_append_cons (c := 0x7B) (by decide) (by decide) [] (t ++ [0x7D])
    have h2 := marked_append_cons (c := 0x7D) (by decide) (by decide) t []
    rw [List.nil_append] at h1
    rw [h1, h2, marked_nil, Bool.false_or, Bool.or_false]
  rw [containsPlaintextMarker_eq, stringify, hbraces, marked_joinComma, List.any_map]
  induction fs with
  | nil => rfl
  | cons f fs ih =>
    obtain ⟨k, x⟩ := f
    rw [stringifyFields, List.any_cons, List.any_cons, ih, Function.comp, renderField, marked_append_colon]
    rfl

/-! ## Texts that cannot have a marker -/

/-- An ASCII unit that is written as itself and is not one of the letters `x` and `o`, of
which every marker has one. -/
def isQuiet (c : CodeUnit) : Bool :=
  decide (0x20 ≤ c.val ∧ c.val < 0x80) && decide (c ∉ ([0x22, 0x5C, 0x78, 0x58, 0x6F, 0x4F] : List CodeUnit))

theorem isQuiet_iff {c : CodeUnit} : isQuiet c = true ↔ (0x20 ≤ c.val ∧ c.val < 0x80) ∧ c.val ≠ 0x22 ∧ c.val ≠ 0x5C ∧
    c.val ≠ 0x78 ∧ c.val ≠ 0x58 ∧ c.val ≠ 0x6F ∧ c.val ≠ 0x4F := by
  simp [isQuiet, Fin.ext_iff]

theorem isPlainUnit_of_isQuiet {c : CodeUnit} (h : isQuiet c = true) :
    isPlainUnit c = true ∧ isHighSurrogate c = false := by
  rw [isQuiet_iff] at h
  simp only [isPlainUnit, isHighSurrogate, isLowSurrogate, Bool.and_eq_true, decide_eq_true_eq, bne_iff_ne, ne_eq,
    Bool.not_eq_true', decide_eq_false_iff_not, Fin.ext_iff, Fin.le_def]
  omega

theorem lowerUnit_of_isQuiet {c : CodeUnit} (h : isQuiet c = true) : (0x78 : CodeUnit) ∉ lowerUnit c ∧ (0x6F : CodeUnit) ∉ lowerUnit c := by
  rw [isQuiet_iff] at h
  unfold lowerUnit
  simp only [Fin.ext_iff, Fin.le_def]
  split_ifs <;> simp [Fin.ext_iff, Fin.val_add] <;> omega

theorem marker_letter : ∀ m ∈ plaintextMarkers, (0x78 : CodeUnit) ∈ m ∨ (0x6F : CodeUnit) ∈ m := by decide

theorem marked_of_isQuiet {t : JsString} (h : ∀ c ∈ t, (0x78 : CodeUnit) ∉ lowerUnit c ∧ (0x6F : CodeUnit) ∉ lowerUnit c) :
    marked t = false := by
  rw [← Bool.not_eq_true, marked_iff]
  rintro ⟨m, hm, hword⟩
  rcases marker_letter m hm with hl | hl
  · obtain ⟨c, hc, hx⟩ := List.mem_flatMap.1 (hword.subset hl)
    exact (h c hc).1 hx
  · obtain ⟨c, hc, hx⟩ := List.mem_flatMap.1 (hword.subset hl)
    exact (h c hc).2 hx

theorem quoteFrom_of_isQuiet {s : JsString} (h : ∀ c ∈ s, isQuiet c = true) : quoteFrom false s = s := by
  induction s with
  | nil => rfl
  | cons c s ih =>
    obtain ⟨hp, hh⟩ := isPlainUnit_of_isQuiet (h c (by simp))
    rw [quoteFrom, hh, hp, Bool.false_and, if_neg (by simp), if_pos rfl, ih fun d hd => h d (by simp [hd])]

/-- A string of quiet units passes the scan. -/
theorem marker_str {F : NumberFormat} {s : JsString} (h : s.all isQuiet = true) :
    containsPlaintextMarker F (.str s) = false := by
  rw [List.all_eq_true] at h
  rw [containsPlaintextMarker_eq, stringify, jsonQuote, quoteFrom_of_isQuiet h]
  refine marked_of_isQuiet fun c hc => ?_
  rcases List.mem_cons.1 hc with rfl | hc
  · decide
  · rcases List.mem_append.1 hc with hc | hc
    · exact lowerUnit_of_isQuiet (h c hc)
    · rw [List.mem_singleton.1 hc]
      decide

theorem isQuiet_of_isHexDigit {c : CodeUnit} (h : isHexDigit c = true) : isQuiet c = true := by
  rw [isQuiet_iff]
  simp only [isHexDigit, decide_eq_true_eq, Fin.le_def] at h
  omega

theorem isQuiet_of_isIsoUnit {c : CodeUnit} (h : isIsoUnit c = true) : isQuiet c = true := by
  rw [isQuiet_iff]
  simp only [isIsoUnit, Bool.or_eq_true, decide_eq_true_eq, beq_iff_eq, Fin.le_def, Fin.ext_iff] at h
  omega

theorem isQuiet_of_isNumberUnit {c : CodeUnit} (h : isNumberUnit c = true) : isQuiet c = true := by
  rw [isQuiet_iff]
  simp only [isNumberUnit, Bool.or_eq_true, decide_eq_true_eq, beq_iff_eq, Fin.le_def, Fin.ext_iff] at h
  omega

theorem marker_num (F : NumberFormat) (q : ℚ) : containsPlaintextMarker F (.num q) = false := by
  rw [containsPlaintextMarker_eq, stringify]
  exact marked_of_isQuiet fun c hc => lowerUnit_of_isQuiet (isQuiet_of_isNumberUnit (F.numberText_units q c hc))

theorem isQuiet_of_isHash {s : JsString} (h : isHash s = true) : s.all isQuiet = true := by
  rw [isHash, Bool.and_eq_true, List.all_eq_true] at h
  exact List.all_eq_true.2 fun c hc => isQuiet_of_isHexDigit (h.2 c hc)

/-- A quiet prefix and the beginning of a digest. -/
theorem marker_digest {F : NumberFormat} {start digest : JsString} (hs : start.all isQuiet = true)
    (hd : isHash digest = true) (n : ℕ) : containsPlaintextMarker F (.str (start ++ digest.take n)) = false := by
  refine marker_str ?_
  rw [List.all_append, hs, Bool.true_and, List.all_eq_true]
  intro c hc
  exact List.all_eq_true.1 (isQuiet_of_isHash hd) c (List.mem_of_mem_take hc)

theorem marker_isRoot {F : NumberFormat} {s : JsString} (h : isRoot s = true) :
    containsPlaintextMarker F (.str s) = false := by
  rw [isRoot, Bool.and_eq_true, List.isPrefixOf_iff_prefix] at h
  obtain ⟨⟨d, rfl⟩, hd⟩ := h
  rw [List.drop_left' (by decide)] at hd
  refine marker_str ?_
  rw [List.all_append, isQuiet_of_isHash hd, Bool.and_true]
  decide

/-! ## Receipts -/

theorem receiptFields_unmarked : ∀ k ∈ receiptFields, marked (jsonQuote k ++ [0x3A]) = false := by decide

/-- A value that the scan lets pass. -/
def Harmless (F : NumberFormat) (x : Option Json) : Prop := ∀ j, x = some j → containsPlaintextMarker F j = false

@[simp] theorem harmless_some {F : NumberFormat} {j : Json} : Harmless F (some j) ↔ containsPlaintextMarker F j = false := by
  simp [Harmless]

/-- **A receipt is free of markers exactly when the values of its fields are.** -/
theorem marker_order (F : NumberFormat) (j : Json) : containsPlaintextMarker F (orderReceiptFields j) = false ↔
    ∀ k ∈ receiptFields, Harmless F ((orderReceiptFields j).get k) := by
  have hget : ∀ k ∈ receiptFields, (orderReceiptFields j).get k = j.get k := by
    intro k hk
    rw [get_orderReceiptFields, if_pos hk]
  rw [orderReceiptFields, marker_obj, List.any_eq_false]
  constructor
  · intro h k hk x hx
    have hx : j.get k = some x := (hget k hk).symm.trans hx
    have hmem : (k, x) ∈ receiptFields.flatMap fun f => Json.field f (j.get f) :=
      List.mem_flatMap.2 ⟨k, hk, by rw [hx]; simp [Json.field]⟩
    have h := h _ hmem
    rw [Bool.not_eq_true, Bool.or_eq_false_iff] at h
    exact h.2
  · rintro h ⟨k, x⟩ hmem
    obtain ⟨k', hk', hkx⟩ := List.mem_flatMap.1 hmem
    cases hx : j.get k' with
    | none => rw [hx] at hkx; simp [Json.field] at hkx
    | some y =>
      rw [hx] at hkx
      simp only [Json.field, List.mem_singleton, Prod.mk.injEq] at hkx
      obtain ⟨rfl, rfl⟩ := hkx
      rw [receiptFields_unmarked k hk', h k hk' x ((hget k hk').trans hx)]
      simp

variable {P : Platform} {v : Vault} {f : EventFields} {env : Ambient}

/-- The values of a body that the scan may object to. -/
structure ReceiptBody.Unmarked (P : Platform) (b : ReceiptBody) : Prop where
  operation : containsPlaintextMarker P.toNumberFormat (.str b.operation) = false
  tenant_id : containsPlaintextMarker P.toNumberFormat (.str b.tenant_id) = false
  subject_id : containsPlaintextMarker P.toNumberFormat (.str b.subject_id) = false
  signer : containsPlaintextMarker P.toNumberFormat b.signer = false
  memory_addr : Harmless P.toNumberFormat b.memory_addr
  source_addr : Harmless P.toNumberFormat b.source_addr
  provider : Harmless P.toNumberFormat b.provider
  model : Harmless P.toNumberFormat b.model
  policy_id : Harmless P.toNumberFormat b.policy_id

theorem marker_signatureJson (F : NumberFormat) (signature : JsString) :
    containsPlaintextMarker F (signatureJson signature) = containsPlaintextMarker F (.str signature) := by
  have h1 : marked (jsonQuote (js "alg") ++ [0x3A]) = false := by decide
  have h2 : marked (jsonQuote (js "value") ++ [0x3A]) = false := by decide
  have h3 : containsPlaintextMarker F ed25519 = false := marker_str (by decide)
  rw [signatureJson, marker_obj]
  simp [h1, h2, h3]

/-- The scan of an issued receipt sees only the values that come from outside. -/
theorem marker_signed {b : ReceiptBody} {signature : JsString} (hb : b.Valid)
    (hts : b.timestamp.all isQuiet = true) :
    containsPlaintextMarker P.toNumberFormat (b.signed P signature) = false ↔
      b.Unmarked P ∧ containsPlaintextMarker P.toNumberFormat (.str signature) = false := by
  have hr := reads_signed (P := P) b signature
  have hsig := signed_signature (P := P) b signature
  have hid := signed_receipt_id (P := P) b signature
  have horder : containsPlaintextMarker P.toNumberFormat (b.signed P signature) = false ↔
      ∀ k ∈ receiptFields, Harmless P.toNumberFormat ((b.signed P signature).get k) := marker_order _ _
  rw [horder]
  have hprev : containsPlaintextMarker P.toNumberFormat (.str b.previous_receipt_hash) = false := by
    rcases hb.previous with h | h
    · rw [h]
      exact marker_str (by decide)
    · exact marker_isRoot h
  have hreceiptId : containsPlaintextMarker P.toNumberFormat (.str (receiptIdOf P b.toJson)) = false :=
    marker_digest (by decide) (isHash_sha256Hex _) 32
  have hschema : containsPlaintextMarker P.toNumberFormat (.str (js "enigma.receipt.v1")) = false := marker_str (by decide)
  simp only [receiptFields, List.forall_mem_cons, hr.schema, hr.event_hash, hr.operation, hr.tenant_id, hr.subject_id,
    hr.memory_addr, hr.source_addr, hr.provider, hr.model, hr.policy_id, hr.sequence, hr.previous_receipt_hash,
    hr.active_set_root, hr.receipt_log_root, hr.timestamp, hr.signer, hsig, hid, harmless_some, marker_signatureJson,
    hschema, hreceiptId, hprev, marker_isRoot hb.event_hash, marker_isRoot hb.active_set_root,
    marker_isRoot hb.receipt_log_root, marker_str hts, marker_num, true_and, List.not_mem_nil]
  constructor
  · rintro ⟨h1, h2, h3, h4, h5, h6, h7, h8, h9, h10, -⟩
    exact ⟨⟨h1, h2, h3, h9, h4, h5, h6, h7, h8⟩, h10⟩
  · rintro ⟨h, hs⟩
    exact ⟨h.operation, h.tenant_id, h.subject_id, h.memory_addr, h.source_addr, h.provider, h.model, h.policy_id,
      h.signer, hs, by simp⟩

/-! ## Accepted events -/

/-- A `now` argument that is a date. -/
def Now.Valid (P : Platform) : Now → Prop
  | .absent => True
  | .date t => t.isSome = true
  | .text s => (P.parseDate s).isSome = true

theorem nowIso_ok_iff (time : ℤ) {now : Now} : (∃ ts, nowIso P time now = .ok ts) ↔ now.Valid P := by
  cases now with
  | absent => simp [nowIso, Now.Valid]
  | date t => cases t <;> simp [nowIso, Now.Valid]
  | text s =>
    simp only [nowIso, Now.Valid]
    cases P.parseDate s <;> simp

theorem isQuiet_isoText (t : ℤ) : (P.isoText t).all isQuiet = true :=
  List.all_eq_true.2 fun c hc => isQuiet_of_isIsoUnit (P.isoText_units t c hc)

/-- A private key that signs every text, with a signature that the scan lets pass. -/
def Signs (P : Platform) (sk : JsString) : Prop := ∀ text, ∃ signature, P.sign sk text = .ok signature ∧ signature ≠ [] ∧
  containsPlaintextMarker P.toNumberFormat (.str signature) = false

/-- A non-empty string that the scan lets pass. -/
def Named (P : Platform) (x : Option Json) : Prop :=
  ∃ s, x = some (.str s) ∧ s ≠ [] ∧ containsPlaintextMarker P.toNumberFormat (.str s) = false

/-- An event that can be appended to a vault. -/
structure Acceptable (P : Platform) (v : Vault) (sk : JsString) (f : EventFields) : Prop where
  operation : Named P (some f.operation)
  tenant_id : Named P (orElse f.tenant_id (some v.tenant_id))
  subject_id : Named P (orElse f.subject_id (some v.subject_id))
  sequence : 0 ≤ v.sequence
  signer : ∃ s, normalizeSigner P (some v.signer) none (some sk) = .ok s ∧ containsPlaintextMarker P.toNumberFormat s = false
  memory_addr : Harmless P.toNumberFormat f.memory_addr
  source_addr : Harmless P.toNumberFormat f.source_addr
  provider : Harmless P.toNumberFormat f.provider
  model : Harmless P.toNumberFormat f.model
  policy_id : Harmless P.toNumberFormat (orElse f.policy_id (some v.policy_id))

theorem harmless_orElse_none {F : NumberFormat} {x : Option Json} : Harmless F (orElse x none) ↔ Harmless F x := by
  have hnull : containsPlaintextMarker F .null = false := by
    rw [containsPlaintextMarker_eq, stringify]
    decide
  rcases x with - | j
  · rfl
  · cases j with
    | null => simp [orElse, Harmless, hnull]
    | _ => rfl

theorem Issue.Checked.quiet {i : Issue} (h : i.Checked P v f env) : i.timestamp.all isQuiet = true := by
  obtain ⟨t, ht⟩ := nowIso_eq h.now
  rw [ht]
  exact isQuiet_isoText t

/-- **When `appendEvent` succeeds**, on a vault with a working private key. -/
theorem nextEntry_accepted_iff {sk : JsString} (hsk : v.signingKeyPair.privateKey = some sk) (hsign : Signs P sk) :
    (∃ e, nextEntry P env v f = .ok e) ↔ f.now.Valid P ∧ Acceptable P v sk f := by
  rw [← nowIso_ok_iff (env.clock 0)]
  constructor
  · rintro ⟨e, he⟩
    obtain ⟨i, hi, hmark, -⟩ := nextEntry_ok.1 he
    obtain ⟨hb, -⟩ := (marker_signed i.valid_body hi.quiet).1 hmark
    refine ⟨⟨_, hi.now⟩, ⟨_, by rw [hi.operation.1], hi.operation.2, hb.operation⟩,
      ⟨_, hi.tenant_id.1, hi.tenant_id.2, hb.tenant_id⟩, ⟨_, hi.subject_id.1, hi.subject_id.2, hb.subject_id⟩,
      by rw [hi.sequence]; omega, ⟨i.signer, hsk ▸ hi.signer, hb.signer⟩, harmless_orElse_none.1 hb.memory_addr, harmless_orElse_none.1 hb.source_addr, hb.provider, hb.model,
      harmless_orElse_none.1 hb.policy_id⟩
  · rintro ⟨⟨ts, hts⟩, ha⟩
    obtain ⟨op, hop, hopne, hopm⟩ := ha.operation
    obtain ⟨tenant, htenant, htne, htm⟩ := ha.tenant_id
    obtain ⟨subject, hsubject, hsne, hsm⟩ := ha.subject_id
    obtain ⟨signer, hsigner, hsgm⟩ := ha.signer
    -- the signature is made over the other values
    let i₀ : Issue := ⟨ts, op, tenant, subject, v.sequence.toNat, signer, sk, []⟩
    obtain ⟨signature, hsig, hsigne, hsigm⟩ := hsign (((i₀.body P v f env).unsigned P).canonicalize P.toNumberFormat)
    let i : Issue := ⟨ts, op, tenant, subject, v.sequence.toNat, signer, sk, signature⟩
    have hi : i.Checked P v f env := ⟨hts, ⟨Option.some.inj hop, hopne⟩, ⟨htenant, htne⟩, ⟨hsubject, hsne⟩,
      (Int.toNat_of_nonneg ha.sequence).symm, hsk ▸ hsigner, hsk, hsig, hsigne⟩
    refine ⟨_, nextEntry_ok.2 ⟨i, hi, (marker_signed i.valid_body hi.quiet).2 ⟨?_, hsigm⟩, rfl⟩⟩
    exact ⟨hopm, htm, hsm, hsgm, harmless_orElse_none.2 ha.memory_addr, harmless_orElse_none.2 ha.source_addr,
      ha.provider, ha.model, harmless_orElse_none.2 ha.policy_id⟩

end EnigmaMemory
