import EnigmaMemory.Lib.Ordered
import EnigmaMemory.Spec.Json
import Mathlib.Tactic.Common

/-!
# Texts of strings are self-delimiting

* `js_inj`: different literals are different strings, so that field names and
  operation names can be told apart by `simp`.
* `quoteFrom_inj`: a quoted string followed by anything determines the string and
  what follows. Each unit is written as itself or as an escape sequence, and these
  tokens form a prefix code (`Token.inj`).
-/

namespace EnigmaMemory

theorem ofNat_inj {a b : ℕ} (ha : a < 65536) (hb : b < 65536)
    (h : Fin.ofNat 65536 a = Fin.ofNat 65536 b) : a = b := by
  have := congrArg Fin.val h
  simpa [Fin.ofNat, Nat.mod_eq_of_lt ha, Nat.mod_eq_of_lt hb] using this

theorem toNat_scalar (c : Char) : c.toNat < 0xD800 ∨ (0xDFFF < c.toNat ∧ c.toNat < 0x110000) := by
  have h := c.valid
  simp only [UInt32.isValidChar, Nat.isValidChar] at h
  exact h

/-- The code units of a scalar value followed by anything determine both. -/
theorem utf16_append_inj {m n : ℕ} (hm : m < 0xD800 ∨ (0xDFFF < m ∧ m < 0x110000))
    (hn : n < 0xD800 ∨ (0xDFFF < n ∧ n < 0x110000)) {x y : JsString}
    (h : utf16 m ++ x = utf16 n ++ y) : m = n ∧ x = y := by
  unfold utf16 at h
  split at h <;> split at h
  · simp only [List.cons_append, List.nil_append, List.cons.injEq] at h
    exact ⟨ofNat_inj (by omega) (by omega) h.1, h.2⟩
  · simp only [List.cons_append, List.nil_append, List.cons.injEq] at h
    have := ofNat_inj (by omega) (by omega) h.1
    omega
  · simp only [List.cons_append, List.nil_append, List.cons.injEq] at h
    have := ofNat_inj (by omega) (by omega) h.1
    omega
  · simp only [List.cons_append, List.nil_append, List.cons.injEq] at h
    obtain ⟨h1, h2, h3⟩ := h
    have h1 := ofNat_inj (by omega) (by omega) h1
    have h2 := ofNat_inj (by omega) (by omega) h2
    exact ⟨by omega, h3⟩

theorem flatMap_utf16_inj : ∀ l m : List Char,
    (l.flatMap fun c => utf16 c.toNat) = (m.flatMap fun c => utf16 c.toNat) → l = m
  | [], [] => fun _ => rfl
  | [], d :: m => by
    intro h
    rw [List.flatMap_nil, List.flatMap_cons] at h
    have := congrArg List.length h
    unfold utf16 at this
    split at this <;> simp at this
  | c :: l, [] => by
    intro h
    rw [List.flatMap_nil, List.flatMap_cons] at h
    have := congrArg List.length h
    unfold utf16 at this
    split at this <;> simp at this
  | c :: l, d :: m => by
    intro h
    rw [List.flatMap_cons, List.flatMap_cons] at h
    obtain ⟨h1, h2⟩ := utf16_append_inj (toNat_scalar c) (toNat_scalar d) h
    rw [Char.toNat_inj.1 h1, flatMap_utf16_inj l m h2]

@[simp] theorem js_inj {s t : String} : js s = js t ↔ s = t := by
  constructor
  · intro h; exact String.toList_injective (flatMap_utf16_inj _ _ h)
  · rintro rfl; rfl

/-- A literal, which the kernel takes for `String.ofList` of its characters, can be evaluated without decoding it. -/
theorem js_ofList (l : List Char) : js (String.ofList l) = l.flatMap fun c => utf16 c.toNat := by
  rw [js, String.toList_ofList]

/-! ## Quoting -/

/-- The two ways of writing one unit between quotes. -/
inductive Token (c : CodeUnit) : JsString → Prop
  | plain : c ≠ 0x22 → c ≠ 0x5C → Token c [c]
  | escape : Token c (escapeSeq c)

theorem hexDigit_inj {m n : ℕ} (hm : m < 16) (hn : n < 16) (h : hexDigit m = hexDigit n) : m = n := by
  unfold hexDigit at h
  have := ofNat_inj (by split <;> omega) (by split <;> omega) h
  split at this <;> split at this <;> omega

theorem shortEscape_inj {c d l : CodeUnit} (hc : shortEscape c = some l) (hd : shortEscape d = some l) :
    c = d := by
  unfold shortEscape at hc hd
  split_ifs at hc hd <;> simp_all <;> (subst hc; exact absurd hd (by decide))

theorem shortEscape_ne_u {c l : CodeUnit} (h : shortEscape c = some l) : l ≠ 0x75 := by
  unfold shortEscape at h
  split_ifs at h <;> simp_all <;> (subst h; decide)

theorem escapeSeq_append_inj {c d : CodeUnit} {x y : JsString}
    (h : escapeSeq c ++ x = escapeSeq d ++ y) : c = d ∧ x = y := by
  unfold escapeSeq at h
  cases hc : shortEscape c with
  | some l =>
    cases hd : shortEscape d with
    | some m =>
      simp only [hc, hd, List.cons_append, List.nil_append, List.cons.injEq, true_and] at h
      exact ⟨shortEscape_inj hc (h.1 ▸ hd), h.2⟩
    | none =>
      simp only [hc, hd, List.cons_append, List.nil_append, List.cons.injEq, true_and] at h
      exact absurd h.1 (shortEscape_ne_u hc)
  | none =>
    cases hd : shortEscape d with
    | some m =>
      simp only [hc, hd, List.cons_append, List.nil_append, List.cons.injEq, true_and] at h
      exact absurd h.1.symm (shortEscape_ne_u hd)
    | none =>
      simp only [hc, hd, List.cons_append, List.nil_append, List.cons.injEq, true_and] at h
      obtain ⟨h1, h2, h3, h4, h5⟩ := h
      have hcl := c.isLt
      have hdl := d.isLt
      have h1 := hexDigit_inj (by omega) (by omega) h1
      have h2 := hexDigit_inj (by omega) (by omega) h2
      have h3 := hexDigit_inj (by omega) (by omega) h3
      have h4 := hexDigit_inj (by omega) (by omega) h4
      exact ⟨Fin.ext (by omega), h5⟩

theorem escapeSeq_head (c : CodeUnit) : ∃ l, escapeSeq c = 0x5C :: l := by
  unfold escapeSeq
  split <;> exact ⟨_, rfl⟩

/-- **Tokens form a prefix code.** -/
theorem Token.inj {c d : CodeUnit} {l m x y : JsString} (hl : Token c l) (hm : Token d m)
    (h : l ++ x = m ++ y) : c = d ∧ x = y := by
  cases hl with
  | plain h1 h2 =>
    cases hm with
    | plain h3 h4 => simpa using h
    | escape =>
      obtain ⟨l, hl⟩ := escapeSeq_head d
      rw [hl] at h
      simp only [List.cons_append, List.nil_append, List.cons.injEq] at h
      exact absurd h.1 h2
  | escape =>
    cases hm with
    | plain h3 h4 =>
      obtain ⟨l, hl⟩ := escapeSeq_head c
      rw [hl] at h
      simp only [List.cons_append, List.nil_append, List.cons.injEq] at h
      exact absurd h.1.symm h4
    | escape => exact escapeSeq_append_inj h

theorem surrogate_ne {c : CodeUnit} (h : isHighSurrogate c = true ∨ isLowSurrogate c = true) :
    c ≠ 0x22 ∧ c ≠ 0x5C := by
  unfold isHighSurrogate isLowSurrogate at h
  constructor <;> (rintro rfl; revert h; decide)

/-- The state `paired` is only entered in front of a low surrogate. -/
def PairedOK (paired : Bool) (s : JsString) : Prop :=
  paired = true → ∀ c ∈ s.head?, isLowSurrogate c = true

/-- A quoted text starts with a token of its first unit. -/
theorem quoteFrom_cons {paired : Bool} {c : CodeUnit} {s : JsString} (hp : PairedOK paired (c :: s)) :
    ∃ tok next, Token c tok ∧ PairedOK next s ∧ quoteFrom paired (c :: s) = tok ++ quoteFrom next s := by
  cases paired with
  | true =>
    have hlow := hp rfl c (by simp)
    obtain ⟨h1, h2⟩ := surrogate_ne (Or.inr hlow)
    exact ⟨[c], false, .plain h1 h2, by simp [PairedOK], rfl⟩
  | false =>
    rw [quoteFrom]
    split
    · rename_i hpair
      rw [Bool.and_eq_true] at hpair
      obtain ⟨h1, h2⟩ := surrogate_ne (Or.inl hpair.1)
      refine ⟨[c], true, .plain h1 h2, ?_, rfl⟩
      intro _ d hd
      rw [Option.mem_def.1 hd] at hpair
      simpa using hpair.2
    · split
      · rename_i hplain
        simp only [isPlainUnit, Bool.and_eq_true, bne_iff_ne] at hplain
        exact ⟨[c], false, .plain hplain.1.1.1.2 hplain.1.1.2, by simp [PairedOK], rfl⟩
      · exact ⟨escapeSeq c, false, .escape, by simp [PairedOK], rfl⟩

theorem Token.ne_quote {c : CodeUnit} {tok x : JsString} (h : Token c tok) : ∀ y, tok ++ x ≠ 0x22 :: y := by
  intro y heq
  cases h with
  | plain h1 _ => simp at heq; exact h1 heq.1
  | escape =>
    obtain ⟨l, hl⟩ := escapeSeq_head c
    rw [hl] at heq
    simp at heq

/-- **A quoted string is self-delimiting.** -/
theorem quoteFrom_inj : ∀ (s t : JsString) (p q : Bool) (x y : JsString), PairedOK p s → PairedOK q t →
    quoteFrom p s ++ 0x22 :: x = quoteFrom q t ++ 0x22 :: y → s = t ∧ x = y := by
  intro s
  induction s with
  | nil =>
    intro t p q x y _ hq h
    cases t with
    | nil => simpa [quoteFrom] using h
    | cons d t =>
      obtain ⟨tok, next, htok, -, heq⟩ := quoteFrom_cons hq
      rw [heq, List.append_assoc] at h
      exact absurd h.symm (by simpa [quoteFrom] using htok.ne_quote x)
  | cons c s ih =>
    intro t p q x y hp hq h
    obtain ⟨tok, next, htok, hnext, heq⟩ := quoteFrom_cons hp
    rw [heq, List.append_assoc] at h
    cases t with
    | nil => exact absurd h (by simpa [quoteFrom] using htok.ne_quote y)
    | cons d t =>
      obtain ⟨tok', next', htok', hnext', heq'⟩ := quoteFrom_cons hq
      rw [heq', List.append_assoc] at h
      obtain ⟨hcd, hrest⟩ := htok.inj htok' h
      obtain ⟨hst, hxy⟩ := ih t next next' x y hnext hnext' hrest
      exact ⟨by rw [hcd, hst], hxy⟩

theorem jsonQuote_append_inj {s t x y : JsString} (h : jsonQuote s ++ x = jsonQuote t ++ y) : s = t ∧ x = y := by
  simp only [jsonQuote, List.cons_append, List.append_assoc, List.cons.injEq, true_and, List.nil_append] at h
  exact quoteFrom_inj s t false false x y (by simp [PairedOK]) (by simp [PairedOK]) h

end EnigmaMemory
