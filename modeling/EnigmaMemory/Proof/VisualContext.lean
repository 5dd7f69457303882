import EnigmaMemory.Proof.CodePoints
import EnigmaMemory.Proof.Decimal
import EnigmaMemory.Spec.VisualContext
import Mathlib.Data.Nat.Digits.Lemmas

/-!
# Encoding a text for the page

* `decodeFrom_character`: what is read back from an encoded character.
* `encoding_lossless`: what is encoded is decoded, and is written with glyphs only.
-/

namespace EnigmaMemory.VisualContext

/-! ## Hexadecimal -/

theorem upperHexDigit_value {n : ℕ} (h : n < 16) :
    digitValue (upperHexDigit n) = some n ∧ isUpperHexUnit (upperHexDigit n) = true := by
  have hall : ∀ m < 16, digitValue (upperHexDigit m) = some m ∧ isUpperHexUnit (upperHexDigit m) = true := by decide
  exact hall n h

theorem upperHex_eq (n : ℕ) : ∃ digits : List ℕ, upperHex n = digits.map upperHexDigit ∧ (∀ d ∈ digits, d < 16) ∧ digits ≠ [] ∧
    digits.foldl (fun m d => m * 16 + d) 0 = n ∧ (n < 16 ^ 6 → digits.length ≤ 6) := by
  by_cases hn : n = 0
  · exact ⟨[0], by rw [upperHex, if_pos hn]; rfl, by simp, by simp, by simp [hn], by simp⟩
  · refine ⟨(Nat.digits 16 n).reverse, by rw [upperHex, if_neg hn, List.map_reverse], ?_, ?_, ?_, ?_⟩
    · exact fun d hd => Nat.digits_lt_base (by omega) (List.mem_reverse.1 hd)
    · exact fun hnil => hn (Nat.digits_eq_nil_iff_eq_zero.1 (List.reverse_eq_nil_iff.1 hnil))
    · rw [List.foldl_reverse]
      conv_rhs => rw [← Nat.ofDigits_digits 16 n, Nat.ofDigits_eq_foldr]
      refine congrFun (congrFun (congrArg List.foldr ?_) 0) _
      funext d m
      rw [Nat.cast_id, Nat.add_comm, Nat.mul_comm]
    · intro hsmall
      rw [List.length_reverse]
      exact (Nat.digits_length_le_iff (by omega) n).2 hsmall

theorem digitsValue_upperHex (n : ℕ) : digitsValue 16 (upperHex n) = some n := by
  obtain ⟨digits, hdigits, hlt, hne, hvalue, -⟩ := upperHex_eq n
  have hfold : ∀ (l : List ℕ) (m : ℕ), (∀ d ∈ l, d < 16) →
      (l.map upperHexDigit).foldl
        (fun out c => out.bind fun n => ((digitValue c).filter (decide <| · < 16)).map (n * 16 + ·)) (some m) =
      some (l.foldl (fun m d => m * 16 + d) m) := by
    intro l
    induction l with
    | nil => exact fun m _ => rfl
    | cons d l ih =>
      intro m hl
      obtain ⟨hd, hl⟩ := List.forall_mem_cons.1 hl
      rw [List.map_cons, List.foldl_cons, List.foldl_cons, Option.bind_some, (upperHexDigit_value hd).1,
        Option.filter_some_pos (by simpa using hd), Option.map_some, ih _ hl]
  rw [digitsValue, hdigits, if_neg (by simpa using hne), hfold digits 0 hlt, hvalue]

theorem upperHex_units (n : ℕ) : (upperHex n).all isUpperHexUnit = true := by
  obtain ⟨digits, hdigits, hlt, -⟩ := upperHex_eq n
  rw [hdigits, List.all_map, List.all_eq_true]
  exact fun d hd => (upperHexDigit_value (hlt d hd)).2

theorem upperHex_length {n : ℕ} (h : n < 0x110000) : 1 ≤ (upperHex n).length ∧ (upperHex n).length ≤ 6 := by
  obtain ⟨digits, hdigits, -, hne, -, hlength⟩ := upperHex_eq n
  rw [hdigits, List.length_map]
  exact ⟨List.length_pos_iff.2 hne, hlength (by omega)⟩

/-! ## Characters -/

theorem codePointOf_lt {ch : JsString} (h : IsCharacter ch) : codePointOf ch < 0x110000 := by
  cases h with
  | unit c =>
    have hc := c.isLt
    rw [codePointOf]
    omega
  | pair hh hl =>
    rw [codePointOf, hh, hl, Bool.and_self, if_pos rfl]
    rw [isHighSurrogate_iff] at hh
    rw [isLowSurrogate_iff] at hl
    omega

theorem utf16_codePointOf {ch : JsString} (h : IsCharacter ch) : utf16 (codePointOf ch) = ch := by
  cases h with
  | unit c => exact utf16_unit c
  | pair hh hl =>
    rw [codePointOf, hh, hl, Bool.and_self, if_pos rfl]
    exact utf16_pair hh hl

/-! ## Decoding -/

theorem decodeFrom_skip (F : NumberFormat) (rest : JsString) : ∀ (skipped : JsString) (index : ℕ),
    decodeFrom F index skipped.length (skipped ++ rest) = decodeFrom F (index + skipped.length) 0 rest
  | [], _ => rfl
  | c :: skipped, index => by
    rw [List.length_cons, List.cons_append, decodeFrom, decodeFrom_skip F rest skipped, Nat.add_assoc, Nat.add_comm 1]

theorem decodeFrom_plain (F : NumberFormat) (index : ℕ) {c : CodeUnit} (rest : JsString) (h : c ≠ 92) :
    decodeFrom F index 0 (c :: rest) = (decodeFrom F (index + 1) 0 rest).map (c :: ·) := by
  rw [decodeFrom, if_pos h]

/-- An escape, as it is read back. -/
theorem decodeFrom_escape {F : NumberFormat} {index : ℕ} (body : JsString) {decoded rest : JsString}
    (h : readEscape F index (body ++ rest) = .ok (decoded, body.length)) :
    decodeFrom F index 0 (92 :: (body ++ rest)) = (decodeFrom F (index + (body.length + 1)) 0 rest).map (decoded ++ ·) := by
  rw [decodeFrom, if_neg (by simp), h]
  simp only
  rw [decodeFrom_skip F rest body, Nat.add_assoc, Nat.add_comm 1]

theorem beforeBrace_append {hex : JsString} (h : hex.all isUpperHexUnit = true) (rest : JsString) :
    beforeBrace (hex ++ 125 :: rest) = some hex := by
  have hne : ∀ c ∈ hex, decide (c ≠ 125) = true := fun c hc => by
    have hunit := List.all_eq_true.1 h c hc
    rw [decide_eq_true_eq]
    rintro rfl
    exact absurd hunit (by decide)
  rw [beforeBrace, if_pos (by simp), List.takeWhile_append_of_pos hne, List.takeWhile_cons_of_neg (by simp), List.append_nil]

theorem readEscape_hex {F : NumberFormat} {index n : ℕ} (h : n < 0x110000) (rest : JsString) :
    readEscape F index (117 :: 123 :: (upperHex n ++ 125 :: rest)) = .ok (utf16 n, (upperHex n).length + 3) := by
  have hlength := upperHex_length h
  rw [readEscape, beforeBrace_append (upperHex_units n)]
  simp only [upperHex_units, digitsValue_upperHex, Option.getD_some]
  rw [if_pos (by simpa using hlength), if_neg (by omega)]

/-- **An encoded character is read back**, whatever follows it. -/
theorem decodeFrom_character (F : NumberFormat) (font : Font) (index : ℕ) {ch : JsString} (h : IsCharacter ch) (rest : JsString) :
    decodeFrom F index 0 (encodeCharacter font ch ++ rest) =
      (decodeFrom F (index + (encodeCharacter font ch).length) 0 rest).map (ch ++ ·) := by
  unfold encodeCharacter
  simp only
  split
  · rename_i hch
    subst hch
    exact decodeFrom_plain F index rest (by decide)
  split
  · rename_i hch
    subst hch
    exact decodeFrom_escape [92] rfl
  split
  · rename_i hch
    subst hch
    exact decodeFrom_escape [116] rfl
  split
  · rename_i hch
    subst hch
    exact decodeFrom_escape [114] rfl
  split
  · rename_i hbackslash _ _ _
    cases h with
    | unit c => exact decodeFrom_plain F index rest fun hc => hbackslash (by rw [hc])
    | @pair hi lo hh hl =>
      have hhi : hi ≠ 92 := by
        rintro rfl
        exact absurd hh (by decide)
      have hlo : lo ≠ 92 := by
        rintro rfl
        exact absurd hl (by decide)
      rw [List.cons_append, decodeFrom_plain F index _ hhi, List.cons_append, decodeFrom_plain F (index + 1) _ hlo, List.nil_append]
      cases decodeFrom F (index + 1 + 1) 0 rest <;> rfl
  · have hread : readEscape F index _ = _ := readEscape_hex (codePointOf_lt h) rest
    have hbody : 117 :: 123 :: (upperHex (codePointOf ch) ++ 125 :: rest) =
        (117 :: 123 :: (upperHex (codePointOf ch) ++ [125])) ++ rest := by simp
    rw [hbody, utf16_codePointOf h] at hread
    have hescape := decodeFrom_escape (117 :: 123 :: (upperHex (codePointOf ch) ++ [125])) (by simpa using hread)
    simpa using hescape

theorem decodeFrom_characters (F : NumberFormat) (font : Font) {cs : List JsString} (h : ∀ ch ∈ cs, IsCharacter ch) (index : ℕ) :
    decodeFrom F index 0 (cs.flatMap (encodeCharacter font)) = .ok cs.flatten := by
  induction cs generalizing index with
  | nil => rfl
  | cons ch cs ih =>
    obtain ⟨hch, hcs⟩ := List.forall_mem_cons.1 h
    rw [List.flatMap_cons, decodeFrom_character F font index hch, ih hcs, List.flatten_cons]
    rfl

/-! ## Glyphs -/

/-- The characters that every font is asked to have. -/
def Printable (s : JsString) : Prop := ∀ c ∈ s, 32 ≤ c.val ∧ c.val ≤ 126

theorem Printable.not_endsHigh {s : JsString} (h : Printable s) : ¬ EndsHigh s := by
  rintro ⟨c, hc, hhigh⟩
  have hprintable := h c (List.mem_of_getLast? hc)
  rw [isHighSurrogate_iff] at hhigh
  omega

theorem Printable.not_startsLow {s : JsString} (h : Printable s) : ¬ StartsLow s := by
  rintro ⟨c, hc, hlow⟩
  have hprintable := h c (List.mem_of_head? hc)
  rw [isLowSurrogate_iff] at hlow
  omega

theorem Printable.codePoints {s : JsString} (h : Printable s) : codePoints s = s.map ([·]) := by
  induction s with
  | nil => rfl
  | cons c s ih =>
    obtain ⟨hc, hs⟩ := List.forall_mem_cons.1 h
    have hunit : Printable [c] := List.forall_mem_singleton.2 hc
    rw [codePoints_unit fun hboth => hunit.not_endsHigh hboth.1, ih hs, List.map_cons]

theorem printable_upperHex (n : ℕ) : Printable (upperHex n) := fun c hc => by
  have hunit := List.all_eq_true.1 (upperHex_units n) c hc
  simp only [isUpperHexUnit, decide_eq_true_eq, Fin.le_def] at hunit
  have h48 : ((48 : CodeUnit) : ℕ) = 48 := rfl
  have h57 : ((57 : CodeUnit) : ℕ) = 57 := rfl
  have h65 : ((65 : CodeUnit) : ℕ) = 65 := rfl
  have h70 : ((70 : CodeUnit) : ℕ) = 70 := rfl
  omega

/-- A backslash and what is skipped behind it. -/
def IsEscape (s : JsString) : Prop := ∃ body, s = 92 :: body ∧ ∀ rest, escapeLength (body ++ rest) = .ok body.length

theorem isEscape_hex (n : ℕ) : IsEscape ([92, 117, 123] ++ upperHex n ++ [125]) := by
  refine ⟨117 :: 123 :: (upperHex n ++ [125]), by simp, fun rest => ?_⟩
  have happend : 117 :: 123 :: (upperHex n ++ [125]) ++ rest = 117 :: 123 :: (upperHex n ++ 125 :: rest) := by simp
  rw [happend, escapeLength, beforeBrace_append (upperHex_units n)]
  simp

/-- What a character is written as: a newline, the character with its glyph, or an escape. -/
theorem encodeCharacter_cases (font : Font) (ch : JsString) :
    (ch = [10] ∧ encodeCharacter font ch = [10]) ∨
    (encodeCharacter font ch = ch ∧ ch ≠ [10] ∧ ch ≠ [92] ∧ font.hasGlyph (codePointOf ch) = true) ∨
    (Printable (encodeCharacter font ch) ∧ IsEscape (encodeCharacter font ch)) := by
  unfold encodeCharacter
  simp only
  split
  · rename_i hch
    exact .inl ⟨hch, rfl⟩
  split
  · exact .inr (.inr ⟨by simp [Printable], [92], rfl, fun _ => rfl⟩)
  split
  · exact .inr (.inr ⟨by simp [Printable], [116], rfl, fun _ => rfl⟩)
  split
  · exact .inr (.inr ⟨by simp [Printable], [114], rfl, fun _ => rfl⟩)
  split
  · rename_i hnewline hbackslash _ _ hglyph
    exact .inr (.inl ⟨rfl, hnewline, hbackslash, hglyph.2⟩)
  · refine .inr (.inr ⟨?_, isEscape_hex _⟩)
    intro c hc
    rw [List.mem_append, List.mem_append] at hc
    rcases hc with (hc | hc) | hc
    · have hstart : Printable [92, 117, 123] := by simp [Printable]
      exact hstart c hc
    · exact printable_upperHex _ c hc
    · rw [List.mem_singleton.1 hc]
      decide

theorem encodeCharacter_ne_nil (font : Font) {ch : JsString} (h : IsCharacter ch) : encodeCharacter font ch ≠ [] := by
  rcases encodeCharacter_cases font ch with ⟨-, henc⟩ | ⟨henc, -⟩ | ⟨-, body, henc, -⟩
  · rw [henc]
    simp
  · rw [henc]
    exact h.ne_nil
  · rw [henc]
    simp

theorem endsHigh_encodeCharacter (font : Font) (ch : JsString) (h : EndsHigh (encodeCharacter font ch)) : EndsHigh ch := by
  rcases encodeCharacter_cases font ch with ⟨hch, henc⟩ | ⟨henc, -⟩ | ⟨hprintable, -⟩
  · rwa [hch, ← henc]
  · rwa [henc] at h
  · exact absurd h hprintable.not_endsHigh

theorem startsLow_encodeCharacter (font : Font) (ch : JsString) (h : StartsLow (encodeCharacter font ch)) : StartsLow ch := by
  rcases encodeCharacter_cases font ch with ⟨hch, henc⟩ | ⟨henc, -⟩ | ⟨hprintable, -⟩
  · rwa [hch, ← henc]
  · rwa [henc] at h
  · exact absurd h hprintable.not_startsLow

/-- **The code points of encoded characters** are those of each. -/
theorem codePoints_characters (font : Font) {cs : List JsString} (h : Chunked cs) :
    codePoints (cs.flatMap (encodeCharacter font)) = cs.flatMap (fun ch => codePoints (encodeCharacter font ch)) ∧
      (StartsLow (cs.flatMap (encodeCharacter font)) → StartsLow cs.flatten) :=
  codePoints_map (fun _ hch => encodeCharacter_ne_nil font hch) (fun ch _ => endsHigh_encodeCharacter font ch)
    (fun ch _ => startsLow_encodeCharacter font ch) h

/-- **Encoding is lossless**: a text is decoded from what it is encoded as, which is written with newlines and
glyphs only, if the font has those of printable ASCII. -/
theorem encoding_lossless (F : NumberFormat) (font : Font) (text : JsString) :
    decodeVisualContextText F (encodeVisualContextText font text) = .ok text ∧
      ((∀ n, 32 ≤ n → n ≤ 126 → font.hasGlyph n = true) →
        ∀ ch ∈ codePoints (encodeVisualContextText font text), ch = [10] ∨ font.hasGlyph (codePointOf ch) = true) := by
  obtain ⟨hflatten, hchunked⟩ := flatten_codePoints text
  constructor
  · exact (decodeFrom_characters F font hchunked.characters 0).trans (congrArg Except.ok hflatten)
  · intro hascii written hwritten
    rw [encodeVisualContextText, (codePoints_characters font hchunked).1, List.mem_flatMap] at hwritten
    obtain ⟨ch, hmem, hwritten⟩ := hwritten
    have hch := hchunked.characters ch hmem
    rcases encodeCharacter_cases font ch with ⟨-, h⟩ | ⟨h, -, -, hglyph⟩ | ⟨h, -⟩
    · rw [h] at hwritten
      exact .inl (List.mem_singleton.1 hwritten)
    · rw [h, hch.codePoints] at hwritten
      rw [List.mem_singleton.1 hwritten]
      exact .inr hglyph
    · rw [h.codePoints] at hwritten
      obtain ⟨c, hc, rfl⟩ := List.mem_map.1 hwritten
      exact .inr (hascii c.val (h c hc).1 (h c hc).2)

/-- A font of printable ASCII. -/
def asciiFont : Font where
  name := js "X11 6x10"
  cellWidth := 6
  cellHeight := 10
  cellWidth_pos := by decide
  cellHeight_pos := by decide
  hasGlyph n := decide (32 ≤ n ∧ n ≤ 126)

/-- A lone surrogate, a backslash, a tab and a pair. -/
theorem surrogates_lossless : decodeVisualContextText decimalFormat
      (encodeVisualContextText asciiFont [0xD800, 92, 9, 0xD83D, 0xDE00]) = .ok [0xD800, 92, 9, 0xD83D, 0xDE00] ∧
    ∀ ch ∈ codePoints (encodeVisualContextText asciiFont [0xD800, 92, 9, 0xD83D, 0xDE00]),
      ch = [10] ∨ asciiFont.hasGlyph (codePointOf ch) = true :=
  have h := encoding_lossless decimalFormat asciiFont [0xD800, 92, 9, 0xD83D, 0xDE00]
  ⟨h.1, h.2 fun _ hlow hhigh => decide_eq_true ⟨hlow, hhigh⟩⟩

end EnigmaMemory.VisualContext
