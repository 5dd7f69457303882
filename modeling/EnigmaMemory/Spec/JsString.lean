import Mathlib.Algebra.GroupWithZero.Nat
import Mathlib.Data.List.Lex
import Mathlib.Data.List.Sort
import Mathlib.Data.Fin.Basic
import Mathlib.Order.Fin.Basic

/-!
# JavaScript strings

A string is the list of its UTF-16 code units, lone surrogates included, so that
`===` is equality, `<` is the lexicographic order on units and `sort()` sorts by
it. `js` reads a literal. `utf8` is the byte string Node hashes (a lone surrogate
becomes U+FFFD), and `jsonQuote` is `JSON.stringify` on a string.
-/

namespace EnigmaMemory

/-- A UTF-16 code unit. -/
abbrev CodeUnit := Fin 65536

abbrev JsString := List CodeUnit

abbrev Bytes := List (Fin 256)

instance instNeZeroUnits : NeZero 65536 := ⟨by decide⟩

instance instNeZeroOctets : NeZero 256 := ⟨by decide⟩

instance instLawfulBEqCodeUnit : LawfulBEq CodeUnit := inferInstance

instance instLawfulBEqJsString : LawfulBEq JsString := inferInstance

/-- The one or two code units of a code point. -/
def utf16 (n : ℕ) : List CodeUnit :=
  if n < 0x10000 then [Fin.ofNat 65536 n]
  else [Fin.ofNat 65536 (0xD800 + (n - 0x10000) / 0x400),
    Fin.ofNat 65536 (0xDC00 + (n - 0x10000) % 0x400)]

/-- A string literal of the source. -/
def js (s : String) : JsString := s.toList.flatMap fun c => utf16 c.toNat

/-- `Array.prototype.sort` with no comparator, on an array of strings. -/
def sortStrings (xs : List JsString) : List JsString := xs.insertionSort (· ≤ ·)

def isHighSurrogate (c : CodeUnit) : Bool := decide (0xD800 ≤ c ∧ c ≤ 0xDBFF)

def isLowSurrogate (c : CodeUnit) : Bool := decide (0xDC00 ≤ c ∧ c ≤ 0xDFFF)

/-- A lower case hexadecimal digit, for a nibble. -/
def hexDigit (n : ℕ) : CodeUnit := Fin.ofNat 65536 (if n < 10 then 48 + n else 87 + n)

def isHexDigit (c : CodeUnit) : Bool := decide (48 ≤ c ∧ c ≤ 57 ∨ 97 ≤ c ∧ c ≤ 102)

/-! ## UTF-8 -/

/-- The UTF-8 encoding of one code point. -/
def utf8Char (n : ℕ) : Bytes :=
  if n < 0x80 then [Fin.ofNat 256 n]
  else if n < 0x800 then [Fin.ofNat 256 (0xC0 + n / 64), Fin.ofNat 256 (0x80 + n % 64)]
  else if n < 0x10000 then
    [Fin.ofNat 256 (0xE0 + n / 4096), Fin.ofNat 256 (0x80 + n / 64 % 64), Fin.ofNat 256 (0x80 + n % 64)]
  else
    [Fin.ofNat 256 (0xF0 + n / 262144), Fin.ofNat 256 (0x80 + n / 4096 % 64),
      Fin.ofNat 256 (0x80 + n / 64 % 64), Fin.ofNat 256 (0x80 + n % 64)]

/-- The UTF-8 bytes of a string, `high` being the high surrogate just read when the
next unit completes its pair. -/
def utf8From : Option CodeUnit → JsString → Bytes
  | _, [] => []
  | some h, c :: rest =>
    utf8Char (0x10000 + (h.val - 0xD800) * 0x400 + (c.val - 0xDC00)) ++ utf8From none rest
  | none, c :: rest =>
    if isHighSurrogate c && (rest.head?.map isLowSurrogate).getD false then utf8From (some c) rest
    else if isHighSurrogate c || isLowSurrogate c then utf8Char 0xFFFD ++ utf8From none rest
    else utf8Char c.val ++ utf8From none rest

def utf8 (s : JsString) : Bytes := utf8From none s

/-- No lone surrogate; `high` says that the unit before is a high surrogate. -/
def wellFormedFrom : Bool → JsString → Bool
  | high, [] => !high
  | true, c :: rest => isLowSurrogate c && wellFormedFrom false rest
  | false, c :: rest =>
    if isHighSurrogate c then wellFormedFrom true rest else !isLowSurrogate c && wellFormedFrom false rest

/-- `s.isWellFormed()`. -/
def isWellFormed (s : JsString) : Bool := wellFormedFrom false s

/-! ## `JSON.stringify` on strings -/

/-- The letter of the two-unit escapes. -/
def shortEscape (c : CodeUnit) : Option CodeUnit :=
  if c = 0x22 then some 0x22
  else if c = 0x5C then some 0x5C
  else if c = 0x08 then some 0x62
  else if c = 0x0C then some 0x66
  else if c = 0x0A then some 0x6E
  else if c = 0x0D then some 0x72
  else if c = 0x09 then some 0x74
  else none

/-- The escape sequence of a unit that may not stand for itself. -/
def escapeSeq (c : CodeUnit) : JsString :=
  match shortEscape c with
  | some l => [0x5C, l]
  | none => [0x5C, 0x75, hexDigit (c.val / 4096), hexDigit (c.val / 256 % 16),
      hexDigit (c.val / 16 % 16), hexDigit (c.val % 16)]

/-- A unit that is neither a quote, a backslash, a control nor half of a surrogate pair. -/
def isPlainUnit (c : CodeUnit) : Bool :=
  decide (0x20 ≤ c) && c != 0x22 && c != 0x5C && !isHighSurrogate c && !isLowSurrogate c

/-- The text between the quotes; `paired` says that the next unit is the low half of
a surrogate pair, which stands for itself. -/
def quoteFrom : Bool → JsString → JsString
  | _, [] => []
  | true, c :: rest => c :: quoteFrom false rest
  | false, c :: rest =>
    if isHighSurrogate c && (rest.head?.map isLowSurrogate).getD false then c :: quoteFrom true rest
    else if isPlainUnit c then c :: quoteFrom false rest
    else escapeSeq c ++ quoteFrom false rest

/-- `JSON.stringify(s)` for a string `s`. -/
def jsonQuote (s : JsString) : JsString := 0x22 :: (quoteFrom false s ++ [0x22])

example : jsonQuote (js "a\"b\n\u0001") = js "\"a\\\"b\\n\\u0001\"" := by decide

end EnigmaMemory
