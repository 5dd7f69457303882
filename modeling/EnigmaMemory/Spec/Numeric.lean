import EnigmaMemory.Spec.Json

/-!
# Conversion to numbers

What JavaScript does when a value that need not be a number is compared or subtracted:
`Number(value)` with its reading of strings, and `a > b`, which compares two strings as texts
and all else as numbers.
-/

namespace EnigmaMemory

/-- The result of a conversion to a number. -/
inductive Numeric where
  | nan
  | negInf
  | finite (q : ℚ)
  | posInf
  deriving DecidableEq

namespace Numeric

/-- `a < b`; `NaN` is less than nothing, and nothing is less than it. -/
def lt : Numeric → Numeric → Bool
  | nan, _ | _, nan => false
  | negInf, negInf => false
  | negInf, _ => true
  | finite a, finite b => decide (a < b)
  | finite _, posInf => true
  | finite _, negInf => false
  | posInf, _ => false

def neg : Numeric → Numeric
  | nan => nan
  | negInf => posInf
  | finite q => finite (-q)
  | posInf => negInf

end Numeric

/-! ## Strings -/

/-- White space and line ends, as `trim` and `\s` know them. -/
def whiteRanges : List (ℕ × ℕ) :=
  [(9, 13), (32, 32), (160, 160), (0x1680, 0x1680), (0x2000, 0x200A), (0x2028, 0x2029), (0x202F, 0x202F),
    (0x205F, 0x205F), (0x3000, 0x3000), (0xFEFF, 0xFEFF)]

def isWhite (c : CodeUnit) : Bool := whiteRanges.any fun r => decide (r.1 ≤ c.val) && decide (c.val ≤ r.2)

/-- `s.trim()`. -/
def trim (s : JsString) : JsString := ((s.dropWhile isWhite).reverse.dropWhile isWhite).reverse

/-- The value of a digit in bases up to 16. -/
def digitValue (c : CodeUnit) : Option ℕ :=
  if 48 ≤ c.val ∧ c.val ≤ 57 then some (c.val - 48)
  else if 97 ≤ c.val ∧ c.val ≤ 102 then some (c.val - 87)
  else if 65 ≤ c.val ∧ c.val ≤ 70 then some (c.val - 55)
  else none

/-- The value of digits in a base; none, or one that is too large, is an error. -/
def digitsValue (base : ℕ) (s : JsString) : Option ℕ :=
  if s.isEmpty then none
  else s.foldl (fun out c => out.bind fun n => ((digitValue c).filter (decide <| · < base)).map (n * base + ·)) (some 0)

/-- The rest of a decimal literal after its digits: nothing, or an exponent. -/
def exponentPart (mantissa : ℚ) : JsString → Option ℚ
  | [] => some mantissa
  | c :: rest =>
    if c = 101 ∨ c = 69 then
      match rest with
      | 43 :: digits => (digitsValue 10 digits).map fun n => mantissa * 10 ^ n
      | 45 :: digits => (digitsValue 10 digits).map fun n => mantissa / 10 ^ n
      | digits => (digitsValue 10 digits).map fun n => mantissa * 10 ^ n
    else none

/-- A decimal literal without sign. -/
def decimalLiteral (s : JsString) : Option ℚ :=
  let whole := s.takeWhile isDigit
  match s.dropWhile isDigit with
  | 46 :: rest =>
    let fraction := rest.takeWhile isDigit
    (digitsValue 10 (whole ++ fraction)).bind fun n =>
      exponentPart ((n : ℚ) / 10 ^ fraction.length) (rest.dropWhile isDigit)
  | rest => (digitsValue 10 whole).bind fun n => exponentPart n rest
where
  isDigit (c : CodeUnit) : Bool := decide (48 ≤ c.val ∧ c.val ≤ 57)

def unsignedNumeric (s : JsString) : Numeric :=
  if s = js "Infinity" then .posInf
  else
    match decimalLiteral s with
    | some q => .finite q
    | none => .nan

/-- `Number(s)` for a string. -/
def stringToNumber (s : JsString) : Numeric :=
  match trim s with
  | [] => .finite 0
  | 48 :: c :: digits =>
    let base := if c = 120 ∨ c = 88 then 16 else if c = 111 ∨ c = 79 then 8 else if c = 98 ∨ c = 66 then 2 else 0
    if base = 0 then unsignedNumeric (48 :: c :: digits)
    else
      match digitsValue base digits with
      | some n => .finite n
      | none => .nan
  | 43 :: rest => unsignedNumeric rest
  | 45 :: rest => (unsignedNumeric rest).neg
  | t => unsignedNumeric t

example : stringToNumber (js " -1.50e2 ") = .finite (-150) := by decide +kernel

/-! ## Values -/

variable (F : NumberFormat)

/-- A value as a primitive: arrays and objects become texts. -/
def toPrimitive : Json → Json
  | .arr xs => .str ((Json.arr xs).toText F)
  | .obj fs => .str ((Json.obj fs).toText F)
  | j => j

/-- `Number(value)`; a missing value is `NaN`. -/
def toNumeric (value : Option Json) : Numeric :=
  match value.map (toPrimitive F) with
  | some .null => .finite 0
  | some (.bool b) => .finite (if b then 1 else 0)
  | some (.num q) => .finite q
  | some (.str s) => stringToNumber s
  | _ => .nan

/-- `a > b`. -/
def greater (a b : Option Json) : Bool :=
  match a.map (toPrimitive F), b.map (toPrimitive F) with
  | some (.str s), some (.str t) => decide (t < s)
  | _, _ => (toNumeric F b).lt (toNumeric F a)

@[simp] theorem toNumeric_num (q : ℚ) : toNumeric F (some (.num q)) = .finite q := rfl

@[simp] theorem greater_num (a b : ℚ) : greater F (some (.num a)) (some (.num b)) = decide (b < a) := rfl

end EnigmaMemory
