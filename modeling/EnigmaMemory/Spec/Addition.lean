import EnigmaMemory.Lib.Double
import EnigmaMemory.Spec.Numeric

/-!
# Sums

What becomes of a total that starts as a number and to which values are added by `+=`: as soon as one of them is a
string, an array or an object, the total is a text. The exact result of an addition of numbers is represented as
`represent` says: by the nearest double, or by itself where numbers are read as exact.
-/

namespace EnigmaMemory

/-- The double nearest to a number. -/
def nearestDouble (q : ℚ) : Numeric :=
  if Double.inRange (Double.round q) then .finite (Double.round q) else if 0 < q then .posInf else .negInf

namespace Numeric

variable (represent : ℚ → Numeric)

def add : Numeric → Numeric → Numeric
  | finite a, finite b => represent (a + b)
  | nan, _ | _, nan => nan
  | posInf, negInf | negInf, posInf => nan
  | posInf, _ | _, posInf => posInf
  | _, _ => negInf

end Numeric

/-- A total. -/
inductive Total where
  | number (n : Numeric)
  | text (s : JsString)
  deriving DecidableEq

namespace Total

/-- The total as the digest of an artifact shows it. -/
def toJson : Total → Json
  | number (.finite q) => .num q
  | number _ => .null
  | text s => .str s

variable (F : NumberFormat) (represent : ℚ → Numeric)

def toText : Total → JsString
  | number (.finite q) => F.numberText q
  | number .nan => js "NaN"
  | number .posInf => js "Infinity"
  | number .negInf => js "-Infinity"
  | text s => s

/-- `total += value`. -/
def plus (total : Total) (value : Option Json) : Total :=
  match total, value.map (toPrimitive F) with
  | text s, none => text (s ++ js "undefined")
  | text s, some v => text (s ++ v.toText F)
  | number n, some (.str s) => text ((number n).toText F ++ s)
  | number n, _ => number (n.add represent (toNumeric F value))

/-- The total of some values. -/
def sumUp (values : List (Option Json)) : Total := values.foldl (plus F represent) (number (.finite 0))

end Total

end EnigmaMemory
