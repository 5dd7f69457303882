import EnigmaMemory.Lib.Ordered
import EnigmaMemory.Spec.MerkleSet
import EnigmaMemory.Spec.Numeric
import EnigmaMemory.Spec.Platform
import EnigmaMemory.Spec.Sanitize

/-!
# Reports of imports

`packages/importers/src/index.js`: what the importers, the previews and the capsules share. Reports are JSON values, on which
`canonicalize` never throws.
-/

namespace EnigmaMemory.Importers

open Json

variable (P : Platform)

def DEFAULT_NOW : JsString := js "1970-01-01T00:00:00.000Z"

def isRecord (value : Json) : Bool := value.isPlainRecord

/-- `typeof value === 'string'`. -/
def isText : Option Json → Bool
  | some (.str _) => true
  | _ => false

/-- The text of a JSON value that is one. -/
def text? : Option Json → Option JsString
  | some (.str s) => some s
  | _ => none

/-- `value ?? fallback`. -/
def given (value : Option Json) (fallback : Json) : Json := (orElse value none).getD fallback

def asArray : Option Json → List Json
  | none | some .null => []
  | some (.arr xs) => xs
  | some value => [value]

def stable (value : Json) : JsString := value.canonicalize P.toNumberFormat

/-- The text of a value that is hashed: a string as it is. -/
def hashedText : Json → JsString
  | .str s => s
  | value => stable P value

def rootOf (value : Json) : JsString := prefixedSha256 (hashedText P value)

def shortHash (value : Json) : JsString := (sha256Hex (hashedText P value)).take 32

def nowFrom : Now → Except JsError JsString
  | .absent => nowIso P 0 (.text DEFAULT_NOW)
  | now => nowIso P 0 now

/-- The texts of values, trimmed, each once; `values` are given. -/
def uniqueStrings (values : List Json) : List JsString :=
  (OrdSet.ofList ((values.map fun value => trim ((given (some value) (.str [])).toText P.toNumberFormat)).filter (· ≠ []))).elems

/-! ## Confidence -/

inductive Confidence where
  | low
  | medium
  | high
  | source_asserted
  | user_confirmed
  deriving DecidableEq, Repr

def Confidence.text : Confidence → JsString
  | low => js "low"
  | medium => js "medium"
  | high => js "high"
  | source_asserted => js "source_asserted"
  | user_confirmed => js "user_confirmed"

/-- The levels by increasing confidence. -/
def CONFIDENCE_ORDER : List Confidence := [.low, .medium, .high, .source_asserted, .user_confirmed]

/-- `replace(/[^a-z_]/g, '_')`. -/
def confidenceUnit (c : CodeUnit) : CodeUnit := if isLowerUnit c then c else 95

def normalizeConfidence (value : Option Json) (fallback : Confidence) : Confidence :=
  match value with
  | some (.str s) =>
    let normalized := (toLowerCase s).map confidenceUnit
    match CONFIDENCE_ORDER.find? fun level => level.text == normalized with
    | some level => level
    | none =>
      if normalized = js "certain" then .high
      else if normalized = js "maybe" ∨ normalized = js "inferred" then .low
      else fallback
  | _ => fallback

/-! ## References -/

/-- A unit of `[A-Za-z0-9._~:@#?=&%+-]`. -/
def isRefChar (c : CodeUnit) : Bool := isLowerUnit c || isUpperUnit c || isDigitUnit c || decide (c ∈ js "._~:@#?=&%+-")

/-- `replace(/[^A-Za-z0-9._~:@#?=&%+-]/gu, '_')`: the two units of a pair are replaced together. -/
def maskRef : JsString → JsString
  | [] => []
  | [c] => [if isRefChar c then c else 95]
  | c :: d :: rest =>
    if isHighSurrogate c && isLowSurrogate d then 95 :: maskRef rest
    else (if isRefChar c then c else 95) :: maskRef (d :: rest)

/-- The reports of an input: a list, a report, or what stands under `reports` or `report`. -/
def normalizeReportsForPreview (input : Json) : List Json :=
  match input with
  | .arr xs => xs.filter isRecord
  | .obj fs =>
    match (Json.obj fs).get (js "reports"), (Json.obj fs).get (js "report") with
    | some (.arr xs), _ => xs.filter isRecord
    | _, some (.arr xs) => xs.filter isRecord
    | _, _ => [.obj fs]
  | _ => []

def reportRef (report : Json) (index : ℕ) : JsString :=
  js "ref:import-report:" ++
    (given (report.get (js "report_id")) (.str (shortHash P (.obj [(js "index", .num index), (js "report", report)])))).toText
      P.toNumberFormat

end EnigmaMemory.Importers
