import EnigmaMemory.Spec.Numeric
import EnigmaMemory.Spec.Optimizer
import EnigmaMemory.Spec.VerifyPack
import Mathlib.Data.Nat.Digits.Defs

/-!
# The visual context carrier

`visual-context.js`: a text is written with the glyphs of a font, with escapes for what has none, broken
into lines and drawn on pages. A font is what the code asks of the file it reads (`Font`); the drawing of a
page, which ends in zlib, is a parameter. The quotient in the estimate of image tokens is exact.
-/

namespace EnigmaMemory.VisualContext

structure Font where
  name : JsString
  cellWidth : ℕ
  cellHeight : ℕ
  cellWidth_pos : 0 < cellWidth
  cellHeight_pos : 0 < cellHeight
  /-- `glyphs.has(codePoint)`. -/
  hasGlyph : ℕ → Bool

/-! ## Escapes -/

/-- `character.codePointAt(0)`. -/
def codePointOf : JsString → ℕ
  | [] => 0
  | [c] => c.val
  | h :: l :: _ => if isHighSurrogate h && isLowSurrogate l then 0x10000 + (h.val - 0xD800) * 0x400 + (l.val - 0xDC00) else h.val

/-- An upper case hexadecimal digit. -/
def upperHexDigit (n : ℕ) : CodeUnit := Fin.ofNat 65536 (if n < 10 then 48 + n else 55 + n)

/-- `n.toString(16).toUpperCase()`. -/
def upperHex (n : ℕ) : JsString := if n = 0 then [48] else ((Nat.digits 16 n).map upperHexDigit).reverse

section

variable (font : Font)

def encodeCharacter (character : JsString) : JsString :=
  let codePoint := codePointOf character
  if character = [10] then [10]
  else if character = [92] then [92, 92]
  else if character = [9] then [92, 116]
  else if character = [13] then [92, 114]
  else if 32 ≤ codePoint ∧ font.hasGlyph codePoint = true then character
  else [92, 117, 123] ++ upperHex codePoint ++ [125]

def encodeVisualContextText (text : JsString) : JsString := (codePoints text).flatMap (encodeCharacter font)

end

def isUpperHexUnit (c : CodeUnit) : Bool := decide (48 ≤ c ∧ c ≤ 57 ∨ 65 ≤ c ∧ c ≤ 70)

/-- What is between here and the next closing brace. -/
def beforeBrace (s : JsString) : Option JsString := if 125 ∈ s then some (s.takeWhile (· ≠ 125)) else none

/-- What an escape stands for, and how many units it has behind the backslash. -/
def readEscape (F : NumberFormat) (index : ℕ) : JsString → Except JsError (JsString × ℕ)
  | 92 :: _ => .ok ([92], 1)
  | 116 :: _ => .ok ([9], 1)
  | 114 :: _ => .ok ([13], 1)
  | 117 :: 123 :: rest =>
    match beforeBrace rest with
    | none => .error ⟨.error, js "Invalid visual context Unicode escape"⟩
    | some hex =>
      if hex.all isUpperHexUnit && decide (1 ≤ hex.length ∧ hex.length ≤ 6) then
        let codePoint := (digitsValue 16 hex).getD 0
        if 0x10ffff < codePoint then .error ⟨.error, js "Visual context Unicode escape is out of range"⟩
        else .ok (utf16 codePoint, hex.length + 3)
      else .error ⟨.error, js "Invalid visual context Unicode escape"⟩
  | _ => .error ⟨.error, js "Invalid visual context escape at index " ++ F.numberText index⟩

/-- The loop of `decodeVisualContextText` at an index, some units being skipped. -/
def decodeFrom (F : NumberFormat) : ℕ → ℕ → JsString → Except JsError JsString
  | _, _, [] => .ok []
  | index, skip + 1, _ :: rest => decodeFrom F (index + 1) skip rest
  | index, 0, c :: rest =>
    if c ≠ 92 then (decodeFrom F (index + 1) 0 rest).map (c :: ·)
    else
      match readEscape F index rest with
      | .error e => .error e
      | .ok (decoded, length) => (decodeFrom F (index + 1) length rest).map (decoded ++ ·)

def decodeVisualContextText (F : NumberFormat) (encoded : JsString) : Except JsError JsString := decodeFrom F 0 0 encoded

/-! ## Lines -/

/-- A character or an escape of an encoded line. -/
structure Atom where
  text : JsString
  start : ℕ
  stop : ℕ
  cells : ℕ
  deriving DecidableEq

/-- The units of an escape behind the backslash. -/
def escapeLength : JsString → Except JsError ℕ
  | 117 :: 123 :: rest =>
    match beforeBrace rest with
    | none => .error ⟨.error, js "Invalid visual context Unicode escape"⟩
    | some hex => .ok (hex.length + 3)
  | _ => .ok 1

def firstCharacter : JsString → JsString
  | h :: l :: _ => if isHighSurrogate h && isLowSurrogate l then [h, l] else [h]
  | s => s

/-- The loop of `encodedAtoms` at an index, some units being skipped. -/
def atomsFrom : ℕ → ℕ → JsString → Except JsError (List Atom)
  | _, _, [] => .ok []
  | index, skip + 1, _ :: rest => atomsFrom (index + 1) skip rest
  | index, 0, c :: rest =>
    if c ≠ 92 then
      let text := firstCharacter (c :: rest)
      (atomsFrom (index + 1) (text.length - 1) rest).map (⟨text, index, index + text.length, 1⟩ :: ·)
    else
      match escapeLength rest with
      | .error e => .error e
      | .ok length =>
        let text := c :: rest.take length
        (atomsFrom (index + 1) length rest).map (⟨text, index, index + 1 + length, (codePoints text).length⟩ :: ·)

def encodedAtoms (line : JsString) : Except JsError (List Atom) := atomsFrom 0 0 line

structure Line where
  text : JsString
  start : ℕ
  stop : ℕ
  deriving DecidableEq

/-- The lines that are complete, and the one that is being filled. -/
structure Wrapping where
  wrapped : List Line
  text : JsString
  cells : ℕ
  start : ℕ
  stop : ℕ

def Wrapping.push (w : Wrapping) : List Line := w.wrapped ++ [⟨w.text, w.start, w.stop⟩]

def wrapAtom (columns absoluteOffset : ℕ) (w : Wrapping) (atom : Atom) : Wrapping :=
  if 0 < w.cells ∧ columns < w.cells + atom.cells then
    ⟨w.push, atom.text, atom.cells, absoluteOffset + atom.start, absoluteOffset + atom.stop⟩
  else { w with text := w.text ++ atom.text, cells := w.cells + atom.cells, stop := absoluteOffset + atom.stop }

/-- The lines that a line of the source is wrapped into. -/
def wrapAtoms (columns absoluteOffset : ℕ) : List Atom → List Line
  | [] => [⟨[], absoluteOffset, absoluteOffset⟩]
  | atom :: atoms =>
    let start := absoluteOffset + atom.start
    ((atom :: atoms).foldl (wrapAtom columns absoluteOffset) ⟨[], [], 0, start, start⟩).push

def wrapLines (columns : ℕ) : ℕ → List JsString → Except JsError (List Line)
  | _, [] => .ok []
  | absoluteOffset, sourceLine :: rest => do
    let atoms ← encodedAtoms sourceLine
    let more ← wrapLines columns (absoluteOffset + sourceLine.length + 1) rest
    return wrapAtoms columns absoluteOffset atoms ++ more

def wrapEncodedText (encoded : JsString) (columns : ℕ) : Except JsError (List Line) := wrapLines columns 0 (encoded.splitOn 10)

/-! ## Pages -/

def HEADER_ROWS : ℕ := 3

section

variable (F : NumberFormat)

/-- `integerOption(value, fallback, name, minimum, maximum)`. -/
def integerOption (value : Option Json) (fallback : ℕ) (name : String) (minimum maximum : ℕ) : Except JsError ℕ :=
  let wrong : JsError := ⟨.typeError, js name ++ js " must be an integer between " ++ F.numberText minimum ++ js " and " ++
    F.numberText maximum⟩
  match value with
  | none | some .null | some (.str []) => .ok fallback
  | some v =>
    match toNumeric F (some v) with
    | .finite q => if q.den = 1 ∧ minimum ≤ q ∧ q ≤ maximum then .ok q.num.toNat else .error wrong
    | _ => .error wrong

def positiveNumberOption (value : Option Json) (name : String) : Except JsError (Option ℚ) :=
  let wrong : JsError := ⟨.typeError, js name ++ js " must be a positive number"⟩
  match value with
  | none | some .null | some (.str []) => .ok none
  | some v =>
    match toNumeric F (some v) with
    | .finite q => if 0 < q then .ok (some q) else .error wrong
    | _ => .error wrong

def estimateVisualImageTokens (width height pageCount : ℕ) (pixelsPerToken : ℚ) : ℤ :=
  ⌈(width * height * pageCount : ℕ) / pixelsPerToken⌉

structure Layout where
  width : ℕ
  height : ℕ
  margin : ℕ
  columns : ℕ
  physical_rows : ℕ
  content_rows_per_page : ℕ
  line_repeat : ℕ
  palette : JsString

structure Page where
  page : ℕ
  encoded_character_start : ℕ
  encoded_character_end : ℕ
  content_line_start : ℕ
  content_line_end : ℕ
  png : Bytes

structure Carrier where
  carrier_id : JsString
  source_sha256 : JsString
  encoded_sha256 : JsString
  source_bytes : ℕ
  source_characters : ℕ
  encoded_characters : ℕ
  estimated_text_tokens : ℕ
  layout : Layout
  /-- The estimate, if a number of pixels for each token is given. -/
  image_tokens : Option ℤ
  pages : List Page
  encoded_text : JsString

variable (font : Font)

/-- The drawing of a page: the layout, the lines of the header and those of the content. -/
abbrev Drawing := Layout → List JsString → List JsString → Bytes

def tooSmall : JsError :=
  ⟨.error, js "Visual context dimensions are too small for the font, repetition, and carrier header"⟩

def paletteOf (value : Option Json) : Except JsError JsString :=
  match (Json.orElse value (some (.str (js "row6")))) with
  | some (.str s) => if s = js "bw" ∨ s = js "row6" then .ok s else .error ⟨.typeError, js "palette must be bw or row6"⟩
  | _ => .error ⟨.typeError, js "palette must be bw or row6"⟩

/-- The numbers of a layout, from the options. -/
def readLayout (input : Json) : Except JsError (Layout × ℕ × Option ℚ) := do
  let width ← integerOption F (input.get (js "width")) 1568 "width" 300 2048
  let height ← integerOption F (input.get (js "height")) 1568 "height" 200 2048
  let margin ← integerOption F (input.get (js "margin")) 4 "margin" 0 32
  let lineRepeat ← integerOption F (Json.orElse (input.get (js "line_repeat")) (input.get (js "lineRepeat"))) 2 "line_repeat" 1 4
  let maxPages ← integerOption F (Json.orElse (input.get (js "max_pages")) (input.get (js "maxPages"))) 16 "max_pages" 1 32
  let palette ← paletteOf (input.get (js "palette"))
  let pixelsPerToken ← positiveNumberOption F
    (Json.orElse (input.get (js "pixels_per_token")) (input.get (js "pixelsPerToken"))) "pixels_per_token"
  let columns := (width - margin * 2) / font.cellWidth
  let physicalRows := (height - margin * 2) / font.cellHeight
  let logicalRows := physicalRows / lineRepeat
  if columns < 24 ∨ logicalRows < HEADER_ROWS + 1 then throw tooSmall
  return (⟨width, height, margin, columns, physicalRows, logicalRows - HEADER_ROWS, lineRepeat, palette⟩, maxPages, pixelsPerToken)

def headerLines (columns page pageCount : ℕ) (sourceHash : JsString) : List JsString :=
  [js "ENIGMA VISUAL CONTEXT V1",
    js "PAGE " ++ F.numberText page ++ js "/" ++ F.numberText pageCount ++ js "  SRC " ++ (sourceHash.drop 7).take 16,
    js "UNICODE: \\u\x7bHEX\x7d  BACKSLASH: \\\\"].map fun line => ((codePoints line).take columns).flatten

def createPage (draw : Drawing) (layout : Layout) (sourceHash : JsString) (wrappedLines : List Line) (pageCount pageIndex : ℕ) : Page :=
  let startLine := pageIndex * layout.content_rows_per_page
  let contentLines := (wrappedLines.drop startLine).take layout.content_rows_per_page
  let first := contentLines.head?.getD ⟨[], 0, 0⟩
  let last := contentLines.getLast?.getD first
  { page := pageIndex + 1
    encoded_character_start := first.start
    encoded_character_end := last.stop
    content_line_start := startLine + 1
    content_line_end := startLine + contentLines.length
    png := draw layout (headerLines F layout.columns (pageIndex + 1) pageCount sourceHash) (contentLines.map (·.text)) }

def carrierSeed (sourceHash encodedHash : JsString) (layout : Layout) : Json :=
  .obj [(js "schema", .str (js "enigma.visual_context_carrier.v1")), (js "source_sha256", .str sourceHash),
    (js "encoded_sha256", .str encodedHash), (js "width", .num layout.width), (js "height", .num layout.height),
    (js "margin", .num layout.margin), (js "line_repeat", .num layout.line_repeat), (js "palette", .str layout.palette)]

/-- `Math.max(1, Math.ceil(lines / rows))`. -/
def pageCountOf (lines rows : ℕ) : ℕ := max 1 ((lines + rows - 1) / rows)

/-- The text of the options. -/
def readText (input : Json) : Except JsError JsString :=
  match input with
  | .obj fs =>
    match (Json.obj fs).get (js "text") with
    | some (.str text) => .ok text
    | _ => .error ⟨.typeError, js "createVisualContextCarrier requires text as a string"⟩
  | _ => .error ⟨.typeError, js "createVisualContextCarrier requires an options object"⟩

def createVisualContextCarrier (draw : Drawing) (input : Json) : Except JsError Carrier := do
  let text ← readText input
  let (layout, maxPages, pixelsPerToken) ← readLayout F font input
  let encodedText := encodeVisualContextText font text
  let wrappedLines ← wrapEncodedText encodedText layout.columns
  let pageCount := pageCountOf wrappedLines.length layout.content_rows_per_page
  if maxPages < pageCount then
    throw ⟨.error, js "Visual context requires " ++ F.numberText pageCount ++ js " pages, exceeding max_pages " ++ F.numberText maxPages⟩
  let sourceHash := prefixedSha256 text
  let encodedHash := prefixedSha256 encodedText
  return {
    carrier_id := js "vctx_" ++ (sha256Hex ((carrierSeed sourceHash encodedHash layout).stringify F)).take 32
    source_sha256 := sourceHash
    encoded_sha256 := encodedHash
    source_bytes := (utf8 text).length
    source_characters := (codePoints text).length
    encoded_characters := (codePoints encodedText).length
    estimated_text_tokens := MemoryPlan.countTokens 0 text
    layout
    image_tokens := pixelsPerToken.map (estimateVisualImageTokens layout.width layout.height pageCount)
    pages := (List.range pageCount).map (createPage F draw layout sourceHash wrappedLines pageCount)
    encoded_text := encodedText }

end

end EnigmaMemory.VisualContext
