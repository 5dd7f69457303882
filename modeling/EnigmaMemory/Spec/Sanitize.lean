import EnigmaMemory.Spec.Platform
import EnigmaMemory.Spec.Sha256

/-!
# What leaves the vault

The filters of `packages/vault` between private values and what is stored beside the
ciphertext, exported or put into events: plaintext-like keys are dropped, strings are
replaced by their digests, metadata is kept only where it is a count or a digest. The
last section is the scan that a receipt has to pass.
-/

namespace EnigmaMemory

open Json

variable (F : NumberFormat)

/-! ## Keys -/

/-- `toLowerCase`, as far as its callers can see: they look for the letters `a-z` in the
result. Beside `A-Z` only the Kelvin sign and the dotted capital I have one. -/
def lowerUnit (c : CodeUnit) : JsString :=
  if 65 ≤ c ∧ c ≤ 90 then [c + 32]
  else if c = 0x212A then [0x6B]
  else if c = 0x130 then [0x69, 0x307]
  else [c]

def toLowerCase (s : JsString) : JsString := s.flatMap lowerUnit

def isDigitUnit (c : CodeUnit) : Bool := decide (48 ≤ c ∧ c ≤ 57)

def isLowerUnit (c : CodeUnit) : Bool := decide (97 ≤ c ∧ c ≤ 122)

def isUpperUnit (c : CodeUnit) : Bool := decide (65 ≤ c ∧ c ≤ 90)

def normalizedPublicKey (key : JsString) : JsString :=
  (toLowerCase key).filter fun c => isLowerUnit c || isDigitUnit c

def publicPlaintextKeys : List JsString :=
  [js "body", js "content", js "context", js "contexttext", js "description", js "memory", js "memories", js "note",
    js "notes", js "plain", js "plaintext", js "prompt", js "raw", js "rawmemory", js "rawmemories", js "response",
    js "summary", js "text"]

/-- A key that names plaintext, by a given list of names. -/
def isPlaintextKeyOf (names : List JsString) (key : JsString) : Bool := decide (normalizedPublicKey key ∈ names)

def isPlaintextLikeKey (key : JsString) : Bool := isPlaintextKeyOf publicPlaintextKeys key

def privateCommitmentKey (key : JsString) : JsString :=
  js "private_field_" ++ (sha256Hex (normalizedPublicKey key)).take 12 ++ js "_commitment"

/-- `replace(/([a-z0-9])([A-Z])/g, '$1_$2')`. -/
def splitCamel : JsString → JsString
  | c :: d :: rest =>
    if (isLowerUnit c || isDigitUnit c) && isUpperUnit d then c :: 95 :: splitCamel (d :: rest)
    else c :: splitCamel (d :: rest)
  | s => s

/-- `replace(/[^A-Za-z0-9]+/g, '_')`; `gap` says that the run before has been written. -/
def underscoreRuns : Bool → JsString → JsString
  | _, [] => []
  | gap, c :: rest =>
    if isLowerUnit c || isUpperUnit c || isDigitUnit c then c :: underscoreRuns false rest
    else if gap then underscoreRuns true rest else 95 :: underscoreRuns true rest

/-- `replace(/^_+|_+$/g, '')`. -/
def trimUnderscores (s : JsString) : JsString := ((s.dropWhile (· == 95)).reverse.dropWhile (· == 95)).reverse

def metadataKeyStem (key : JsString) : JsString :=
  let stem := toLowerCase (trimUnderscores (underscoreRuns false (splitCamel key)))
  if stem = [] then js "field_" ++ (sha256Hex key).take 12 else stem

def metadataCommitmentKey (key : JsString) : JsString := metadataKeyStem key ++ js "_commitment"

example : metadataCommitmentKey (js "_policyId.v2_") = js "policy_id_v2_commitment" := by decide

/-! ## Metadata -/

def isMetadataPrimitive : Json → Bool
  | .arr _ | .obj _ => false
  | _ => true

/-- `SAFE_METADATA_DIGEST_RE`. -/
def isSafeDigest (s : JsString) : Bool :=
  isRoot s || isHash s || ((js "hmac-sha256:").isPrefixOf s && isHash (s.drop 12))

def isSafeMetadataPrimitive (key : JsString) (value : Json) : Bool :=
  if isPlaintextLikeKey key then false
  else if (js "_count").isSuffixOf key then
    match value with
    | .num _ => true
    | _ => false
  else if (js "_commitment").isSuffixOf key || (js "_hash").isSuffixOf key then
    match value with
    | .str s => isSafeDigest s
    | _ => false
  else false

/-- `Object.entries(value)`. -/
def entries : Json → List (JsString × Json)
  | .obj fs => fs
  | .arr xs => xs.zipIdx.map fun x => (F.numberText x.2, x.1)
  | _ => []

def metadataEntry (out : Json) (e : JsString × Json) : Json :=
  if isMetadataPrimitive e.2 then
    if isSafeMetadataPrimitive e.1 e.2 then out.set e.1 e.2
    else out.set (metadataCommitmentKey e.1) (.str (prefixedSha256 (e.2.toText F)))
  else out.set (metadataCommitmentKey e.1) (.str (prefixedSha256 (e.2.canonicalize F)))

/-- `metadata(input)`. -/
def metadata (input : Option Json) : Json :=
  match input with
  | some j => (entries F j).foldl (metadataEntry F) (.obj [])
  | none => .obj []

/-! ## Source references -/

mutual
/-- `sanitizeSourceRefValue(value)`; `none` is `undefined`. The packages differ in the
`names` of plaintext keys. -/
def sanitizeSourceRefValue (names : List JsString) : Json → Option Json
  | .null => none
  | .bool b => some (.bool b)
  | .num q => some (.num q)
  | .str s => some (.str (prefixedSha256 s))
  | .arr xs => some (.arr (sanitizeSourceRefItems names xs))
  | .obj fs =>
    let out := sanitizeSourceRefFields names (.obj []) fs
    if out.fields.isEmpty then none else some out

def sanitizeSourceRefItems (names : List JsString) : List Json → List Json
  | [] => []
  | x :: xs => (sanitizeSourceRefValue names x).toList ++ sanitizeSourceRefItems names xs

def sanitizeSourceRefFields (names : List JsString) (out : Json) : List (JsString × Json) → Json
  | [] => out
  | (key, item) :: rest =>
    if isPlaintextKeyOf names key || normalizedPublicKey key == js "value" then
      match item with
      | .null | .arr _ | .obj _ => sanitizeSourceRefFields names out rest
      | _ => sanitizeSourceRefFields names
          (out.set (privateCommitmentKey key) (.str (prefixedSha256 (item.toText F)))) rest
    else if key = js "source_hash" ∧ (match item with | .str s => isRoot s | _ => false) = true then
      sanitizeSourceRefFields names (out.set key item) rest
    else
      match sanitizeSourceRefValue names item with
      | some v => sanitizeSourceRefFields names (out.set key v) rest
      | none => sanitizeSourceRefFields names out rest
end

def sanitizeSourceRef (names : List JsString) : Json → List Json
  | .str s => [.obj [(js "source_hash", .str (prefixedSha256 s))]]
  | ref => (sanitizeSourceRefValue F names ref).toList

def sanitizeSourceRefs (names : List JsString) (refs : Option Json) : List Json :=
  match refs with
  | some (.arr xs) => xs.flatMap (sanitizeSourceRef F names)
  | _ => []

/-! ## Public values -/

mutual
/-- `sanitizePublicValue(value)`. -/
def sanitizePublicValue : Json → Json
  | .arr xs => .arr (sanitizePublicItems xs)
  | .obj fs => sanitizePublicFields (.obj []) fs
  | value => value

def sanitizePublicItems : List Json → List Json
  | [] => []
  | x :: xs => sanitizePublicValue x :: sanitizePublicItems xs

def sanitizePublicFields (out : Json) : List (JsString × Json) → Json
  | [] => out
  | (key, item) :: rest =>
    if isPlaintextLikeKey key then sanitizePublicFields out rest
    else if key = js "metadata" then sanitizePublicFields (out.set (js "metadata") (metadata F (some item))) rest
    else if key = js "source_refs" ∨ key = js "sourceRefs" then
      sanitizePublicFields (out.set (js "source_refs")
        (.arr (sanitizeSourceRefs F publicPlaintextKeys (some item)))) rest
    else sanitizePublicFields (out.set key (sanitizePublicValue item)) rest
end

/-- `publicRecord(record)`. -/
def publicRecord (record : Json) : Json := sanitizePublicValue F record

/-! ## The scan of receipts -/

/-- `s.includes(marker)`. -/
def includes (marker : JsString) : JsString → Bool
  | [] => marker.isEmpty
  | c :: rest => marker.isPrefixOf (c :: rest) || includes marker rest

def plaintextMarkers : List JsString := [js "plaintext", js "content\":", js "text\":"]

def containsPlaintextMarker (value : Json) : Bool :=
  plaintextMarkers.any fun marker => includes marker (toLowerCase (value.stringify F))

end EnigmaMemory
