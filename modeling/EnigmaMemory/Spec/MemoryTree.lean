import Mathlib.Data.Rat.Floor
import EnigmaMemory.Lib.DuplicatedTree
import EnigmaMemory.Spec.Numeric
import EnigmaMemory.Spec.Platform
import EnigmaMemory.Spec.Sha256

/-!
# The memory tree

The Merkle tree over encrypted records and its inclusion proofs (`verify.mjs`). A proof is any JSON
value. What Node makes of an array or an object that is read as a buffer is a parameter
(`bufferOf`), and the texts of the exceptions that it throws itself are left out.

The last section lists the byte strings that are hashed.
-/

namespace EnigmaMemory.MemoryTree

open HashTree (Side)

/-! ## Bytes -/

def sha256 (bufs : List Bytes) : Bytes := Sha256.bytes (Sha256.digest bufs.flatten)

/-- `buf.toString("hex")`. -/
def hex (b : Bytes) : JsString := b.flatMap fun x => [hexDigit (x.val / 16), hexDigit (x.val % 16)]

/-- `Buffer.from(s, "hex")`: the pairs of digits before the first that is none. -/
def ofHex : JsString → Bytes
  | a :: b :: rest =>
    match digitValue a, digitValue b with
    | some x, some y => Fin.ofNat 256 (16 * x + y) :: ofHex rest
    | _, _ => []
  | _ => []

/-- An exception of Node. -/
def nodeError : JsError := ⟨.typeError, []⟩

/-- `Buffer.from(value, encoding)`, `decode` being what the encoding says of a string. -/
def bufferFrom (bufferOf : Json → Except JsError Bytes) (decode : JsString → Bytes) : Option Json → Except JsError Bytes
  | some (.str s) => .ok (decode s)
  | some (.arr xs) => bufferOf (.arr xs)
  | some (.obj fs) => bufferOf (.obj fs)
  | _ => .error nodeError

/-! ## Trees -/

/-- A record as the store keeps it, in base64. -/
structure MemoryRecord where
  key : JsString
  ciphertext : JsString
  iv : JsString
  tag : JsString

/-- What a leaf commits to. -/
structure Payload where
  key : JsString
  ciphertext : Bytes
  iv : Bytes
  tag : Bytes
  deriving DecidableEq

/-- The bytes of a leaf, after its prefix. -/
def Payload.run (p : Payload) : Bytes := utf8 p.key ++ p.ciphertext ++ p.iv ++ p.tag

def hashPayload (p : Payload) : Bytes := sha256 [[0x00], utf8 p.key, p.ciphertext, p.iv, p.tag]

def hashNode (left right : Bytes) : Bytes := sha256 [[0x01], left, right]

/-- The loop of `buildTree`, the level above the others first. -/
def buildLevels : ℕ → List (List Bytes) → List (List Bytes)
  | 0, levels => levels
  | fuel + 1, levels =>
    if 1 < (levels.headD []).length then buildLevels fuel (HashTree.pairDup hashNode (levels.headD []) :: levels)
    else levels

structure Tree where
  root : Bytes
  levels : List (List Bytes)

def buildTree (leaves : List Bytes) : Tree :=
  if leaves = [] then ⟨sha256 [[]], [[]]⟩
  else
    let levels := buildLevels leaves.length [leaves]
    ⟨(levels.headD []).headD [], levels⟩

variable (P : Platform)

/-- The payload of a record of the store. -/
def MemoryRecord.payload (r : MemoryRecord) : Payload where
  key := r.key
  ciphertext := P.ofBase64 r.ciphertext
  iv := P.ofBase64 r.iv
  tag := P.ofBase64 r.tag

def sortRecords (records : List MemoryRecord) : List MemoryRecord := records.insertionSort fun a b => P.localeLe a.key b.key

def leafHashes (records : List MemoryRecord) : List Bytes :=
  (sortRecords P records).map fun r => hashPayload (r.payload P)

/-- `buildMemoryMerkleTree(records)`, without its `prove`. -/
def buildMemoryMerkleTree (records : List MemoryRecord) : Tree := buildTree (leafHashes P records)

/-! ## Proofs -/

def siblingJson (s : Side × Bytes) : Json := .obj [(js "hash", .str (hex s.2)), (js "isRight", .bool (s.1 = .right))]

/-- The loop of `prove`, over the levels from the leaves up to the one below the root. -/
def siblingsFrom : List (List Bytes) → ℕ → List (Side × Bytes)
  | level :: next :: above, index =>
    let isRight := index % 2 = 1
    let siblingIndex := if isRight then index - 1 else index + 1
    let siblingHash := (level[siblingIndex]?.or level[index]?).getD []
    (if isRight then Side.left else .right, siblingHash) :: siblingsFrom (next :: above) (index / 2)
  | _, _ => []

/-- `keyToIndex.get(key)`: of several records with one key the last. -/
def keyToIndex (sorted : List MemoryRecord) (key : JsString) : Option ℕ :=
  (sorted.reverse.findIdx? (·.key = key)).map (sorted.length - 1 - ·)

def recordJson (r : MemoryRecord) : Json :=
  .obj [(js "ciphertext", .str r.ciphertext), (js "iv", .str r.iv), (js "tag", .str r.tag)]

def prove (records : List MemoryRecord) (key : JsString) : Option Json := do
  let sorted := sortRecords P records
  let tree := buildMemoryMerkleTree P records
  let leafIndex ← keyToIndex sorted key
  let record ← sorted[leafIndex]?
  return .obj [(js "root", .str (hex tree.root)), (js "record", recordJson record),
    (js "leafHash", .str (hex (hashPayload (record.payload P)))),
    (js "siblings", .arr ((siblingsFrom tree.levels.reverse leafIndex).map siblingJson)), (js "index", .num leafIndex)]

/-! ## Verification -/

variable (bufferOf : Json → Except JsError Bytes)

/-- What `hashLeaf(key, record)` hashes, for the record of a proof. -/
def payloadOf (key : JsString) (record : Json) : Except JsError Payload := do
  let ciphertext ← bufferFrom bufferOf P.ofBase64 (record.get (js "ciphertext"))
  let iv ← bufferFrom bufferOf P.ofBase64 (record.get (js "iv"))
  let tag ← bufferFrom bufferOf P.ofBase64 (record.get (js "tag"))
  return { key, ciphertext, iv, tag }

/-- `typeof value === "object"`, of a value that is not `null`. -/
def isObject : Json → Bool
  | .arr _ | .obj _ => true
  | _ => false

/-- The items of `for (const item of value)`. -/
def items : Option Json → Except JsError (List Json)
  | some (.arr xs) => .ok xs
  | some (.str s) => .ok (s.map fun c => .str [c])
  | _ => .error nodeError

/-- `index % 2 === 1`. -/
def isOdd : Numeric → Bool
  | .finite q => decide (0 ≤ q ∧ q - 2 * ⌊q / 2⌋ = 1)
  | _ => false

/-- `Math.floor(index / 2)`. -/
def half : Numeric → Numeric
  | .finite q => .finite ⌊q / 2⌋
  | n => n

/-- The sibling of one turn of the loop, with its side. -/
def readSibling (index : Numeric) (sibling : Json) : Except JsError (Side × Bytes) := do
  let siblingBuf ← bufferFrom bufferOf ofHex (sibling.get (js "hash"))
  if siblingBuf.length = 32 then return (if isOdd index then .left else .right, siblingBuf)
  else throw ⟨.typeError, js "sibling hash must be 32 bytes"⟩

/-- The loop over the siblings. -/
def replay : Numeric → Bytes → List Json → Except JsError Bytes
  | _, current, [] => .ok current
  | index, current, sibling :: rest => do
    let s ← readSibling bufferOf index sibling
    replay (half index) (HashTree.step hashNode current s) rest

/-- `proof.index ?? 0`. -/
def proofIndex (proof : Json) : Numeric := toNumeric P.toNumberFormat (Json.orElse (proof.get (js "index")) (some (.num 0)))

/-- A field that a proof must have. -/
def proofField (proof : Json) (key : String) : Except JsError Json :=
  match proof.get (js key) with
  | some value => if Json.truthy (some value) then .ok value else .error missing
  | none => .error missing
where
  missing : JsError := ⟨.typeError, js "proof must contain root, record and siblings"⟩

def checkObject (proof : Json) : Except JsError Unit :=
  if isObject proof then .ok () else .error ⟨.typeError, js "proof must be an object"⟩

def verify (key : JsString) (proof : Json) : Except JsError Bool := do
  checkObject proof
  let record ← proofField proof "record"
  let siblings ← proofField proof "siblings"
  let root ← proofField proof "root"
  let payload ← payloadOf P bufferOf key record
  let siblings ← items (some siblings)
  let current ← replay bufferOf (proofIndex P proof) (hashPayload payload) siblings
  return Json.isStr (some root) (hex current)

/-! ## What is hashed -/

def leafText (run : Bytes) : Bytes := 0x00 :: run

def nodeText (left right : Bytes) : Bytes := 0x01 :: (left ++ right)

/-- The byte strings hashed for a tree. -/
def treeTexts (records : List MemoryRecord) : List Bytes :=
  if records = [] then [[]]
  else
    (sortRecords P records).map (fun r => leafText (r.payload P).run) ++
      HashTree.dupLevelTexts nodeText (buildMemoryMerkleTree P records).levels.reverse

/-- The byte strings hashed in the loop. -/
def replayTexts : Numeric → Bytes → List Json → List Bytes
  | _, _, [] => []
  | index, current, sibling :: rest =>
    match readSibling bufferOf index sibling with
    | .ok (.left, b) => nodeText b current :: replayTexts (half index) (hashNode b current) rest
    | .ok (.right, b) => nodeText current b :: replayTexts (half index) (hashNode current b) rest
    | .error _ => []

/-- The byte strings hashed by `verify`. -/
def verifyTexts (key : JsString) (proof : Json) : List Bytes :=
  match (proof.get (js "record")).map (payloadOf P bufferOf key) with
  | some (.ok payload) =>
    leafText payload.run ::
      match items (proof.get (js "siblings")) with
      | .ok siblings => replayTexts bufferOf (proofIndex P proof) (hashPayload payload) siblings
      | .error _ => []
  | _ => []

end EnigmaMemory.MemoryTree
