import EnigmaMemory.Lib.HashTree
import EnigmaMemory.Lib.Ordered
import EnigmaMemory.Spec.Json
import EnigmaMemory.Spec.Sha256

/-!
# Merkle sets

`MerkleSet` of `packages/core`: a set of strings whose root is taken over the sorted
values, with membership proofs (a sibling path) and non-membership proofs (the
membership proofs of the two neighbours). The verifiers take any JSON value as a
proof. An index or a size is an exact number, and the binary search halves exactly
(`>> 1` on the positions of an array).

The last section lists the texts that a root computation or a verification hashes.
-/

namespace EnigmaMemory

open HashTree (Side)

/-! ## Roots -/

def merkleLeafText (value : JsString) : JsString := js "enigma.merkle.leaf.v1\x00" ++ value

def merkleNodeText (left right : JsString) : JsString := js "enigma.merkle.node.v1\x00" ++ left ++ 0 :: right

def merkleEmptyText : JsString := js "enigma.merkle.empty.v1"

def merkleLeafHash (value : JsString) : JsString := sha256Hex (merkleLeafText value)

def merkleNodeHash (left right : JsString) : JsString := sha256Hex (merkleNodeText left right)

def emptyMerkleRoot : JsString := prefixedSha256 merkleEmptyText

def nextMerkleLevel (level : List JsString) : List JsString := HashTree.pairUp merkleNodeHash level

/-- The digest left after the loop over the levels. -/
def merkleTop (values : List JsString) : JsString :=
  (HashTree.reduce merkleNodeHash values.length (values.map merkleLeafHash)).headD []

def merkleRoot (values : List JsString) : JsString :=
  if values = [] then emptyMerkleRoot else sha256Prefix ++ merkleTop values

/-- The `Set` behind a `MerkleSet`. -/
abbrev MerkleSet := OrdSet JsString

namespace MerkleSet

/-- The mutations of a set. -/
inductive Op where
  | insert (value : JsString)
  | delete (value : JsString)

def apply (s : MerkleSet) : Op → MerkleSet
  | .insert value => OrdSet.add s value
  | .delete value => OrdSet.delete s value

/-- `new MerkleSet()` after a sequence of mutations. -/
def run (ops : List Op) : MerkleSet := ops.foldl apply OrdSet.empty

def sortedValues (s : MerkleSet) : List JsString := sortStrings s.elems

def root (s : MerkleSet) : JsString := merkleRoot s.sortedValues

/-! ## Proofs -/

def positionText : Side → JsString
  | .left => js "left"
  | .right => js "right"

def siblingJson (s : Side × JsString) : Json :=
  .obj [(js "position", .str (positionText s.1)), (js "hash", .str s.2)]

def membershipProof (values : List JsString) (index : ℕ) : Json :=
  .obj [(js "type", .str (js "membership")), (js "value", .str (values.getD index [])),
    (js "index", .num index), (js "size", .num values.length), (js "root", .str (merkleRoot values)),
    (js "siblings", .arr ((HashTree.auditPath merkleNodeHash values.length (values.map merkleLeafHash)
      index).map siblingJson))]

def proveMembership (s : MerkleSet) (value : JsString) : Except JsError Json :=
  if value ∈ s.sortedValues then .ok (membershipProof s.sortedValues (s.sortedValues.idxOf value))
  else .error ⟨.rangeError, js "value is not a member of the MerkleSet"⟩

/-- The loop of `lowerBound` between `low` and `high`. -/
def lowerBoundLoop (values : List JsString) (value : JsString) : ℕ → ℕ → ℕ → ℕ
  | 0, low, _ => low
  | fuel + 1, low, high =>
    if low < high then
      let mid := (low + high) / 2
      if values.getD mid [] < value then lowerBoundLoop values value fuel (mid + 1) high
      else lowerBoundLoop values value fuel low mid
    else low

def lowerBound (values : List JsString) (value : JsString) : ℕ :=
  lowerBoundLoop values value values.length 0 values.length

def proveNonMembership (s : MerkleSet) (value : JsString) : Except JsError Json :=
  let values := s.sortedValues
  if value ∈ values then .error ⟨.rangeError, js "value is already a member of the MerkleSet"⟩
  else
    let insertion := lowerBound values value
    .ok (.obj [(js "type", .str (js "non_membership")), (js "value", .str value),
      (js "size", .num values.length), (js "root", .str (merkleRoot values)),
      (js "predecessor", if 0 < insertion then membershipProof values (insertion - 1) else .null),
      (js "successor", if insertion < values.length then membershipProof values insertion else .null)])

/-! ## Verification -/

variable (F : NumberFormat)

/-- `sibling.hash ?? ''`, as the string that is tested and hashed. -/
def siblingHash (sibling : Json) : JsString :=
  match sibling.get (js "hash") with
  | none | some .null => []
  | some hash => hash.toText F

/-- The side and the digest of one sibling, or `none` where the verifier gives up. -/
def readSibling (sibling : Json) : Option (Side × JsString) :=
  if !isHash (siblingHash F sibling) then none
  else if Json.isStr (sibling.get (js "position")) (js "left") then some (.left, siblingHash F sibling)
  else if Json.isStr (sibling.get (js "position")) (js "right") then some (.right, siblingHash F sibling)
  else none

/-- The loop over the siblings. -/
def replaySiblings (current : JsString) (siblings : List Json) : Option JsString :=
  siblings.foldlM (fun c s => (readSibling F s).map (HashTree.step merkleNodeHash c)) current

def verifyMembership (proof : Json) (expectedRoot : JsString) : Bool :=
  Json.isStr (proof.get (js "type")) (js "membership") &&
    match proof.get (js "value"), Json.natural? (proof.get (js "index")),
      Json.natural? (proof.get (js "size")), proof.get (js "siblings") with
    | some (.str value), some index, some size, some (.arr siblings) =>
      decide (index < size) &&
        match replaySiblings F (merkleLeafHash value) siblings with
        | some current =>
          Json.isStr (proof.get (js "root")) (sha256Prefix ++ current) &&
            decide (sha256Prefix ++ current = expectedRoot)
        | none => false
    | _, _, _, _ => false

/-- A neighbour in a non-membership proof: what the verifier reads off a membership
proof that it has accepted. -/
structure Neighbour where
  value : JsString
  index : ℕ
  size : ℕ
  deriving DecidableEq

def neighbour (proof : Option Json) (root : JsString) : Option Neighbour :=
  match proof with
  | none => none
  | some proof =>
    if verifyMembership F proof root then
      match proof.get (js "value"), Json.natural? (proof.get (js "index")),
        Json.natural? (proof.get (js "size")) with
      | some (.str value), some index, some size => some ⟨value, index, size⟩
      | _, _, _ => none
    else none

def isNull : Option Json → Bool
  | some .null => true
  | _ => false

def verifyNonMembership (proof : Json) (expectedRoot : JsString) : Bool :=
  let predecessor := proof.get (js "predecessor")
  let successor := proof.get (js "successor")
  Json.isStr (proof.get (js "type")) (js "non_membership") &&
    match proof.get (js "value"), Json.natural? (proof.get (js "size")) with
    | some (.str value), some size =>
      Json.isStr (proof.get (js "root")) expectedRoot &&
        if size = 0 then
          isNull predecessor && isNull successor && decide (expectedRoot = emptyMerkleRoot)
        else if isNull predecessor then
          !isNull successor &&
            match neighbour F successor expectedRoot with
            | some s => decide (value < s.value) && decide (s.index = 0) && decide (s.size = size)
            | none => false
        else if isNull successor then
          match neighbour F predecessor expectedRoot with
          | some p => decide (p.value < value) && decide (p.index + 1 = size) && decide (p.size = size)
          | none => false
        else
          match neighbour F predecessor expectedRoot, neighbour F successor expectedRoot with
          | some p, some s => decide (p.value < value) && decide (value < s.value) &&
              decide (p.index + 1 = s.index) && decide (p.size = size) && decide (s.size = size)
          | _, _ => false
    | _, _ => false

/-! ## The texts that are hashed -/

/-- The texts hashed by `root`. -/
def rootTexts (s : MerkleSet) : List JsString :=
  if s.sortedValues = [] then [merkleEmptyText]
  else s.sortedValues.map merkleLeafText ++ HashTree.levelTexts merkleNodeHash merkleNodeText
    s.sortedValues.length (s.sortedValues.map merkleLeafHash)

def replayTexts : JsString → List Json → List JsString
  | _, [] => []
  | current, s :: rest =>
    match readSibling F s with
    | some (.left, hash) => merkleNodeText hash current :: replayTexts (merkleNodeHash hash current) rest
    | some (.right, hash) => merkleNodeText current hash :: replayTexts (merkleNodeHash current hash) rest
    | none => []

/-- The texts hashed by `verifyMembership`. -/
def membershipTexts (proof : Json) : List JsString :=
  match proof.get (js "value"), proof.get (js "siblings") with
  | some (.str value), some (.arr siblings) =>
    merkleLeafText value :: replayTexts F (merkleLeafHash value) siblings
  | _, _ => []

/-- The texts hashed by `verifyNonMembership`, the one of `EMPTY_MERKLE_ROOT` included. -/
def nonMembershipTexts (proof : Json) : List JsString :=
  merkleEmptyText :: ((proof.get (js "predecessor")).map (membershipTexts F)).getD [] ++
    ((proof.get (js "successor")).map (membershipTexts F)).getD []

end MerkleSet

end EnigmaMemory
