import EnigmaMemory.Lib.Wire
import EnigmaMemory.Spec.CapabilityRegistry
import EnigmaMemory.Spec.Json

/-!
# Account data of `capability_registry`, and how the node reads it

Anchor writes an account as the eight bytes of its discriminator, the fields in Borsh in the order
of their declaration, and zeros up to the size of the account. The node reads the fields back at
fixed offsets (`mcp-server.mjs`). The discriminators are not read; they are a parameter.
-/

namespace EnigmaMemory.Cortex

open Wire

/-- `[u8; 32]`. -/
abbrev Pubkey := Vector UInt8 32

abbrev Discriminator := Vector UInt8 8

/-! ## Borsh -/

def borshU64 (n : UInt64) : List UInt8 := toLE 8 n.toNat

def borshU32 (n : UInt32) : List UInt8 := toLE 4 n.toNat

def borshI64 (n : Int64) : List UInt8 := borshU64 n.toUInt64

def borshBool (b : Bool) : List UInt8 := [if b then 1 else 0]

/-- `scope.as_bytes()`. -/
def stringBytes (s : String) : List UInt8 := s.toByteArray.data.toList

/-- `Capability::SIZE`. -/
def capabilitySize : ℕ := 32 + 32 + (4 + 64) + 8 + 8 + 1

/-- `Session::SIZE`. -/
def sessionSize : ℕ := 32 + 32 + 8 + 8 + 4 + 32 + 8 + 8 + 8 + 4 + 4 + 8 + 8 + 1 + 1

/-- `OwnerNonce::SIZE`. -/
def ownerNonceSize : ℕ := 32 + 8 + 1

/-- The data of an account of `size` bytes with the given fields. -/
def anchorData (d : Discriminator) (size : ℕ) (fields : List (List UInt8)) : List UInt8 :=
  d.toList ++ fields.flatten ++ List.replicate (size - fields.flatten.length) 0

def capabilityData (d : Discriminator) (cap : Capability Pubkey) : List UInt8 :=
  anchorData d capabilitySize
    [cap.owner.toList, cap.granted_to.toList, borshU32 (UInt32.ofNat (stringBytes cap.scope).length), stringBytes cap.scope,
      borshI64 cap.expires_at, borshI64 cap.created_at, [cap.bump]]

def sessionData (d : Discriminator) (s : Session Pubkey) : List UInt8 :=
  anchorData d sessionSize
    [s.owner.toList, s.session_key.toList, borshU64 s.nonce, borshU64 s.owner_nonce, borshU32 s.scope, s.categories_hash.toList,
      borshU64 s.max_spend_per_tx, borshU64 s.max_spend_per_day, borshU64 s.spent_today, borshU32 s.max_ops_per_day,
      borshU32 s.ops_today, borshI64 s.window_start, borshI64 s.expires_at, borshBool s.revoked, [s.bump]]

def ownerNonceData (d : Discriminator) (n : OwnerNonce Pubkey) : List UInt8 :=
  anchorData d ownerNonceSize [n.owner.toList, borshU64 n.nonce, [n.bump]]

/-! ## Numbers -/

/-- The nearest number with 53 significant bits, the even one of two. -/
def roundToDouble (m : ℕ) : ℕ :=
  let unit := 2 ^ (Nat.log2 m - 52)
  let q := m / unit
  let r := m % unit
  (if unit < 2 * r ∨ 2 * r = unit ∧ q % 2 = 1 then q + 1 else q) * unit

/-- `Number(n)` of a BigInt. -/
def bigIntToNumber (n : ℤ) : ℤ := n.sign * roundToDouble n.natAbs

example : bigIntToNumber (-(2 ^ 53 + 1)) = -2 ^ 53 := by decide

/-! ## Reading -/

/-- What a `DataView` throws when it is read past its end. -/
def outOfBounds : JsError := ⟨.rangeError, js "Offset is outside the bounds of the DataView"⟩

def readOr (w : ℕ) (b : List UInt8) (offset : ℕ) : Except JsError ℕ :=
  match readLE w b offset with
  | some n => .ok n
  | none => .error outOfBounds

def readLE64 (b : List UInt8) (offset : ℕ) : Except JsError UInt64 := (readOr 8 b offset).map UInt64.ofNat

def readLE32 (b : List UInt8) (offset : ℕ) : Except JsError UInt32 := (readOr 4 b offset).map UInt32.ofNat

def readLEI64 (b : List UInt8) (offset : ℕ) : Except JsError Int64 := (readLE64 b offset).map UInt64.toInt64

/-- `new PublicKey(bytes)` of at most 32 bytes. -/
def publicKeyOf (b : List UInt8) : Pubkey := ⟨((b.take 32).leftpad 32 0).toArray, by simp⟩

/-- `bytes.toString("utf8")`, `lossy` being what it gives for bytes that are not UTF-8. -/
def utf8Text (lossy : List UInt8 → JsString) (b : List UInt8) : JsString :=
  match String.fromUTF8? ⟨b.toArray⟩ with
  | some s => js s
  | none => lossy b

structure DecodedCapability where
  owner : Pubkey
  grantedTo : Pubkey
  scope : JsString
  expiresAt : ℤ
  createdAt : ℤ
  bump : Option UInt8
  deriving DecidableEq

def decodeCapability (lossy : List UInt8 → JsString) (buf : List UInt8) : Except JsError DecodedCapability := do
  let owner := publicKeyOf (buf.extract 8 40)
  let grantedTo := publicKeyOf (buf.extract 40 72)
  let scopeLen ← readLE32 buf 72
  let scope := utf8Text lossy (buf.extract 76 (76 + scopeLen.toNat))
  let expiresAt ← readLEI64 buf 140
  let createdAt ← readLEI64 buf 148
  let bump := buf[156]?
  return { owner, grantedTo, scope, expiresAt := bigIntToNumber expiresAt.toInt, createdAt := bigIntToNumber createdAt.toInt, bump }

structure DecodedSession where
  owner : Pubkey
  sessionKey : Pubkey
  nonce : UInt64
  ownerNonce : UInt64
  scope : UInt32
  categoriesHash : List UInt8
  maxSpendPerTx : UInt64
  maxSpendPerDay : UInt64
  spentToday : UInt64
  maxOpsPerDay : UInt32
  opsToday : UInt32
  windowStart : ℤ
  expiresAt : ℤ
  revoked : Bool
  bump : Option UInt8
  deriving DecidableEq

def decodeSession (buf : List UInt8) : Except JsError DecodedSession := do
  let owner := publicKeyOf (buf.extract 8 40)
  let sessionKey := publicKeyOf (buf.extract 40 72)
  let nonce ← readLE64 buf 72
  let ownerNonce ← readLE64 buf 80
  let scope ← readLE32 buf 88
  let categoriesHash := buf.extract 92 124
  let maxSpendPerTx ← readLE64 buf 124
  let maxSpendPerDay ← readLE64 buf 132
  let spentToday ← readLE64 buf 140
  let maxOpsPerDay ← readLE32 buf 148
  let opsToday ← readLE32 buf 152
  let windowStart ← readLEI64 buf 156
  let expiresAt ← readLEI64 buf 164
  let revoked := buf[172]? != some 0
  let bump := buf[173]?
  return { owner, sessionKey, nonce, ownerNonce, scope, categoriesHash, maxSpendPerTx, maxSpendPerDay, spentToday,
           maxOpsPerDay, opsToday, windowStart := bigIntToNumber windowStart.toInt,
           expiresAt := bigIntToNumber expiresAt.toInt, revoked, bump }

end EnigmaMemory.Cortex
