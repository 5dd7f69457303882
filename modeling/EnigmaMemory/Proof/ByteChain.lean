import Mathlib.Data.Nat.Digits.Defs
import EnigmaMemory.Spec.NodeSession

/-!
# A chain with byte keys

Keys of 32 bytes, of which all but the last are zero, and the addresses that three lists of seeds have.
The keys of the client library are base58 texts, as they are.
-/

namespace EnigmaMemory.Cortex

open Wire

namespace ByteChain

/-! ## Base58 -/

def alphabet : List CodeUnit := js "123456789ABCDEFGHJKLMNPQRSTUVWXYZabcdefghijkmnopqrstuvwxyz"

def digitUnit (d : ℕ) : CodeUnit := alphabet.getD d 0

def unitDigit (u : CodeUnit) : ℕ := alphabet.idxOf u

theorem unitDigit_digitUnit : ∀ d < 58, unitDigit (digitUnit d) = d := by decide

/-- The number of the bytes of a key, the highest first. -/
def keyValue (k : Pubkey) : ℕ := ofLE k.toList.reverse

def textValue (s : JsString) : ℕ := Nat.ofDigits 58 (s.reverse.map unitDigit)

def leadingZeros (b : List UInt8) : ℕ := (b.takeWhile (· = 0)).length

def toBase58 (k : Pubkey) : JsString :=
  List.replicate (leadingZeros k.toList) (digitUnit 0) ++ (Nat.digits 58 (keyValue k)).reverse.map digitUnit

theorem textValue_toBase58 (k : Pubkey) : textValue (toBase58 k) = keyValue k := by
  have hdigits : ((Nat.digits 58 (keyValue k)).map digitUnit).map unitDigit = Nat.digits 58 (keyValue k) := by
    rw [List.map_map]
    conv_rhs => rw [← List.map_id (Nat.digits 58 (keyValue k))]
    exact List.map_congr_left fun d hd => unitDigit_digitUnit d (Nat.digits_lt_base (by decide) hd)
  rw [textValue, toBase58]
  simp only [List.reverse_append, List.map_reverse, List.reverse_reverse, List.map_append, List.map_replicate, List.reverse_replicate,
    hdigits, unitDigit_digitUnit 0 (by decide), Nat.ofDigits_append_replicate_zero, Nat.ofDigits_digits]

theorem keyValue_inj {a b : Pubkey} (h : keyValue a = keyValue b) : a = b := by
  have hback := congrArg (toLE 32) h
  have hlength : ∀ k : Pubkey, k.toList.reverse.length = 32 := fun k => by simp
  have hkey : ∀ k : Pubkey, toLE 32 (keyValue k) = k.toList.reverse := fun k => by
    have := toLE_ofLE k.toList.reverse
    rwa [hlength] at this
  rw [hkey, hkey] at hback
  exact Vector.toList_inj.1 (List.reverse_injective hback)

theorem toBase58_inj {a b : Pubkey} (h : toBase58 a = toBase58 b) : a = b :=
  keyValue_inj (by rw [← textValue_toBase58, h, textValue_toBase58])

/-- The key that a base58 text of 32 bytes stands for. -/
def ofBase58 (s : JsString) : Option Pubkey :=
  let bytes := (toLE 32 (textValue s)).reverse
  if s.all (· ∈ alphabet) ∧ textValue s < 256 ^ 32 ∧ leadingZeros bytes = (s.takeWhile (· = digitUnit 0)).length then
    some (publicKeyOf bytes)
  else none

def web3 : Web3 where
  publicKey
    | .str s => ofBase58 s
    | _ => none
  toBase58 := toBase58
  bufferFrom
    | .str s => some ((utf8 s).map fun x => UInt8.ofNat x.val)
    | _ => none
  toBase58_inj := toBase58_inj

/-! ## Addresses -/

/-- The key whose last byte is `n`. -/
def key (n : UInt8) : Pubkey := (Vector.replicate 31 0).push n

/-- The text of the key whose last byte is `n`. -/
def keyText (n : ℕ) : JsString := List.replicate 31 (digitUnit 0) ++ [digitUnit n]

def scope : String := "memory:create,memory:update,memory:delete,budget:spend,note:read"

def table : List ((Program × List (Seed Pubkey) × UInt8) × Pubkey) :=
  [((.capabilityRegistry, capabilitySeeds (key 1) (key 2) scope, 255), key 3),
    ((.capabilityRegistry, ownerNonceSeeds (key 1), 255), key 4),
    ((.capabilityRegistry, sessionSeeds (key 1) (key 2) 0, 255), key 5)]

theorem mem_table {x : Program × List (Seed Pubkey) × UInt8} {k : Pubkey} (h : table.lookup x = some k) : (x, k) ∈ table := by
  obtain ⟨before, after, htable, -⟩ := List.lookup_eq_some_iff.1 h
  rw [htable]
  simp

end ByteChain

open ByteChain in
/-- Keys 1 and 2 are wallets. -/
def byteChain : Runtime Pubkey where
  createProgramAddress p seeds bump := table.lookup (p, seeds, bump)
  wallet k := k = key 1 ∨ k = key 2
  default := key 0
  transferFee _ _ _ := 0
  createProgramAddress_inj {p p' s s' b b' a} h h' := by
    have hinj : ∀ x ∈ table, ∀ y ∈ table, x.2 = y.2 → x.1 = y.1 := by decide
    have heq := hinj _ (mem_table h) _ (mem_table h') rfl
    simpa using heq
  wallet_derived {p s b a} h := by
    have hno : ∀ x ∈ table, decide (x.2 = key 1 ∨ x.2 = key 2) = false := by decide
    exact hno _ (mem_table h)
  wallet_default := by decide
  transferFee_le _ _ amount := UInt64.zero_le

namespace ByteChain

/-- A step that key 1 signs. -/
def signed (i : Instruction Pubkey) : Step byteChain where
  tx := ⟨1000, [key 1], by simp [byteChain]⟩
  instruction := i

def grantStep : Step byteChain :=
  signed (.capability (.grant ⟨key 1, key 2, key 3, scope, 2000000⟩))

/-- A session for everything. -/
def sessionStep : Step byteChain :=
  signed (.capability (.createSession
    { owner := key 1
      session_key := key 2
      owner_nonce := key 4
      session := key 5
      scope := 15
      categories_hash := zeroHash
      max_spend_per_tx := 10
      max_spend_per_day := 10
      max_ops_per_day := 100
      expires_at := 2000000 }))

def pauseStep : Step byteChain := signed (.capability (.pauseAllSessions ⟨key 1, key 4⟩))

/-- A claim to the session, with the texts of the keys. -/
def claim : SolanaClaim where
  owner := some (.str (keyText 1))
  sessionKey := some (.str (keyText 2))
  grantedTo := none
  nonce := none
  capabilityScope := some (.str (js scope))
  capabilityPda := none
  sessionPda := none

/-- The capability after `grantStep`. -/
def granted : Capability Pubkey := ⟨key 1, key 2, scope, 2000000, 1000, 0⟩

/-- The session after `sessionStep`. -/
def opened : Session Pubkey :=
  ⟨key 1, key 2, 0, 0, 15, zeroHash, 10, 10, 0, 100, 0, 1000, 2000000, false, 255⟩

/-- Accounts as Anchor writes them, with discriminators of zeros. -/
def encoding : Encoding where
  capability := Vector.replicate 8 0
  session := Vector.replicate 8 0
  ownerNonce := Vector.replicate 8 0
  foreign _ := []
  lossy _ := []

end ByteChain

end EnigmaMemory.Cortex
