import EnigmaMemory.Spec.Json
import EnigmaMemory.Spec.Numeric
import EnigmaMemory.Spec.Sha256

/-!
# The store of an owner

Which file an owner's records are kept in (`storeFileNameForOwner`) and which key they are encrypted with
(`deriveDekForOwner`), from `store.mjs` and `mcp-server.mjs` of the node. The texts of errors thrown by `node:crypto`
are left out.
-/

namespace EnigmaMemory

/-! ## HKDF -/

namespace Sha256

/-- The blocks of RFC 5869 from the one with the given number on, each computed from the one before. -/
def expand (prk info : Bytes) : ℕ → ℕ → Bytes → Bytes
  | 0, _, _ => []
  | n + 1, i, previous =>
    let block := bytes (hmac prk (previous ++ info ++ [Fin.ofNat 256 i]))
    block ++ expand prk info n (i + 1) block

def hkdf (ikm salt info : Bytes) (length : ℕ) : Bytes :=
  (expand (bytes (hmac salt ikm)) info ((length + 31) / 32) 1 []).take length

end Sha256

namespace UserStore

/-- `hkdfSync('sha256', ikm, salt, info, length)`. -/
def hkdfSync (ikm salt info : Bytes) (length : ℕ) : Except JsError Bytes :=
  if 1024 < info.length then .error ⟨.rangeError, js "info is out of range"⟩ else .ok (Sha256.hkdf ikm salt info length)

/-! ## Keys -/

/-- Entropy of a wallet: bytes, or a text in hexadecimal digits. -/
inductive Entropy where
  | buffer (b : Bytes)
  | text (s : JsString)

def hexValue (c : CodeUnit) : Option ℕ :=
  if 48 ≤ c ∧ c ≤ 57 then some (c.val - 48)
  else if 97 ≤ c ∧ c ≤ 102 then some (c.val - 87)
  else if 65 ≤ c ∧ c ≤ 70 then some (c.val - 55)
  else none

/-- `Buffer.from(text, "hex")`, which ends at the first pair that is none of hexadecimal digits. -/
def fromHex : JsString → Bytes
  | c :: d :: rest =>
    match hexValue c, hexValue d with
    | some high, some low => Fin.ofNat 256 (16 * high + low) :: fromHex rest
    | _, _ => []
  | _ => []

def decodeEntropy : Option Entropy → Option Bytes
  | some (.buffer b) => some b
  | some (.text s) => if s.isEmpty then none else some (fromHex s)
  | none => none

def dekSalt : Bytes := utf8 (js "cortex-v3-dek")

/-- `passphrase ? DEK_INFO_WITH_PASSPHRASE(passphrase) : DEK_INFO`. -/
def dekInfo (passphrase : JsString) : Bytes :=
  if passphrase.isEmpty then utf8 (js "cortex-v3-user-dek") else utf8 (js "cortex-v3-user-dek:" ++ passphrase)

def deriveDataEncryptionKey (ownerEntropy : Option Entropy) (passphrase : JsString) : Except JsError (Option Bytes) :=
  match decodeEntropy ownerEntropy with
  | none | some [] => .ok none
  | some ikm => (hkdfSync ikm dekSalt (dekInfo passphrase) 32).map some

def testMasterEntropy : Bytes := utf8 (js "cortex-deterministic-test-master-entropy-v1")

/-- What the server is configured with. -/
structure Options where
  getOwnerEntropy : Option (JsString → Option Entropy)
  passphrase : JsString

/-- `getOwnerEntropy(owner, options)`, if it is no empty text. -/
def Options.entropy (options : Options) (owner : JsString) : Option Entropy :=
  (options.getOwnerEntropy.bind (· owner)).filter fun e =>
    match e with
    | .text s => !s.isEmpty
    | .buffer _ => true

def deriveDekForOwner (owner : JsString) (options : Options) : Except JsError (Option Bytes) :=
  match options.entropy owner with
  | some entropy => deriveDataEncryptionKey (some entropy) options.passphrase
  | none => deriveDataEncryptionKey (some (.buffer testMasterEntropy)) owner

/-! ## Files -/

def storeFileNameForOwner (owner : JsString) : Except JsError JsString :=
  let normalized := trim owner
  if normalized.length = 0 ∨ 256 < normalized.length then
    .error ⟨.typeError, js "owner must be between 1 and 256 characters"⟩
  else .ok (sha256Hex normalized ++ js ".sqlite")

end UserStore

end EnigmaMemory
