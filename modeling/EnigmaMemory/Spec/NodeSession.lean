import EnigmaMemory.Spec.Cortex
import EnigmaMemory.Spec.Numeric
import EnigmaMemory.Spec.SessionData

/-!
# `verifyOnChainSession`

How the node checks a session that a request claims (`mcp-server.mjs`). The chain is read through a
connection that gives the data of the account at an address. The client library and Node's buffers
are parameters, as is the data of accounts that belong to other programs. The texts of exceptions
that the node does not throw itself are left out.
-/

namespace EnigmaMemory.Cortex

/-- Keys in the client library, and buffers. -/
structure Web3 where
  /-- `new PublicKey(value)`; `none` is an exception. -/
  publicKey : Json → Option Pubkey
  toBase58 : Pubkey → JsString
  /-- `Buffer.from(value, "utf8")`; `none` is an exception. -/
  bufferFrom : Json → Option (List UInt8)
  toBase58_inj : ∀ {a b}, toBase58 a = toBase58 b → a = b

/-- What the bytes of accounts depend on. -/
structure Encoding where
  capability : Discriminator
  session : Discriminator
  ownerNonce : Discriminator
  /-- The data of the accounts of other programs. -/
  foreign : Account Pubkey → List UInt8
  /-- What bytes that are not UTF-8 are read as. -/
  lossy : List UInt8 → JsString

def Encoding.data (e : Encoding) : Account Pubkey → List UInt8
  | .capability x => capabilityData e.capability x
  | .session x => sessionData e.session x
  | .ownerNonce x => ownerNonceData e.ownerNonce x
  | a => e.foreign a

/-- `connection.getAccountInfo(address)`. -/
def getAccountInfo (e : Encoding) (σ : Ledger Pubkey) (k : Pubkey) : Option (List UInt8) := (σ.get k).map e.data

/-! ## Claims -/

/-- `auth.solana`; a missing field is `undefined`. -/
structure SolanaClaim where
  owner : Option Json
  sessionKey : Option Json
  grantedTo : Option Json
  nonce : Option Json
  capabilityScope : Option Json
  capabilityPda : Option Json
  sessionPda : Option Json

/-- `BigInt(s)` for a string: a decimal with a sign, or digits of another base without. -/
def stringToBigInt (s : JsString) : Option ℤ :=
  match trim s with
  | [] => some 0
  | 48 :: c :: digits =>
    let base := if c = 120 ∨ c = 88 then 16 else if c = 111 ∨ c = 79 then 8 else if c = 98 ∨ c = 66 then 2 else 0
    (if base = 0 then digitsValue 10 (48 :: c :: digits) else digitsValue base digits).map Int.ofNat
  | 43 :: digits => (digitsValue 10 digits).map Int.ofNat
  | 45 :: digits => (digitsValue 10 digits).map fun n => -Int.ofNat n
  | digits => (digitsValue 10 digits).map Int.ofNat

/-- `BigInt(value)`; `none` is an exception. -/
def toBigInt (F : NumberFormat) (value : Json) : Option ℤ :=
  match toPrimitive F value with
  | .num q => if q.den = 1 then some q.num else none
  | .bool b => some (if b then 1 else 0)
  | .str s => stringToBigInt s
  | _ => none

/-- Bytes as a seed. The scope of a capability on the chain is a text, so that other bytes are no seed of one. -/
def scopeSeed (b : List UInt8) : Seed Pubkey :=
  match String.fromUTF8? ⟨b.toArray⟩ with
  | some s => .text s
  | none => .bytes b

/-- `new Error(message)`. -/
def plainError (message : String) : JsError := ⟨.error, js message⟩

/-- An exception of the platform or of the client library. -/
def platformError : JsError := ⟨.error, []⟩

def orThrow {α : Type} (o : Option α) (e : JsError) : Except JsError α :=
  match o with
  | some a => .ok a
  | none => .error e

def parsePubkey (w : Web3) (value : Option Json) (label : String) : Except JsError (Option Pubkey) :=
  if Json.truthy value then
    (orThrow (value.bind w.publicKey) (plainError ("Invalid " ++ label ++ " public key"))).map some
  else .ok none

def findProgramAddressSync (c : Runtime Pubkey) (seeds : List (Seed Pubkey)) : Except JsError Pubkey :=
  (orThrow (findProgramAddress c .capabilityRegistry seeds) platformError).map Prod.fst

/-- `null` has no bytes. -/
def deriveCapabilityPda (c : Runtime Pubkey) (w : Web3) (owner grantedTo : Option Pubkey) (scope : Json) : Except JsError Pubkey := do
  let owner ← orThrow owner platformError
  let grantedTo ← orThrow grantedTo platformError
  let scope ← orThrow (w.bufferFrom scope) platformError
  findProgramAddressSync c [.text "capability", .key owner, .key grantedTo, scopeSeed scope]

def deriveSessionPda (F : NumberFormat) (c : Runtime Pubkey) (owner sessionKey : Option Pubkey) (nonce : Json) :
    Except JsError Pubkey := do
  let nonce ← orThrow (toBigInt F nonce) platformError
  let owner ← orThrow owner platformError
  let sessionKey ← orThrow sessionKey platformError
  findProgramAddressSync c (sessionSeeds owner sessionKey (UInt64.ofInt nonce))

/-! ## Tools -/

def scopeBitForTool (toolName : JsString) : UInt32 :=
  if toolName ∈ [js "store_memory", js "add_memory", js "update_memory", js "delete_memory"] then
    memoryCreate ||| memoryUpdate ||| memoryDelete
  else if toolName ∈ [js "retrieve_memory", js "search_memory"] then memoryCreate ||| memoryUpdate ||| memoryDelete
  else if toolName = js "spend_budget" then budgetSpend
  else 0

/-! ## The check -/

def throwIf (p : Prop) [Decidable p] (message : String) : Except JsError Unit :=
  if p then .error (plainError message) else .ok ()

/-- `claimed && expected.toBase58() !== claimed`. -/
def pdaMismatch (w : Web3) (claimed : Option Json) (expected : Pubkey) : Bool :=
  Json.truthy claimed && !Json.isStr claimed (w.toBase58 expected)

/-- `key.toBase58() !== other.toBase58()`; `null` has no text. -/
def keyMismatch (w : Web3) (key : Pubkey) (other : Option Pubkey) : Except JsError Bool := do
  let other ← orThrow other platformError
  return w.toBase58 key != w.toBase58 other

def checkCapability (w : Web3) (capability : DecodedCapability) (owner grantedTo : Option Pubkey) (now : ℤ) : Except JsError Unit := do
  throwIf (← keyMismatch w capability.owner owner) "Capability owner mismatch"
  throwIf (← keyMismatch w capability.grantedTo grantedTo) "Capability grantee mismatch"
  throwIf (capability.expiresAt ≤ now) "Capability expired"

def checkSession (w : Web3) (session : DecodedSession) (owner sessionKey : Option Pubkey) (now : ℤ) : Except JsError Unit := do
  throwIf (← keyMismatch w session.owner owner) "Session owner mismatch"
  throwIf (← keyMismatch w session.sessionKey sessionKey) "Session key mismatch"
  throwIf session.revoked "Session revoked"
  throwIf (session.expiresAt ≤ now) "Session expired"

/-- `solana.grantedTo ? parsePubkey(solana.grantedTo, "grantedTo") : sessionKey`. -/
def grantedKey (w : Web3) (solana : SolanaClaim) (sessionKey : Option Pubkey) : Except JsError (Option Pubkey) :=
  if Json.truthy solana.grantedTo then parsePubkey w solana.grantedTo "grantedTo" else .ok sessionKey

/-- `verifyOnChainSession(auth, toolName)` for `auth.solana`, `now` being `Math.floor(Date.now() / 1000)`. -/
def verifyOnChainSession (F : NumberFormat) (c : Runtime Pubkey) (w : Web3) (e : Encoding) (σ : Ledger Pubkey)
    (solana : SolanaClaim) (toolName : JsString) (now : ℤ) : Except JsError Unit := do
  let owner ← parsePubkey w solana.owner "owner"
  let sessionKey ← parsePubkey w solana.sessionKey "sessionKey"
  let grantedTo ← grantedKey w solana sessionKey
  let nonce := (Json.orElse solana.nonce none).getD (.num 0)
  let capabilityScope := if Json.truthy solana.capabilityScope then solana.capabilityScope.getD .null else .str []
  let expectedCapabilityPda ← deriveCapabilityPda c w owner grantedTo capabilityScope
  let expectedSessionPda ← deriveSessionPda F c owner sessionKey nonce
  throwIf (pdaMismatch w solana.capabilityPda expectedCapabilityPda) "Capability PDA mismatch"
  throwIf (pdaMismatch w solana.sessionPda expectedSessionPda) "Session PDA mismatch"
  let capabilityInfo ← orThrow (getAccountInfo e σ expectedCapabilityPda) (plainError "Capability not found on-chain")
  let sessionInfo ← orThrow (getAccountInfo e σ expectedSessionPda) (plainError "Session not found on-chain")
  let capability ← decodeCapability e.lossy capabilityInfo
  checkCapability w capability owner grantedTo now
  let session ← decodeSession sessionInfo
  checkSession w session owner sessionKey now
  let requiredScope := scopeBitForTool toolName
  throwIf (requiredScope ≠ 0 ∧ session.scope &&& requiredScope = 0) "Session scope not granted"

end EnigmaMemory.Cortex
