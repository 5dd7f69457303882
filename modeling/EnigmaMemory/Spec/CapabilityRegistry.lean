import EnigmaMemory.Spec.Ledger

/-!
# `capability_registry`

Capabilities, and sessions by which an owner lets a key act within limits. The functions of the
`session` module run inside the programs that accept sessions, on their copies of the accounts.
An instruction is given by its accounts and its arguments in one structure.
-/

namespace EnigmaMemory.Cortex

variable {K : Type} [DecidableEq K]

def memoryCreate : UInt32 := (1 : UInt32) <<< (0 : UInt32)

def memoryUpdate : UInt32 := (1 : UInt32) <<< (1 : UInt32)

def memoryDelete : UInt32 := (1 : UInt32) <<< (2 : UInt32)

def budgetSpend : UInt32 := (1 : UInt32) <<< (3 : UInt32)

def royaltyRoute : UInt32 := (1 : UInt32) <<< (4 : UInt32)

/-! ## Seeds -/

def capabilitySeeds (owner grantedTo : K) (scope : String) : List (Seed K) :=
  [.text "capability", .key owner, .key grantedTo, .text scope]

def ownerNonceSeeds (owner : K) : List (Seed K) := [.text "owner_nonce", .key owner]

def sessionSeeds (owner sessionKey : K) (nonce : UInt64) : List (Seed K) :=
  [.text "session", .key owner, .key sessionKey, .u64 nonce]

/-! ## The `session` module -/

def requireSessionActive (session : Session K) (ownerNonce : OwnerNonce K) (owner sessionKey : K) (scope : UInt32) (now : Int64) :
    Except Error Unit := do
  require (session.owner = owner) (.cap .sessionOwnerMismatch)
  require (session.session_key = sessionKey) (.cap .sessionKeyMismatch)
  require (session.revoked = false) (.cap .sessionRevoked)
  require (now < session.expires_at) (.cap .sessionExpired)
  require (scope ≠ 0 → session.scope &&& scope ≠ 0) (.cap .scopeNotGranted)
  require (session.owner_nonce = ownerNonce.nonce) (.cap .ownerNonceMismatch)

def day : Int64 := 86400

/-- The session with a window that `now` falls into. -/
def currentWindow (session : Session K) (now : Int64) : Except Error (Session K) := do
  let windowEnd ← orFail (session.window_start.checkedAdd day) .panic
  return if windowEnd ≤ now then { session with window_start := now, spent_today := 0, ops_today := 0 } else session

def touchSession (session : Session K) (now : Int64) : Except Error (Session K) := do
  let session ← currentWindow session now
  require (session.ops_today < session.max_ops_per_day) (.cap .sessionOpsExceeded)
  let ops ← orFail (session.ops_today.checkedAdd 1) .panic
  return { session with ops_today := ops }

def checkSpend (session : Session K) (amount : UInt64) : Except Error Unit := do
  require (amount ≤ session.max_spend_per_tx) (.cap .sessionSpendPerTxExceeded)
  let spent ← orFail (session.spent_today.checkedAdd amount) .panic
  require (spent ≤ session.max_spend_per_day) (.cap .sessionSpendPerDayExceeded)

def recordSpend (session : Session K) (amount : UInt64) : Except Error (Session K) := do
  let spent ← orFail (session.spent_today.checkedAdd amount) .panic
  return { session with spent_today := spent }

/-- The accounts by which an instruction is given a session, and its `nonce` argument. -/
structure SessionAccounts (K : Type) where
  session_key : K
  owner : K
  session : K
  owner_nonce : K
  nonce : UInt64

/-- The constraints on `session_key`, `session` and `owner_nonce`, the same in every program. -/
def sessionAccounts (c : Runtime K) (tx : Tx c) (a : SessionAccounts K) (σ : Ledger K) : Except Error (Session K × OwnerNonce K) := do
  signer tx a.session_key
  let session ← load σ Account.session? a.session
  seedsWithBump c .capabilityRegistry (sessionSeeds a.owner a.session_key a.nonce) session.bump a.session
  require (session.nonce = a.nonce) .constraintRaw
  let ownerNonce ← load σ Account.ownerNonce? a.owner_nonce
  seedsWithBump c .capabilityRegistry (ownerNonceSeeds a.owner) ownerNonce.bump a.owner_nonce
  return (session, ownerNonce)

/-! ## Instructions -/

structure GrantCapability (K : Type) where
  owner : K
  granted_to : K
  capability : K
  scope : String
  expires_at : Int64

def grant (c : Runtime K) (tx : Tx c) (i : GrantCapability K) (σ : Ledger K) : Except Error (Ledger K) := do
  signer tx i.owner
  let _ ← seedsFound c .capabilityRegistry (capabilitySeeds i.owner i.granted_to i.scope) i.capability
  let cap ← initIfNeeded σ Account.capability? i.capability ⟨c.default, c.default, "", 0, 0, 0⟩
  require (i.scope.utf8ByteSize ≤ 64) (.cap .scopeTooLong)
  -- the bump is not set
  return σ.exit .capabilityRegistry i.capability (.capability
    { cap with owner := i.owner, granted_to := i.granted_to, scope := i.scope, expires_at := i.expires_at, created_at := tx.now })

structure RevokeCapability (K : Type) where
  owner : K
  capability : K

def revoke (c : Runtime K) (tx : Tx c) (i : RevokeCapability K) (σ : Ledger K) : Except Error (Ledger K) := do
  signer tx i.owner
  let cap ← load σ Account.capability? i.capability
  seedsWithBump c .capabilityRegistry (capabilitySeeds i.owner cap.granted_to cap.scope) cap.bump i.capability
  require (cap.owner = i.owner) .requireEqViolated
  return σ.close i.capability

structure CreateSession (K : Type) where
  owner : K
  session_key : K
  owner_nonce : K
  session : K
  scope : UInt32
  categories_hash : Hash
  max_spend_per_tx : UInt64
  max_spend_per_day : UInt64
  max_ops_per_day : UInt32
  expires_at : Int64

/-- The session that is created while the owner's nonce is `nonce`. -/
def newSession (i : CreateSession K) (nonce : UInt64) (now : Int64) (bump : UInt8) : Session K where
  owner := i.owner
  session_key := i.session_key
  nonce := 0
  owner_nonce := nonce
  scope := i.scope
  categories_hash := i.categories_hash
  max_spend_per_tx := i.max_spend_per_tx
  max_spend_per_day := i.max_spend_per_day
  spent_today := 0
  max_ops_per_day := i.max_ops_per_day
  ops_today := 0
  window_start := now
  expires_at := i.expires_at
  revoked := false
  bump := bump

def createSession (c : Runtime K) (tx : Tx c) (i : CreateSession K) (σ : Ledger K) : Except Error (Ledger K) := do
  signer tx i.owner
  let nonceBump ← seedsFound c .capabilityRegistry (ownerNonceSeeds i.owner) i.owner_nonce
  let ownerNonce ← initIfNeeded σ Account.ownerNonce? i.owner_nonce ⟨c.default, 0, 0⟩
  let sessionBump ← seedsFound c .capabilityRegistry (sessionSeeds i.owner i.session_key ownerNonce.nonce) i.session
  let session ← init σ i.session (newSession i ownerNonce.nonce tx.now sessionBump)
  let σ := σ.exit .capabilityRegistry i.owner_nonce (.ownerNonce { ownerNonce with owner := i.owner, bump := nonceBump })
  return σ.exit .capabilityRegistry i.session (.session session)

structure ExtendSession (K : Type) where
  owner : K
  session : K
  scope : Option UInt32
  categories_hash : Option Hash
  max_spend_per_tx : Option UInt64
  max_spend_per_day : Option UInt64
  max_ops_per_day : Option UInt32
  expires_at : Int64

def extended (i : ExtendSession K) (s : Session K) : Session K :=
  { s with
    scope := i.scope.getD s.scope
    categories_hash := i.categories_hash.getD s.categories_hash
    max_spend_per_tx := i.max_spend_per_tx.getD s.max_spend_per_tx
    max_spend_per_day := i.max_spend_per_day.getD s.max_spend_per_day
    max_ops_per_day := i.max_ops_per_day.getD s.max_ops_per_day
    expires_at := i.expires_at }

/-- The constraints of `ExtendSession` and `RevokeSession`: signed by the owner, at the address that the stored nonce gives. -/
def ownedSession (c : Runtime K) (tx : Tx c) (owner session : K) (σ : Ledger K) : Except Error (Session K) := do
  signer tx owner
  let s ← load σ Account.session? session
  seedsWithBump c .capabilityRegistry (sessionSeeds owner s.session_key s.nonce) s.bump session
  require (s.owner = owner) (.cap .sessionOwnerMismatch)
  return s

def extendSession (c : Runtime K) (tx : Tx c) (i : ExtendSession K) (σ : Ledger K) : Except Error (Ledger K) := do
  let session ← ownedSession c tx i.owner i.session σ
  return σ.exit .capabilityRegistry i.session (.session (extended i session))

structure RevokeSession (K : Type) where
  owner : K
  session : K

def revokeSession (c : Runtime K) (tx : Tx c) (i : RevokeSession K) (σ : Ledger K) : Except Error (Ledger K) := do
  let _ ← ownedSession c tx i.owner i.session σ
  return σ.close i.session

structure PauseAllSessions (K : Type) where
  owner : K
  owner_nonce : K

def pauseAllSessions (c : Runtime K) (tx : Tx c) (i : PauseAllSessions K) (σ : Ledger K) : Except Error (Ledger K) := do
  signer tx i.owner
  let ownerNonce ← load σ Account.ownerNonce? i.owner_nonce
  seedsWithBump c .capabilityRegistry (ownerNonceSeeds i.owner) ownerNonce.bump i.owner_nonce
  let nonce ← orFail (ownerNonce.nonce.checkedAdd 1) .panic
  return σ.exit .capabilityRegistry i.owner_nonce (.ownerNonce { ownerNonce with nonce := nonce })

inductive CapabilityInstruction (K : Type) where
  | grant (i : GrantCapability K)
  | revoke (i : RevokeCapability K)
  | createSession (i : CreateSession K)
  | extendSession (i : ExtendSession K)
  | revokeSession (i : RevokeSession K)
  | pauseAllSessions (i : PauseAllSessions K)

def CapabilityInstruction.execute (c : Runtime K) (tx : Tx c) : CapabilityInstruction K → Ledger K → Except Error (Ledger K)
  | .grant i => Cortex.grant c tx i
  | .revoke i => Cortex.revoke c tx i
  | .createSession i => Cortex.createSession c tx i
  | .extendSession i => Cortex.extendSession c tx i
  | .revokeSession i => Cortex.revokeSession c tx i
  | .pauseAllSessions i => Cortex.pauseAllSessions c tx i

end EnigmaMemory.Cortex
