import EnigmaMemory.Spec.CapabilityRegistry

/-!
# `memory_registry`

Memories at addresses that their owner and the first eight bytes of their content hash give.
-/

namespace EnigmaMemory.Cortex

variable {K : Type} [DecidableEq K]

def memorySeeds (owner : K) (contentHash : Hash) : List (Seed K) := [.text "memory", .key owner, hashSeed contentHash]

/-- `init_memory`. The bump stays as it was. -/
def initMemory (memory : Memory K) (owner : K) (contentHash : Hash) (now : Int64) : Memory K :=
  { memory with
    owner := owner
    content_hash := contentHash
    created_at := now
    updated_at := now
    shareable := false
    royalty_bps := 0 }

/-- The data of a memory account that has just been created. -/
def zeroMemory (c : Runtime K) : Memory K := ⟨c.default, zeroHash, 0, 0, false, 0, 0⟩

/-! ## By the owner -/

structure RegisterMemory (K : Type) where
  owner : K
  memory : K
  content_hash : Hash

def registerMemory (c : Runtime K) (tx : Tx c) (i : RegisterMemory K) (σ : Ledger K) : Except Error (Ledger K) := do
  signer tx i.owner
  let _ ← seedsFound c .memoryRegistry (memorySeeds i.owner i.content_hash) i.memory
  let memory ← initIfNeeded σ Account.memory? i.memory (zeroMemory c)
  return σ.exit .memoryRegistry i.memory (.memory (initMemory memory i.owner i.content_hash tx.now))

def createMemory (c : Runtime K) (tx : Tx c) (i : RegisterMemory K) (σ : Ledger K) : Except Error (Ledger K) :=
  registerMemory c tx i σ

/-- The constraints of `UpdateMemory` and `DeleteMemory`, and the check that opens their instructions. -/
def ownedMemory (c : Runtime K) (tx : Tx c) (owner memory : K) (σ : Ledger K) : Except Error (Memory K) := do
  signer tx owner
  let m ← load σ Account.memory? memory
  seedsWithBump c .memoryRegistry (memorySeeds owner m.content_hash) m.bump memory
  require (m.owner = owner) .requireEqViolated
  return m

structure UpdateMemory (K : Type) where
  owner : K
  memory : K
  new_hash : Hash

def updateMemory (c : Runtime K) (tx : Tx c) (i : UpdateMemory K) (σ : Ledger K) : Except Error (Ledger K) := do
  let memory ← ownedMemory c tx i.owner i.memory σ
  return σ.exit .memoryRegistry i.memory (.memory { memory with content_hash := i.new_hash, updated_at := tx.now })

structure SetShareable (K : Type) where
  owner : K
  memory : K
  shareable : Bool
  royalty_bps : UInt16

def setShareable (c : Runtime K) (tx : Tx c) (i : SetShareable K) (σ : Ledger K) : Except Error (Ledger K) := do
  let memory ← ownedMemory c tx i.owner i.memory σ
  require (i.royalty_bps ≤ 10000) (.memory .royaltyTooHigh)
  return σ.exit .memoryRegistry i.memory (.memory { memory with shareable := i.shareable, royalty_bps := i.royalty_bps })

structure DeleteMemory (K : Type) where
  owner : K
  memory : K

def deleteMemory (c : Runtime K) (tx : Tx c) (i : DeleteMemory K) (σ : Ledger K) : Except Error (Ledger K) := do
  let _ ← ownedMemory c tx i.owner i.memory σ
  return σ.close i.memory

/-! ## By a session -/

/-- A memory instruction by a session, up to the point where it writes the memory. -/
def touchedSession (c : Runtime K) (tx : Tx c) (a : SessionAccounts K) (scope : UInt32) (σ : Ledger K) : Except Error (Session K) := do
  let (session, ownerNonce) ← sessionAccounts c tx a σ
  requireSessionActive session ownerNonce a.owner a.session_key scope tx.now
  touchSession session tx.now

structure CreateMemoryWithSession (K : Type) where
  accounts : SessionAccounts K
  memory : K
  content_hash : Hash

def createMemoryWithSession (c : Runtime K) (tx : Tx c) (i : CreateMemoryWithSession K) (σ : Ledger K) :
    Except Error (Ledger K) := do
  let session ← touchedSession c tx i.accounts memoryCreate σ
  let _ ← seedsFound c .memoryRegistry (memorySeeds i.accounts.owner i.content_hash) i.memory
  let memory ← initIfNeeded σ Account.memory? i.memory (zeroMemory c)
  let σ := σ.exit .memoryRegistry i.accounts.session (.session session)
  return σ.exit .memoryRegistry i.memory (.memory (initMemory memory i.accounts.owner i.content_hash tx.now))

structure UpdateMemoryWithSession (K : Type) where
  accounts : SessionAccounts K
  memory : K
  new_hash : Hash

/-- `has_one = owner`, and the check of the instruction. -/
def sessionMemory (owner memory : K) (σ : Ledger K) : Except Error (Memory K) := do
  let m ← load σ Account.memory? memory
  require (m.owner = owner) .constraintHasOne
  return m

def updateMemoryWithSession (c : Runtime K) (tx : Tx c) (i : UpdateMemoryWithSession K) (σ : Ledger K) :
    Except Error (Ledger K) := do
  let memory ← sessionMemory i.accounts.owner i.memory σ
  let session ← touchedSession c tx i.accounts memoryUpdate σ
  let σ := σ.exit .memoryRegistry i.accounts.session (.session session)
  return σ.exit .memoryRegistry i.memory (.memory { memory with content_hash := i.new_hash, updated_at := tx.now })

structure DeleteMemoryWithSession (K : Type) where
  accounts : SessionAccounts K
  memory : K

def deleteMemoryWithSession (c : Runtime K) (tx : Tx c) (i : DeleteMemoryWithSession K) (σ : Ledger K) :
    Except Error (Ledger K) := do
  let _ ← sessionMemory i.accounts.owner i.memory σ
  let session ← touchedSession c tx i.accounts memoryDelete σ
  let σ := σ.exit .memoryRegistry i.accounts.session (.session session)
  return σ.close i.memory

inductive MemoryInstruction (K : Type) where
  | registerMemory (i : RegisterMemory K)
  | createMemory (i : RegisterMemory K)
  | updateMemory (i : UpdateMemory K)
  | setShareable (i : SetShareable K)
  | deleteMemory (i : DeleteMemory K)
  | createMemoryWithSession (i : CreateMemoryWithSession K)
  | updateMemoryWithSession (i : UpdateMemoryWithSession K)
  | deleteMemoryWithSession (i : DeleteMemoryWithSession K)

def MemoryInstruction.execute (c : Runtime K) (tx : Tx c) : MemoryInstruction K → Ledger K → Except Error (Ledger K)
  | .registerMemory i => Cortex.registerMemory c tx i
  | .createMemory i => Cortex.createMemory c tx i
  | .updateMemory i => Cortex.updateMemory c tx i
  | .setShareable i => Cortex.setShareable c tx i
  | .deleteMemory i => Cortex.deleteMemory c tx i
  | .createMemoryWithSession i => Cortex.createMemoryWithSession c tx i
  | .updateMemoryWithSession i => Cortex.updateMemoryWithSession c tx i
  | .deleteMemoryWithSession i => Cortex.deleteMemoryWithSession c tx i

end EnigmaMemory.Cortex
