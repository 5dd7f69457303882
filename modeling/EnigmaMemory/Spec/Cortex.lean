import EnigmaMemory.Lib.Run
import EnigmaMemory.Spec.BudgetEscrow
import EnigmaMemory.Spec.CortexToken
import EnigmaMemory.Spec.MemoryRegistry

/-!
# Runs of the programs

A step is an instruction of any of the programs in a transaction that is committed. Instructions
of one transaction are steps with the same signers and time.
-/

/-!
## `royalty_router`

Receipts for royalties. A routed royalty is spent from the payer's budget by a call of
`budget_escrow` and then written to the receipt of the payee and the content.
-/

namespace EnigmaMemory.Cortex

variable {K : Type} [DecidableEq K]

def receiptSeeds (payer payee : K) (contentHash : Hash) : List (Seed K) :=
  [.text "receipt", .key payer, .key payee, hashSeed contentHash]

def zeroReceipt (c : Runtime K) : Receipt K := ⟨c.default, c.default, 0, zeroHash, 0, 0⟩

def writeReceipt (payer payee : K) (amount : UInt64) (contentHash : Hash) (bump : UInt8) (now : Int64) : Receipt K where
  payer := payer
  payee := payee
  amount := amount
  content_hash := contentHash
  created_at := now
  bump := bump

structure RegisterReceipt (K : Type) where
  payer : K
  payee : K
  receipt : K
  amount : UInt64
  content_hash : Hash

def registerReceipt (c : Runtime K) (tx : Tx c) (i : RegisterReceipt K) (σ : Ledger K) : Except Error (Ledger K) := do
  signer tx i.payer
  let _ ← seedsFound c .royaltyRouter (receiptSeeds i.payer i.payee i.content_hash) i.receipt
  let receipt ← initIfNeeded σ Account.receipt? i.receipt (zeroReceipt c)
  -- every field but the bump
  return σ.exit .royaltyRouter i.receipt (.receipt (writeReceipt i.payer i.payee i.amount i.content_hash receipt.bump tx.now))

structure RouteRoyalty (K : Type) where
  payer : K
  payee : K
  receipt : K
  budget : K
  amount : UInt64
  content_hash : Hash

def routeRoyalty (c : Runtime K) (tx : Tx c) (i : RouteRoyalty K) (σ : Ledger K) : Except Error (Ledger K) := do
  signer tx i.payer
  let bump ← seedsFound c .royaltyRouter (receiptSeeds i.payer i.payee i.content_hash) i.receipt
  let _ ← initIfNeeded σ Account.receipt? i.receipt (zeroReceipt c)
  let _ ← mutBudget c i.payer i.budget σ
  let σ ← spend c tx ⟨i.payer, i.budget, i.amount⟩ σ
  return σ.exit .royaltyRouter i.receipt (.receipt (writeReceipt i.payer i.payee i.amount i.content_hash bump tx.now))

structure RouteRoyaltyWithSession (K : Type) where
  accounts : SessionAccounts K
  payee : K
  receipt : K
  budget : K
  amount : UInt64
  content_hash : Hash

def routeRoyaltyWithSession (c : Runtime K) (tx : Tx c) (i : RouteRoyaltyWithSession K) (σ : Ledger K) :
    Except Error (Ledger K) := do
  let (session, ownerNonce) ← sessionAccounts c tx i.accounts σ
  let bump ← seedsFound c .royaltyRouter (receiptSeeds i.accounts.owner i.payee i.content_hash) i.receipt
  let _ ← initIfNeeded σ Account.receipt? i.receipt (zeroReceipt c)
  let _ ← mutBudget c i.accounts.owner i.budget σ
  requireSessionActive session ownerNonce i.accounts.owner i.accounts.session_key royaltyRoute tx.now
  let σ ← spendWithSession c tx ⟨i.accounts, i.budget, i.amount⟩ σ
  let σ := σ.exit .royaltyRouter i.accounts.session (.session session)
  return σ.exit .royaltyRouter i.receipt
    (.receipt (writeReceipt i.accounts.owner i.payee i.amount i.content_hash bump tx.now))

inductive RoyaltyInstruction (K : Type) where
  | registerReceipt (i : RegisterReceipt K)
  | routeRoyalty (i : RouteRoyalty K)
  | routeRoyaltyWithSession (i : RouteRoyaltyWithSession K)

def RoyaltyInstruction.execute (c : Runtime K) (tx : Tx c) : RoyaltyInstruction K → Ledger K → Except Error (Ledger K)
  | .registerReceipt i => Cortex.registerReceipt c tx i
  | .routeRoyalty i => Cortex.routeRoyalty c tx i
  | .routeRoyaltyWithSession i => Cortex.routeRoyaltyWithSession c tx i

end EnigmaMemory.Cortex

namespace EnigmaMemory.Cortex

variable {K : Type} [DecidableEq K]

inductive Instruction (K : Type) where
  | capability (i : CapabilityInstruction K)
  | budget (i : BudgetInstruction K)
  | memory (i : MemoryInstruction K)
  | royalty (i : RoyaltyInstruction K)
  | token (i : TokenInstruction K)
  | spl (i : SplInstruction K)

def Instruction.execute (c : Runtime K) (tx : Tx c) : Instruction K → Ledger K → Except Error (Ledger K)
  | .capability i => i.execute c tx
  | .budget i => i.execute c tx
  | .memory i => i.execute c tx
  | .royalty i => i.execute c tx
  | .token i => i.execute c tx
  | .spl i => i.execute c tx

structure Step (c : Runtime K) where
  tx : Tx c
  instruction : Instruction K

/-- The ledger after a committed step. -/
def step (c : Runtime K) (σ : Ledger K) (s : Step c) : Option (Ledger K) := (s.instruction.execute c s.tx σ).toOption

/-- The ledger after steps that are all committed. -/
def run (c : Runtime K) (σ : Ledger K) (steps : List (Step c)) : Option (Ledger K) := Run.run (step c) σ steps

/-- The ledger before any step. -/
def genesis : Ledger K := OrdMap.empty

end EnigmaMemory.Cortex
