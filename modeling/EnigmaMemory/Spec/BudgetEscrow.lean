import EnigmaMemory.Spec.CapabilityRegistry
import EnigmaMemory.Spec.SplToken

/-!
# `budget_escrow`

Budgets that are only counted, and token budgets with a vault. The session of a
`*_with_session` instruction is changed in the copy and belongs to another program.
-/

namespace EnigmaMemory.Cortex

variable {K : Type} [DecidableEq K]

def budgetSeeds (owner : K) : List (Seed K) := [.text "budget", .key owner]

def tokenBudgetSeeds (owner mint : K) : List (Seed K) := [.text "token_budget", .key owner, .key mint]

/-! ## Budgets -/

structure CreateBudget (K : Type) where
  owner : K
  budget : K
  amount : UInt64

def createBudget (c : Runtime K) (tx : Tx c) (i : CreateBudget K) (σ : Ledger K) : Except Error (Ledger K) := do
  signer tx i.owner
  let bump ← seedsFound c .budgetEscrow (budgetSeeds i.owner) i.budget
  let budget ← initIfNeeded σ Account.budget? i.budget ⟨c.default, 0, 0, 0, 0⟩
  return σ.exit .budgetEscrow i.budget (.budget
    { budget with owner := i.owner, balance := i.amount, spent := 0, created_at := tx.now, bump := bump })

/-- `MutBudget` with an amount. -/
structure MutBudget (K : Type) where
  owner : K
  budget : K
  amount : UInt64

/-- The constraint on `budget`. -/
def mutBudget (c : Runtime K) (owner budget : K) (σ : Ledger K) : Except Error (Budget K) := do
  let b ← load σ Account.budget? budget
  seedsWithBump c .budgetEscrow (budgetSeeds owner) b.bump budget
  return b

def deposit (c : Runtime K) (tx : Tx c) (i : MutBudget K) (σ : Ledger K) : Except Error (Ledger K) := do
  signer tx i.owner
  let budget ← mutBudget c i.owner i.budget σ
  require (budget.owner = i.owner) .requireEqViolated
  let balance ← orFail (budget.balance.checkedAdd i.amount) (.budget .mathOverflow)
  return σ.exit .budgetEscrow i.budget (.budget { budget with balance := balance })

def spendBudget (budget : Budget K) (owner : K) (amount : UInt64) : Except Error (Budget K) := do
  require (budget.owner = owner) .requireEqViolated
  require (amount ≤ budget.balance) (.budget .insufficientFunds)
  let balance ← orFail (budget.balance.checkedSub amount) (.budget .mathOverflow)
  let spent ← orFail (budget.spent.checkedAdd amount) (.budget .mathOverflow)
  return { budget with balance := balance, spent := spent }

def spend (c : Runtime K) (tx : Tx c) (i : MutBudget K) (σ : Ledger K) : Except Error (Ledger K) := do
  signer tx i.owner
  let budget ← mutBudget c i.owner i.budget σ
  let budget ← spendBudget budget i.owner i.amount
  return σ.exit .budgetEscrow i.budget (.budget budget)

structure SpendWithSession (K : Type) where
  accounts : SessionAccounts K
  budget : K
  amount : UInt64

def spendWithSession (c : Runtime K) (tx : Tx c) (i : SpendWithSession K) (σ : Ledger K) : Except Error (Ledger K) := do
  let (session, ownerNonce) ← sessionAccounts c tx i.accounts σ
  let budget ← mutBudget c i.accounts.owner i.budget σ
  requireSessionActive session ownerNonce i.accounts.owner i.accounts.session_key budgetSpend tx.now
  let session ← touchSession session tx.now
  checkSpend session i.amount
  let session ← recordSpend session i.amount
  let budget ← spendBudget budget i.accounts.owner i.amount
  let σ := σ.exit .budgetEscrow i.accounts.session (.session session)
  return σ.exit .budgetEscrow i.budget (.budget budget)

/-! ## Token budgets -/

/-- The accounts of the token budget instructions, and an amount. `token_program` is one of those that `TokenInterface`
accepts. -/
structure TokenBudgetAccounts (K : Type) where
  owner : K
  mint : K
  token_budget : K
  owner_ata : K
  vault : K
  token_program : TokenProgram
  amount : UInt64

def zeroTokenBudget (c : Runtime K) : TokenBudget K := ⟨c.default, c.default, 0, 0, 0⟩

structure CreateTokenBudget (K : Type) where
  owner : K
  mint : K
  token_budget : K
  vault : K
  token_program : TokenProgram

def createTokenBudget (c : Runtime K) (tx : Tx c) (i : CreateTokenBudget K) (σ : Ledger K) : Except Error (Ledger K) := do
  signer tx i.owner
  let _ ← load σ Account.mint? i.mint
  let bump ← seedsFound c .budgetEscrow (tokenBudgetSeeds i.owner i.mint) i.token_budget
  let tokenBudget ← initIfNeeded σ Account.tokenBudget? i.token_budget (zeroTokenBudget c)
  let σ ← initAssociated c i.token_program i.mint i.token_budget i.vault σ
  require (tokenBudget.owner = c.default) (.budget .alreadyInitialized)
  return σ.exit .budgetEscrow i.token_budget (.tokenBudget
    { tokenBudget with owner := i.owner, mint := i.mint, balance := 0, spent := 0, bump := bump })

/-- The budget of a deposit: a new one is given its owner and its mint, an old one is checked. -/
def depositedBudget (c : Runtime K) (owner mint : K) (bump : UInt8) (b : TokenBudget K) : Except Error (TokenBudget K) :=
  if b.owner = c.default then .ok { b with owner := owner, mint := mint, bump := bump }
  else do
    require (b.owner = owner) (.budget .invalidOwner)
    require (b.mint = mint) (.budget .invalidMint)
    return b

def depositToken (c : Runtime K) (tx : Tx c) (i : TokenBudgetAccounts K) (σ : Ledger K) : Except Error (Ledger K) := do
  signer tx i.owner
  let mint ← load σ Account.mint? i.mint
  let bump ← seedsFound c .budgetEscrow (tokenBudgetSeeds i.owner i.mint) i.token_budget
  let tokenBudget ← initIfNeeded σ Account.tokenBudget? i.token_budget (zeroTokenBudget c)
  let _ ← associated c i.token_program i.mint i.owner i.owner_ata σ
  let σ ← initAssociated c i.token_program i.mint i.token_budget i.vault σ
  require (0 < i.amount) (.budget .invalidAmount)
  let tokenBudget ← depositedBudget c i.owner i.mint bump tokenBudget
  let σ ← transferChecked c tx.now tx.signers i.token_program i.owner_ata i.mint i.vault i.owner i.amount mint.decimals σ
  let balance ← orFail (tokenBudget.balance.checkedAdd i.amount) (.budget .mathOverflow)
  return σ.exit .budgetEscrow i.token_budget (.tokenBudget { tokenBudget with balance := balance })

/-- The accounts that sign a call with `new_with_signer`: those of the transaction, and the one the seeds give. -/
def signersWith (c : Runtime K) (tx : Tx c) (p : Program) (seeds : List (Seed K)) (bump : UInt8) : List K :=
  tx.signers ++ (c.createProgramAddress p seeds bump).toList

def spendToken (c : Runtime K) (tx : Tx c) (i : TokenBudgetAccounts K) (σ : Ledger K) : Except Error (Ledger K) := do
  signer tx i.owner
  let mint ← load σ Account.mint? i.mint
  let tokenBudget ← load σ Account.tokenBudget? i.token_budget
  seedsWithBump c .budgetEscrow (tokenBudgetSeeds i.owner i.mint) tokenBudget.bump i.token_budget
  let _ ← associated c i.token_program i.mint i.owner i.owner_ata σ
  let _ ← associated c i.token_program i.mint i.token_budget i.vault σ
  require (0 < i.amount) (.budget .invalidAmount)
  require (tokenBudget.owner = i.owner) (.budget .invalidOwner)
  require (tokenBudget.mint = i.mint) (.budget .invalidMint)
  require (i.amount ≤ tokenBudget.balance) (.budget .insufficientFunds)
  let signers := signersWith c tx .budgetEscrow (tokenBudgetSeeds i.owner i.mint) tokenBudget.bump
  let σ ← transferChecked c tx.now signers i.token_program i.vault i.mint i.owner_ata i.token_budget i.amount mint.decimals σ
  let balance ← orFail (tokenBudget.balance.checkedSub i.amount) (.budget .mathOverflow)
  let spent ← orFail (tokenBudget.spent.checkedAdd i.amount) (.budget .mathOverflow)
  return σ.exit .budgetEscrow i.token_budget (.tokenBudget { tokenBudget with balance := balance, spent := spent })

structure DepositTokenWithSession (K : Type) where
  accounts : SessionAccounts K
  mint : K
  token_budget : K
  source : K
  vault : K
  amount : UInt64

/-- `source` is the account `from`. -/
def depositTokenWithSession (c : Runtime K) (tx : Tx c) (i : DepositTokenWithSession K) (σ : Ledger K) :
    Except Error (Ledger K) := do
  let (session, ownerNonce) ← sessionAccounts c tx i.accounts σ
  let mint ← load σ Account.mint? i.mint
  require (mint.program = .token) .accountWrongType
  let bump ← seedsFound c .budgetEscrow (tokenBudgetSeeds i.accounts.owner i.mint) i.token_budget
  let tokenBudget ← initIfNeeded σ Account.tokenBudget? i.token_budget (zeroTokenBudget c)
  let source ← load σ Account.tokenAccount? i.source
  require (source.program = .token) .accountWrongType
  require (source.owner = i.accounts.session_key ∧ source.mint = i.mint) .constraintRaw
  let σ ← initAssociated c .token i.mint i.token_budget i.vault σ
  requireSessionActive session ownerNonce i.accounts.owner i.accounts.session_key 0 tx.now
  let session ← touchSession session tx.now
  let σ ← transfer tx.signers i.source i.vault i.accounts.session_key i.amount σ
  let balance ← orFail (tokenBudget.balance.checkedAdd i.amount) (.budget .mathOverflow)
  let σ := σ.exit .budgetEscrow i.accounts.session (.session session)
  return σ.exit .budgetEscrow i.token_budget (.tokenBudget
    { tokenBudget with owner := i.accounts.owner, mint := i.mint, bump := bump, balance := balance })

inductive BudgetInstruction (K : Type) where
  | createBudget (i : CreateBudget K)
  | deposit (i : MutBudget K)
  | spend (i : MutBudget K)
  | createTokenBudget (i : CreateTokenBudget K)
  | depositToken (i : TokenBudgetAccounts K)
  | spendToken (i : TokenBudgetAccounts K)
  | spendWithSession (i : SpendWithSession K)
  | depositTokenWithSession (i : DepositTokenWithSession K)

def BudgetInstruction.execute (c : Runtime K) (tx : Tx c) : BudgetInstruction K → Ledger K → Except Error (Ledger K)
  | .createBudget i => Cortex.createBudget c tx i
  | .deposit i => Cortex.deposit c tx i
  | .spend i => Cortex.spend c tx i
  | .createTokenBudget i => Cortex.createTokenBudget c tx i
  | .depositToken i => Cortex.depositToken c tx i
  | .spendToken i => Cortex.spendToken c tx i
  | .spendWithSession i => Cortex.spendWithSession c tx i
  | .depositTokenWithSession i => Cortex.depositTokenWithSession c tx i

end EnigmaMemory.Cortex
