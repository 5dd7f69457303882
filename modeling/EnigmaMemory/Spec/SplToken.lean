import EnigmaMemory.Spec.Ledger

/-!
# The token programs

Mints, token accounts, associated token accounts and transfers of the Token and the Token-2022
program, as far as the programs use them and as anybody may use them beside. A transfer of a
Token-2022 mint credits the destination with the amount less the fee of the mint. Delegates,
freezing, closing and the other extensions are left out.
-/

namespace EnigmaMemory.Cortex

variable {K : Type} [DecidableEq K]

/-- The fee that is withheld from a transfer. -/
def withheld (c : Runtime K) (now : Int64) (mintKey : K) (mint : Mint K) (amount : UInt64) : UInt64 :=
  if mint.program = .token2022 then c.transferFee mintKey now amount else 0

/-- A token account with another amount. -/
def TokenAccount.hold (t : TokenAccount K) (amount : UInt64) : Account K := .tokenAccount { t with amount := amount }

/-- A transfer signed by `signers`; `fee` is withheld from what the destination is credited with. A transfer from an
account to itself moves nothing. -/
def transferWith (signers : List K) (source destination mintKey authority : K) (amount fee : UInt64) (σ : Ledger K) :
    Except Error (Ledger K) := do
  let src ← load σ Account.tokenAccount? source
  let dst ← load σ Account.tokenAccount? destination
  require (src.program = dst.program ∧ src.mint = mintKey ∧ dst.mint = mintKey ∧ src.owner = authority) .tokenMismatch
  require (authority ∈ signers) .accountNotSigner
  let rest ← orFail (src.amount.checkedSub amount) .tokenInsufficientFunds
  let credit ← orFail (amount.checkedSub fee) .tokenOverflow
  let total ← orFail (dst.amount.checkedAdd credit) .tokenOverflow
  return if source = destination then σ else (σ.set source (src.hold rest)).set destination (dst.hold total)

/-- `transfer_checked`. -/
def transferChecked (c : Runtime K) (now : Int64) (signers : List K) (program : TokenProgram) (source mintKey destination authority : K)
    (amount : UInt64) (decimals : UInt8) (σ : Ledger K) : Except Error (Ledger K) := do
  let mint ← load σ Account.mint? mintKey
  require (mint.program = program ∧ mint.decimals = decimals) .tokenMismatch
  transferWith signers source destination mintKey authority amount (withheld c now mintKey mint amount) σ

/-- `transfer` of the Token program. -/
def transfer (signers : List K) (source destination authority : K) (amount : UInt64) (σ : Ledger K) : Except Error (Ledger K) := do
  let src ← load σ Account.tokenAccount? source
  require (src.program = .token) .tokenMismatch
  transferWith signers source destination src.mint authority amount 0 σ

/-- `mint_to`. -/
def mintTo (signers : List K) (program : TokenProgram) (mintKey destination authority : K) (amount : UInt64) (σ : Ledger K) :
    Except Error (Ledger K) := do
  let mint ← load σ Account.mint? mintKey
  let dst ← load σ Account.tokenAccount? destination
  require (mint.program = program ∧ dst.program = program ∧ dst.mint = mintKey ∧ mint.mint_authority = authority) .tokenMismatch
  require (authority ∈ signers) .accountNotSigner
  let supply ← orFail (mint.supply.checkedAdd amount) .tokenOverflow
  let total ← orFail (dst.amount.checkedAdd amount) .tokenOverflow
  return (σ.set mintKey (.mint { mint with supply := supply })).set destination (dst.hold total)

/-! ## Associated token accounts -/

def associatedSeeds (program : TokenProgram) (wallet mint : K) : List (Seed K) := [.key wallet, .program (.spl program), .key mint]

/-- `get_associated_token_address`. -/
def associatedAddress (c : Runtime K) (program : TokenProgram) (wallet mint : K) : Option K :=
  (findProgramAddress c .associatedToken (associatedSeeds program wallet mint)).map Prod.fst

/-- `associated_token::{mint, authority, token_program}`. -/
def associated (c : Runtime K) (program : TokenProgram) (mint wallet k : K) (σ : Ledger K) : Except Error (TokenAccount K) := do
  let t ← load σ Account.tokenAccount? k
  require (t.program = program ∧ t.mint = mint ∧ t.owner = wallet) .tokenMismatch
  require (associatedAddress c program wallet mint = some k) .constraintAssociated
  return t

/-- `init_if_needed` with `associated_token`. -/
def initAssociated (c : Runtime K) (program : TokenProgram) (mint wallet k : K) (σ : Ledger K) : Except Error (Ledger K) :=
  if (σ.get k).isNone then do
    let m ← load σ Account.mint? mint
    require (m.program = program) .tokenMismatch
    require (associatedAddress c program wallet mint = some k) .constraintAssociated
    return σ.set k (.tokenAccount ⟨program, mint, wallet, 0⟩)
  else do
    let _ ← associated c program mint wallet k σ
    return σ

/-! ## Instructions -/

structure InitializeMint (K : Type) where
  program : TokenProgram
  mint : K
  mint_authority : K
  decimals : UInt8

/-- A mint at an address whose key signs. -/
def initializeMint {c : Runtime K} (tx : Tx c) (i : InitializeMint K) (σ : Ledger K) : Except Error (Ledger K) := do
  signer tx i.mint
  let mint ← init σ i.mint (⟨i.program, i.mint_authority, 0, i.decimals⟩ : Mint K)
  return σ.exit (.spl i.program) i.mint (.mint mint)

structure InitializeAccount (K : Type) where
  program : TokenProgram
  account : K
  mint : K
  owner : K

/-- A token account at an address whose key signs. -/
def initializeAccount {c : Runtime K} (tx : Tx c) (i : InitializeAccount K) (σ : Ledger K) : Except Error (Ledger K) := do
  signer tx i.account
  let mint ← load σ Account.mint? i.mint
  require (mint.program = i.program) .tokenMismatch
  let t ← init σ i.account (⟨i.program, i.mint, i.owner, 0⟩ : TokenAccount K)
  return σ.exit (.spl i.program) i.account (.tokenAccount t)

structure CreateAssociated (K : Type) where
  program : TokenProgram
  wallet : K
  mint : K
  account : K

structure MintTo (K : Type) where
  program : TokenProgram
  mint : K
  destination : K
  authority : K
  amount : UInt64

structure TransferChecked (K : Type) where
  program : TokenProgram
  source : K
  mint : K
  destination : K
  authority : K
  amount : UInt64
  decimals : UInt8

inductive SplInstruction (K : Type) where
  | initializeMint (i : InitializeMint K)
  | initializeAccount (i : InitializeAccount K)
  | createAssociated (i : CreateAssociated K)
  | mintTo (i : MintTo K)
  | transferChecked (i : TransferChecked K)

def SplInstruction.execute (c : Runtime K) (tx : Tx c) : SplInstruction K → Ledger K → Except Error (Ledger K)
  | .initializeMint i => Cortex.initializeMint tx i
  | .initializeAccount i => Cortex.initializeAccount tx i
  | .createAssociated i => initAssociated c i.program i.mint i.wallet i.account
  | .mintTo i => Cortex.mintTo tx.signers i.program i.mint i.destination i.authority i.amount
  | .transferChecked i =>
    Cortex.transferChecked c tx.now tx.signers i.program i.source i.mint i.destination i.authority i.amount i.decimals

end EnigmaMemory.Cortex
