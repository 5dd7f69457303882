import EnigmaMemory.Lib.Checked
import EnigmaMemory.Lib.Ordered

/-!
# Accounts on the ledger

What the programs of `cortex-v3/programs` take from the runtime and from Anchor. The ledger maps
addresses to accounts; an account belongs to one program, which its type decides. An instruction
loads the accounts it is given, checks the constraints on them, computes on copies, and writes back
at its exit the copies whose type it owns. An instruction that fails writes nothing.

Addresses of program accounts are derived from seeds. The derivation belongs to the runtime; it is
a parameter, and no two derivations are taken to give one address. Rent and lamports are left out.
-/

namespace EnigmaMemory.Cortex

inductive TokenProgram where
  | token
  | token2022
  deriving DecidableEq, Repr

inductive Program where
  | capabilityRegistry
  | budgetEscrow
  | memoryRegistry
  | royaltyRouter
  | cortexToken
  | spl (p : TokenProgram)
  | associatedToken
  deriving DecidableEq, Repr

/-- A seed of a derived address. -/
inductive Seed (K : Type) where
  | text (s : String)
  | key (k : K)
  | program (p : Program)
  | u64 (n : UInt64)
  | bytes (b : List UInt8)
  deriving DecidableEq

/-- `[u8; 32]`. -/
abbrev Hash := Vector UInt8 32

def zeroHash : Hash := Vector.replicate 32 0

/-- `&content_hash[..8]`. -/
def hashSeed {K : Type} (h : Hash) : Seed K := .bytes (h.toList.take 8)

/-! ## The runtime -/

/-- The runtime and the token programs, for keys of type `K`. -/
structure Runtime (K : Type) where
  /-- `create_program_address(seeds, bump)`; seeds that give a point of the curve have no address. -/
  createProgramAddress : Program → List (Seed K) → UInt8 → Option K
  /-- A key that a signature can be checked against. -/
  wallet : K → Bool
  /-- `Pubkey::default()`. -/
  default : K
  /-- The fee that a Token-2022 mint withholds from a transfer at a time. -/
  transferFee : K → Int64 → UInt64 → UInt64
  createProgramAddress_inj : ∀ {p p' s s' b b' a}, createProgramAddress p s b = some a →
    createProgramAddress p' s' b' = some a → p = p' ∧ s = s' ∧ b = b'
  wallet_derived : ∀ {p s b a}, createProgramAddress p s b = some a → wallet a = false
  wallet_default : wallet default = false
  transferFee_le : ∀ mint now amount, transferFee mint now amount ≤ amount

/-- The signers of a transaction, whose signatures have been checked, and its time. -/
structure Tx {K : Type} (c : Runtime K) where
  now : Int64
  signers : List K
  verified : ∀ k ∈ signers, c.wallet k = true

/-! ## Errors -/

inductive CapError where
  | scopeTooLong
  | sessionOwnerMismatch
  | sessionKeyMismatch
  | sessionRevoked
  | sessionExpired
  | scopeNotGranted
  | ownerNonceMismatch
  | sessionOpsExceeded
  | sessionSpendPerTxExceeded
  | sessionSpendPerDayExceeded
  deriving DecidableEq, Repr

inductive BudgetError where
  | insufficientFunds
  | invalidOwner
  | invalidMint
  | invalidAmount
  | mathOverflow
  | alreadyInitialized
  deriving DecidableEq, Repr

inductive MemoryError where
  | royaltyTooHigh
  deriving DecidableEq, Repr

inductive TokenError where
  | invalidVoteSide
  | alreadyVoted
  | lockupNotActive
  | overflow
  deriving DecidableEq, Repr

/-- Errors of the runtime, of Anchor's constraints, of the token programs and of the programs. -/
inductive Error where
  | panic
  | accountNotSigner
  | accountNotInitialized
  | accountWrongType
  | accountInUse
  | constraintSeeds
  | constraintHasOne
  | constraintRaw
  | constraintAssociated
  | requireEqViolated
  | tokenMismatch
  | tokenInsufficientFunds
  | tokenOverflow
  | cap (e : CapError)
  | budget (e : BudgetError)
  | memory (e : MemoryError)
  | token (e : TokenError)
  deriving DecidableEq, Repr

/-! ## Account types -/

variable {K : Type}

structure Capability (K : Type) where
  owner : K
  granted_to : K
  scope : String
  expires_at : Int64
  created_at : Int64
  bump : UInt8
  deriving DecidableEq

structure Session (K : Type) where
  owner : K
  session_key : K
  nonce : UInt64
  owner_nonce : UInt64
  scope : UInt32
  categories_hash : Hash
  max_spend_per_tx : UInt64
  max_spend_per_day : UInt64
  spent_today : UInt64
  max_ops_per_day : UInt32
  ops_today : UInt32
  window_start : Int64
  expires_at : Int64
  revoked : Bool
  bump : UInt8
  deriving DecidableEq

structure OwnerNonce (K : Type) where
  owner : K
  nonce : UInt64
  bump : UInt8
  deriving DecidableEq

structure Budget (K : Type) where
  owner : K
  balance : UInt64
  spent : UInt64
  created_at : Int64
  bump : UInt8
  deriving DecidableEq

structure TokenBudget (K : Type) where
  owner : K
  mint : K
  balance : UInt64
  spent : UInt64
  bump : UInt8
  deriving DecidableEq

structure Memory (K : Type) where
  owner : K
  content_hash : Hash
  created_at : Int64
  updated_at : Int64
  shareable : Bool
  royalty_bps : UInt16
  bump : UInt8
  deriving DecidableEq

structure Receipt (K : Type) where
  payer : K
  payee : K
  amount : UInt64
  content_hash : Hash
  created_at : Int64
  bump : UInt8
  deriving DecidableEq

structure StakeEntry (K : Type) where
  owner : K
  mint : K
  amount : UInt64
  nonce : UInt64
  bump : UInt8
  deriving DecidableEq

structure VeSal (K : Type) where
  owner : K
  stake : K
  amount : UInt64
  lock_start : Int64
  lock_end : Int64
  bump : UInt8
  deriving DecidableEq

structure Proposal (K : Type) where
  proposer : K
  id : UInt64
  yes_votes : UInt64
  no_votes : UInt64
  bump : UInt8
  deriving DecidableEq

structure VoteReceipt (K : Type) where
  voter : K
  proposal : K
  weight : UInt64
  side : UInt8
  bump : UInt8
  deriving DecidableEq

/-- A mint of one of the token programs. -/
structure Mint (K : Type) where
  program : TokenProgram
  mint_authority : K
  supply : UInt64
  decimals : UInt8
  deriving DecidableEq

structure TokenAccount (K : Type) where
  program : TokenProgram
  mint : K
  owner : K
  amount : UInt64
  deriving DecidableEq

inductive Account (K : Type) where
  | capability (x : Capability K)
  | session (x : Session K)
  | ownerNonce (x : OwnerNonce K)
  | budget (x : Budget K)
  | tokenBudget (x : TokenBudget K)
  | memory (x : Memory K)
  | receipt (x : Receipt K)
  | stake (x : StakeEntry K)
  | veSal (x : VeSal K)
  | proposal (x : Proposal K)
  | voteReceipt (x : VoteReceipt K)
  | mint (x : Mint K)
  | tokenAccount (x : TokenAccount K)
  deriving DecidableEq

namespace Account

/-- The program that owns an account. -/
def program : Account K → Program
  | capability _ | session _ | ownerNonce _ => .capabilityRegistry
  | budget _ | tokenBudget _ => .budgetEscrow
  | memory _ => .memoryRegistry
  | receipt _ => .royaltyRouter
  | stake _ | veSal _ | proposal _ | voteReceipt _ => .cortexToken
  | mint x => .spl x.program
  | tokenAccount x => .spl x.program

def capability? : Account K → Option (Capability K)
  | capability x => some x
  | _ => none

def session? : Account K → Option (Session K)
  | session x => some x
  | _ => none

def ownerNonce? : Account K → Option (OwnerNonce K)
  | ownerNonce x => some x
  | _ => none

def budget? : Account K → Option (Budget K)
  | budget x => some x
  | _ => none

def tokenBudget? : Account K → Option (TokenBudget K)
  | tokenBudget x => some x
  | _ => none

def memory? : Account K → Option (Memory K)
  | memory x => some x
  | _ => none

def receipt? : Account K → Option (Receipt K)
  | receipt x => some x
  | _ => none

def stake? : Account K → Option (StakeEntry K)
  | stake x => some x
  | _ => none

def veSal? : Account K → Option (VeSal K)
  | veSal x => some x
  | _ => none

def proposal? : Account K → Option (Proposal K)
  | proposal x => some x
  | _ => none

def voteReceipt? : Account K → Option (VoteReceipt K)
  | voteReceipt x => some x
  | _ => none

def mint? : Account K → Option (Mint K)
  | mint x => some x
  | _ => none

def tokenAccount? : Account K → Option (TokenAccount K)
  | tokenAccount x => some x
  | _ => none

end Account

/-! ## Loading, creating and writing back -/

abbrev Ledger (K : Type) := OrdMap K (Account K)

/-- `require!` and the constraints. -/
def require (p : Prop) [Decidable p] (e : Error) : Except Error Unit := if p then .ok () else .error e

def orFail {α : Type} (o : Option α) (e : Error) : Except Error α :=
  match o with
  | some a => .ok a
  | none => .error e

section

variable [DecidableEq K]

/-- The account of a type at an address. -/
def Ledger.view {T : Type} (σ : Ledger K) (type : Account K → Option T) (k : K) : Option T := (σ.get k).bind type

/-- `Account<'info, T>`. -/
def load {T : Type} (σ : Ledger K) (type : Account K → Option T) (k : K) : Except Error T :=
  match σ.get k with
  | none => .error .accountNotInitialized
  | some a => orFail (type a) .accountWrongType

/-- `init`: the address is not in use, and the data of the new account are zero. -/
def init {T : Type} (σ : Ledger K) (k : K) (zero : T) : Except Error T :=
  if (σ.get k).isNone then .ok zero else .error .accountInUse

/-- `init_if_needed`. -/
def initIfNeeded {T : Type} (σ : Ledger K) (type : Account K → Option T) (k : K) (zero : T) : Except Error T :=
  match σ.get k with
  | none => .ok zero
  | some a => orFail (type a) .accountWrongType

/-- The exit of an instruction of program `p` for one account: the copy is written back if the type is owned by `p`. -/
def Ledger.exit (σ : Ledger K) (p : Program) (k : K) (a : Account K) : Ledger K := if a.program = p then σ.set k a else σ

/-- `close = destination`. -/
def Ledger.close (σ : Ledger K) (k : K) : Ledger K := σ.delete k

/-- `Signer<'info>`. -/
def signer {c : Runtime K} (tx : Tx c) (k : K) : Except Error Unit := require (k ∈ tx.signers) .accountNotSigner

/-- `seeds = [..], bump = b`. -/
def seedsWithBump (c : Runtime K) (p : Program) (seeds : List (Seed K)) (bump : UInt8) (k : K) : Except Error Unit :=
  require (c.createProgramAddress p seeds bump = some k) .constraintSeeds

end

/-- The bumps in the order in which they are tried; zero is not among them. -/
def bumps : List UInt8 := (List.range 255).map fun i => UInt8.ofNat (255 - i)

/-- `find_program_address`. -/
def findProgramAddress (c : Runtime K) (p : Program) (seeds : List (Seed K)) : Option (K × UInt8) :=
  bumps.findSome? fun bump => (c.createProgramAddress p seeds bump).map (·, bump)

/-- `seeds = [..], bump`: the address with the bump that is found first. -/
def seedsFound [DecidableEq K] (c : Runtime K) (p : Program) (seeds : List (Seed K)) (k : K) : Except Error UInt8 := do
  let found ← orFail (findProgramAddress c p seeds) .panic
  require (found.1 = k) .constraintSeeds
  return found.2

end EnigmaMemory.Cortex
