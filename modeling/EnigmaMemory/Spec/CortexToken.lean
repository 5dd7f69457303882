import EnigmaMemory.Spec.SplToken

/-!
# `cortex_token`

Stakes of tokens, their locks as veSAL, and votes on proposals with the weight of a locked stake.
-/

namespace EnigmaMemory.Cortex

variable {K : Type} [DecidableEq K]

def stakeSeeds (owner : K) (nonce : UInt64) : List (Seed K) := [.text "stake", .key owner, .u64 nonce]

def vesalSeeds (owner stake : K) : List (Seed K) := [.text "vesal", .key owner, .key stake]

def proposalSeeds (proposer : K) (id : UInt64) : List (Seed K) := [.text "proposal", .key proposer, .u64 id]

def voteSeeds (proposal voter : K) : List (Seed K) := [.text "vote", .key proposal, .key voter]

/-! ## Tokens -/

structure MintToTreasury (K : Type) where
  mint : K
  treasury : K
  mint_authority : K
  amount : UInt64

def mintToTreasury (c : Runtime K) (tx : Tx c) (i : MintToTreasury K) (σ : Ledger K) : Except Error (Ledger K) := do
  let _ ← seedsFound c .cortexToken [.text "mint_authority"] i.mint_authority
  mintTo (tx.signers ++ [i.mint_authority]) .token i.mint i.treasury i.mint_authority i.amount σ

structure TransferTokens (K : Type) where
  sender : K
  from_ata : K
  to_ata : K
  recipient : K
  mint : K
  amount : UInt64

/-- `transfer`; `sender` and `recipient` are the accounts `from` and `to`. -/
def transferTokens (c : Runtime K) (tx : Tx c) (i : TransferTokens K) (σ : Ledger K) : Except Error (Ledger K) := do
  signer tx i.sender
  let _ ← associated c .token i.mint i.sender i.from_ata σ
  let _ ← associated c .token i.mint i.recipient i.to_ata σ
  transfer tx.signers i.from_ata i.to_ata i.sender i.amount σ

/-! ## Stakes and locks -/

structure StakeForVesal (K : Type) where
  owner : K
  mint : K
  stake : K
  owner_ata : K
  stake_vault : K
  stake_vault_authority : K
  nonce : UInt64
  amount : UInt64

def stakeForVesal (c : Runtime K) (tx : Tx c) (i : StakeForVesal K) (σ : Ledger K) : Except Error (Ledger K) := do
  signer tx i.owner
  let mint ← load σ Account.mint? i.mint
  require (mint.program = .token) .accountWrongType
  let bump ← seedsFound c .cortexToken (stakeSeeds i.owner i.nonce) i.stake
  let stake ← init σ i.stake (⟨i.owner, i.mint, i.amount, i.nonce, bump⟩ : StakeEntry K)
  let _ ← associated c .token i.mint i.owner i.owner_ata σ
  let _ ← seedsFound c .cortexToken [.text "stake_vault_authority"] i.stake_vault_authority
  let σ ← initAssociated c .token i.mint i.stake_vault_authority i.stake_vault σ
  let σ ← transfer tx.signers i.owner_ata i.stake_vault i.owner i.amount σ
  return σ.exit .cortexToken i.stake (.stake stake)

structure LockVesal (K : Type) where
  owner : K
  stake : K
  vesal : K
  duration_secs : Int64

def lockVesal (c : Runtime K) (tx : Tx c) (i : LockVesal K) (σ : Ledger K) : Except Error (Ledger K) := do
  signer tx i.owner
  let stake ← load σ Account.stake? i.stake
  seedsWithBump c .cortexToken (stakeSeeds i.owner stake.nonce) stake.bump i.stake
  require (stake.owner = i.owner) .constraintHasOne
  let bump ← seedsFound c .cortexToken (vesalSeeds i.owner i.stake) i.vesal
  let lockEnd ← orFail (tx.now.checkedAdd i.duration_secs) (.token .overflow)
  let vesal ← init σ i.vesal (⟨i.owner, i.stake, stake.amount, tx.now, lockEnd, bump⟩ : VeSal K)
  return (σ.exit .cortexToken i.stake (.stake stake)).exit .cortexToken i.vesal (.veSal vesal)

/-! ## Votes -/

structure CreateProposal (K : Type) where
  proposer : K
  proposal : K
  id : UInt64

def createProposal (c : Runtime K) (tx : Tx c) (i : CreateProposal K) (σ : Ledger K) : Except Error (Ledger K) := do
  signer tx i.proposer
  let bump ← seedsFound c .cortexToken (proposalSeeds i.proposer i.id) i.proposal
  let proposal ← init σ i.proposal (⟨i.proposer, i.id, 0, 0, bump⟩ : Proposal K)
  return σ.exit .cortexToken i.proposal (.proposal proposal)

structure Vote (K : Type) where
  voter : K
  stake : K
  vesal : K
  proposal : K
  vote_receipt : K
  side : UInt8

/-- The proposal with a weight counted on a side. -/
def Proposal.count (p : Proposal K) (side : UInt8) (weight : UInt64) : Option (Proposal K) :=
  if side = 1 then (p.yes_votes.checkedAdd weight).map fun votes => { p with yes_votes := votes }
  else (p.no_votes.checkedAdd weight).map fun votes => { p with no_votes := votes }

def vote (c : Runtime K) (tx : Tx c) (i : Vote K) (σ : Ledger K) : Except Error (Ledger K) := do
  signer tx i.voter
  let stake ← load σ Account.stake? i.stake
  seedsWithBump c .cortexToken (stakeSeeds i.voter stake.nonce) stake.bump i.stake
  require (stake.owner = i.voter) .constraintRaw
  let vesal ← load σ Account.veSal? i.vesal
  seedsWithBump c .cortexToken (vesalSeeds i.voter i.stake) vesal.bump i.vesal
  require (vesal.stake = i.stake) .constraintHasOne
  let proposal ← load σ Account.proposal? i.proposal
  let bump ← seedsFound c .cortexToken (voteSeeds i.proposal i.voter) i.vote_receipt
  let receipt ← initIfNeeded σ Account.voteReceipt? i.vote_receipt (⟨c.default, c.default, 0, 0, 0⟩ : VoteReceipt K)
  require (i.side = 0 ∨ i.side = 1) (.token .invalidVoteSide)
  require (receipt.weight = 0) (.token .alreadyVoted)
  require (tx.now < vesal.lock_end) (.token .lockupNotActive)
  let proposal ← orFail (proposal.count i.side vesal.amount) (.token .overflow)
  let σ := σ.exit .cortexToken i.stake (.stake stake)
  let σ := σ.exit .cortexToken i.proposal (.proposal proposal)
  return σ.exit .cortexToken i.vote_receipt (.voteReceipt ⟨i.voter, i.proposal, vesal.amount, i.side, bump⟩)

inductive TokenInstruction (K : Type) where
  | mintToTreasury (i : MintToTreasury K)
  | transfer (i : TransferTokens K)
  | stakeForVesal (i : StakeForVesal K)
  | lockVesal (i : LockVesal K)
  | createProposal (i : CreateProposal K)
  | vote (i : Vote K)

def TokenInstruction.execute (c : Runtime K) (tx : Tx c) : TokenInstruction K → Ledger K → Except Error (Ledger K)
  | .mintToTreasury i => Cortex.mintToTreasury c tx i
  | .transfer i => transferTokens c tx i
  | .stakeForVesal i => Cortex.stakeForVesal c tx i
  | .lockVesal i => Cortex.lockVesal c tx i
  | .createProposal i => Cortex.createProposal c tx i
  | .vote i => Cortex.vote c tx i

end EnigmaMemory.Cortex
