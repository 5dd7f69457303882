import EnigmaMemory.Proof.Sessions

/-!
# Votes over runs

Stakes are locked, and a locked stake votes once on a proposal with its amount.

* `votes_tallied`: the votes of a proposal are the sum of its receipts, a voter has one receipt, and
  each weight is the amount of a stake that was locked when the vote was cast.
* `votes_one_mint`: if all stakes of a run are of one mint, so are all votes on a proposal.
-/

namespace EnigmaMemory.Cortex

variable {K : Type} {c : Runtime K} {tx : Tx c} {st : Step c} {k : K}

/-- Counting a weight on a side of a proposal. -/
theorem count_votes {p p' : Proposal K} {side : UInt8} {weight : UInt64} (hside : side = 0 ∨ side = 1)
    (h : p.count side weight = some p') :
    p'.yes_votes.toNat = p.yes_votes.toNat + (if side = 1 then weight.toNat else 0) ∧
      p'.no_votes.toNat = p.no_votes.toNat + if side = 0 then weight.toNat else 0 := by
  unfold Proposal.count at h
  split at h
  · rename_i hone
    obtain ⟨votes, hvotes, rfl⟩ := Option.map_eq_some_iff.1 h
    rw [UInt64.checkedAdd_eq_some] at hvotes
    subst hone
    exact ⟨hvotes, rfl⟩
  · rename_i hone
    obtain rfl : side = 0 := hside.resolve_right hone
    obtain ⟨votes, hvotes, rfl⟩ := Option.map_eq_some_iff.1 h
    rw [UInt64.checkedAdd_eq_some] at hvotes
    exact ⟨rfl, hvotes⟩

variable [DecidableEq K] {σ τ υ : Ledger K}

/-! ## Steps -/

def SameStakes (σ τ : Ledger K) : Prop := ∀ k, τ.view Account.stake? k = σ.view Account.stake? k

def SameLocks (σ τ : Ledger K) : Prop := ∀ k, τ.view Account.veSal? k = σ.view Account.veSal? k

def SameProposals (σ τ : Ledger K) : Prop := ∀ k, τ.view Account.proposal? k = σ.view Account.proposal? k

def SameReceipts (σ τ : Ledger K) : Prop := ∀ k, τ.view Account.voteReceipt? k = σ.view Account.voteReceipt? k

/-- Everything that a vote reads is the same. -/
def SameVotes (σ τ : Ledger K) : Prop := SameStakes σ τ ∧ SameLocks σ τ ∧ SameProposals σ τ ∧ SameReceipts σ τ

theorem Owned.sameVotes {ps : List Program} (h : Owned ps σ τ) (hp : Program.cortexToken ∉ ps) : SameVotes σ τ :=
  ⟨fun _ => h.view stores_stake fun _ => hp, fun _ => h.view stores_veSal fun _ => hp,
    fun _ => h.view stores_proposal fun _ => hp, fun _ => h.view stores_voteReceipt fun _ => hp⟩

/-- An instruction that neither stakes nor votes. -/
def Instruction.NoVote (i : Instruction K) : Prop := (∀ j, i ≠ .token (.stakeForVesal j)) ∧ ∀ j, i ≠ .token (.vote j)

/-- **What a step does to the votes.** -/
theorem step_votes (h : step c σ st = some τ) :
    (st.instruction.NoVote ∧ SameVotes σ τ) ∨
      (∃ i, st.instruction = .token (.stakeForVesal i) ∧ stakeForVesal c st.tx i σ = .ok τ) ∨
      (st.instruction.NoVote ∧ ∃ i, lockVesal c st.tx i σ = .ok τ) ∨
      (st.instruction.NoVote ∧ ∃ i, createProposal c st.tx i σ = .ok τ) ∨
      ∃ i, st.instruction = .token (.vote i) ∧ vote c st.tx i σ = .ok τ := by
  have h := step_ok.1 h
  cases hi : st.instruction with
  | token i =>
    rw [hi] at h
    cases i with
    | mintToTreasury i => exact .inl ⟨by simp [Instruction.NoVote], (mintTo_owned (mintToTreasury_ok h)).sameVotes (by decide)⟩
    | transfer i => exact .inl ⟨by simp [Instruction.NoVote], (transfer_owned (transferTokens_ok h)).sameVotes (by decide)⟩
    | stakeForVesal i => exact .inr (.inl ⟨i, rfl, h⟩)
    | lockVesal i => exact .inr (.inr (.inl ⟨by simp [Instruction.NoVote], i, h⟩))
    | createProposal i => exact .inr (.inr (.inr (.inl ⟨by simp [Instruction.NoVote], i, h⟩)))
    | vote i => exact .inr (.inr (.inr (.inr ⟨i, rfl, h⟩)))
  | capability i =>
    rw [hi] at h
    exact .inl ⟨by simp [Instruction.NoVote], (capability_owned h).sameVotes (by decide)⟩
  | budget i =>
    rw [hi] at h
    exact .inl ⟨by simp [Instruction.NoVote], (budget_owned h).sameVotes (by decide)⟩
  | memory i =>
    rw [hi] at h
    exact .inl ⟨by simp [Instruction.NoVote], (memory_owned h).sameVotes (by decide)⟩
  | royalty i =>
    rw [hi] at h
    exact .inl ⟨by simp [Instruction.NoVote], (royalty_owned h).sameVotes (by decide)⟩
  | spl i =>
    rw [hi] at h
    exact .inl ⟨by simp [Instruction.NoVote], (spl_owned h).sameVotes (by decide)⟩

theorem stakeForVesal_views {i : StakeForVesal K} (h : stakeForVesal c tx i σ = .ok τ) :
    σ.view Account.stake? i.stake = none ∧
      (∃ bump, ∀ k, τ.view Account.stake? k =
        if k = i.stake then some ⟨i.owner, i.mint, i.amount, i.nonce, bump⟩ else σ.view Account.stake? k) ∧
      SameLocks σ τ ∧ SameProposals σ τ ∧ SameReceipts σ τ := by
  obtain ⟨bump, υ, ω, -, hnew, hinit, htransfer, rfl⟩ := stakeForVesal_ok h
  have howned := (initAssociated_owned hinit).trans (transfer_owned htransfer)
  obtain ⟨hstakes, hlocks, hproposals, hreceipts⟩ := howned.sameVotes (by decide)
  refine ⟨view_none hnew, ⟨bump, fun k => ?_⟩, fun k => ?_, fun k => ?_, fun k => ?_⟩
  · rw [view_set, hstakes]
    rfl
  · rw [view_set_other rfl ((hlocks _).trans (view_none hnew)), hlocks]
  · rw [view_set_other rfl ((hproposals _).trans (view_none hnew)), hproposals]
  · rw [view_set_other rfl ((hreceipts _).trans (view_none hnew)), hreceipts]

theorem lockVesal_views {i : LockVesal K} (h : lockVesal c tx i σ = .ok τ) :
    ∃ s v, σ.view Account.stake? i.stake = some s ∧ v.stake = i.stake ∧ v.amount = s.amount ∧ SameStakes σ τ ∧
      (∀ k, τ.view Account.veSal? k = if k = i.vesal then some v else σ.view Account.veSal? k) ∧ SameProposals σ τ ∧
      SameReceipts σ τ := by
  obtain ⟨s, bump, lockEnd, hs, -, -, hnew, rfl⟩ := lockVesal_ok h
  have hsame : ∀ {T : Type} {type : Account K → Option T} k,
      Ledger.view (OrdMap.set σ i.stake (.stake s)) type k = σ.view type k := fun _ => view_set_same stores_stake hs
  refine ⟨s, ⟨i.owner, i.stake, s.amount, tx.now, lockEnd, bump⟩, hs, rfl, rfl, fun k => ?_, fun k => ?_, fun k => ?_,
    fun k => ?_⟩
  · rw [view_set_other rfl ((hsame _).trans (view_none hnew)), hsame]
  · rw [view_set, hsame]
    rfl
  · rw [view_set_other rfl ((hsame _).trans (view_none hnew)), hsame]
  · rw [view_set_other rfl ((hsame _).trans (view_none hnew)), hsame]

theorem createProposal_views {i : CreateProposal K} (h : createProposal c tx i σ = .ok τ) :
    ∃ p, p.yes_votes = 0 ∧ p.no_votes = 0 ∧ σ.view Account.proposal? i.proposal = none ∧ SameStakes σ τ ∧ SameLocks σ τ ∧
      (∀ k, τ.view Account.proposal? k = if k = i.proposal then some p else σ.view Account.proposal? k) ∧ SameReceipts σ τ := by
  obtain ⟨bump, -, hnew, rfl⟩ := createProposal_ok h
  refine ⟨⟨i.proposer, i.id, 0, 0, bump⟩, rfl, rfl, view_none hnew, fun k => ?_, fun k => ?_, fun k => ?_, fun k => ?_⟩
  · exact view_set_other rfl (view_none hnew)
  · exact view_set_other rfl (view_none hnew)
  · exact view_set
  · exact view_set_other rfl (view_none hnew)

theorem vote_views {i : Vote K} (h : vote c tx i σ = .ok τ) :
    ∃ s v p bump p', σ.view Account.stake? i.stake = some s ∧ s.owner = i.voter ∧ σ.view Account.veSal? i.vesal = some v ∧
      v.stake = i.stake ∧ tx.now < v.lock_end ∧ σ.view Account.proposal? i.proposal = some p ∧
      p.count i.side v.amount = some p' ∧ (i.side = 0 ∨ i.side = 1) ∧
      findProgramAddress c .cortexToken (voteSeeds i.proposal i.voter) = some (i.vote_receipt, bump) ∧
      (∀ r, σ.view Account.voteReceipt? i.vote_receipt = some r → r.weight = 0) ∧ SameStakes σ τ ∧ SameLocks σ τ ∧
      (∀ k, τ.view Account.proposal? k = if k = i.proposal then some p' else σ.view Account.proposal? k) ∧
      ∀ k, τ.view Account.voteReceipt? k =
        if k = i.vote_receipt then some ⟨i.voter, i.proposal, v.amount, i.side, bump⟩ else σ.view Account.voteReceipt? k := by
  obtain ⟨s, v, p, bump, r, p', hs, howner, hv, -, hstake, hp, hfound, hopen, hside, hweight, hlock, hcount, rfl⟩ := vote_ok h
  have hsame : ∀ {T : Type} {type : Account K → Option T} k,
      Ledger.view (OrdMap.set σ i.stake (.stake s)) type k = σ.view type k := fun _ => view_set_same stores_stake hs
  -- neither the proposal nor the receipt holds an account of another type
  have hother : ∀ {T : Type} {type : Account K → Option T}, (∀ x, type (.proposal x) = none) → ∀ k,
      Ledger.view (OrdMap.set (OrdMap.set σ i.stake (.stake s)) i.proposal (.proposal p')) type k = σ.view type k := by
    intro T type htype k
    rw [view_set_other (htype _) ((hsame _).trans (stores_proposal.view_other hp htype)), hsame]
  have hreceipt : ∀ {T : Type} {type : Account K → Option T}, (∀ x, type (.proposal x) = none) → (∀ x, type (.voteReceipt x) = none) →
      ∀ {x} k, Ledger.view (OrdMap.set (OrdMap.set (OrdMap.set σ i.stake (.stake s)) i.proposal (.proposal p')) i.vote_receipt
        (.voteReceipt x)) type k = σ.view type k := by
    intro T type htype htype' x k
    rw [view_set_other (htype' _) ((hother htype _).trans (hopen.view_other stores_voteReceipt htype')), hother htype]
  have hne : i.vote_receipt ≠ i.proposal := by
    intro heq
    have hnone : σ.view Account.proposal? i.vote_receipt = none := hopen.view_other stores_voteReceipt fun _ => rfl
    rw [heq, hp] at hnone
    cases hnone
  refine ⟨s, v, p, bump, p', hs, howner, hv, hstake, hlock, hp, hcount, hside, hfound, ?_, ?_, ?_, fun k => ?_, fun k => ?_⟩
  · intro r' hr'
    rcases hopen with ⟨hnone, -⟩ | hview
    · rw [view_none hnone] at hr'
      cases hr'
    · cases hview.symm.trans hr'
      exact hweight
  · exact fun k => hreceipt (fun _ => rfl) (fun _ => rfl) k
  · exact fun k => hreceipt (fun _ => rfl) (fun _ => rfl) k
  · rw [view_set_other rfl]
    · rw [view_set, hsame]
      rfl
    · rw [view_set, if_neg hne, hsame]
      exact hopen.view_other stores_voteReceipt fun _ => rfl
  · rw [view_set, hother fun _ => rfl]
    rfl

/-! ## The tally -/

/-- The weights of the receipts of a proposal on a side. -/
def voteTotal (proposal : K) (side : UInt8) (σ : Ledger K) : ℕ :=
  σ.total Account.voteReceipt? fun r => if r.proposal = proposal ∧ r.side = side then r.weight.toNat else 0

/-- What the accounts of the votes say of each other. -/
structure VotesFiled (c : Runtime K) (σ : Ledger K) : Prop where
  /-- A receipt stands at the address of its proposal and its voter, and the proposal exists. -/
  receipts : ∀ k r, σ.view Account.voteReceipt? k = some r →
    (∃ bump, findProgramAddress c .cortexToken (voteSeeds r.proposal r.voter) = some (k, bump)) ∧
      ∃ p, σ.view Account.proposal? r.proposal = some p
  /-- A lock holds the amount of its stake. -/
  locks : ∀ k v, σ.view Account.veSal? k = some v → ∃ s, σ.view Account.stake? v.stake = some s ∧ s.amount = v.amount
  /-- A proposal counts its receipts. -/
  tally : ∀ k p, σ.view Account.proposal? k = some p → p.yes_votes.toNat = voteTotal k 1 σ ∧ p.no_votes.toNat = voteTotal k 0 σ

theorem voteTotal_congr {side : UInt8} (h : SameReceipts σ τ) : voteTotal k side τ = voteTotal k side σ :=
  total_congr stores_voteReceipt h

/-- A receipt of weight zero, or none, is replaced. -/
theorem voteTotal_update {kr : K} {r : VoteReceipt K} {side : UInt8}
    (hzero : ∀ r, σ.view Account.voteReceipt? kr = some r → r.weight = 0)
    (h : ∀ k, τ.view Account.voteReceipt? k = if k = kr then some r else σ.view Account.voteReceipt? k) :
    voteTotal k side τ = voteTotal k side σ + if r.proposal = k ∧ r.side = side then r.weight.toNat else 0 := by
  have hupdate : voteTotal k side τ + _ = _ := total_update stores_voteReceipt h
  have hold : ((σ.view Account.voteReceipt? kr).elim 0 fun r => if r.proposal = k ∧ r.side = side then r.weight.toNat else 0) = 0 := by
    cases hr : σ.view Account.voteReceipt? kr with
    | none => rfl
    | some r₀ =>
      have hweight : r₀.weight = 0 := hzero r₀ hr
      rw [Option.elim_some, hweight]
      exact ite_self 0
  rw [hold, Nat.add_zero] at hupdate
  exact hupdate

/-- **A step keeps the tally.** -/
theorem step_votesFiled (hfiled : VotesFiled c σ) (h : step c σ st = some τ) : VotesFiled c τ := by
  rcases step_votes h with ⟨-, hstakes, hlocks, hproposals, hreceipts⟩ | ⟨i, -, h⟩ | ⟨-, i, h⟩ | ⟨-, i, h⟩ | ⟨i, -, h⟩
  · constructor
    · intro k r hr
      rw [hproposals]
      exact hfiled.receipts k r (hreceipts k ▸ hr)
    · intro k v hv
      rw [hstakes]
      exact hfiled.locks k v (hlocks k ▸ hv)
    · intro k p hp
      rw [voteTotal_congr hreceipts, voteTotal_congr hreceipts]
      exact hfiled.tally k p (hproposals k ▸ hp)
  · obtain ⟨hnew, ⟨bump, hstakes⟩, hlocks, hproposals, hreceipts⟩ := stakeForVesal_views h
    constructor
    · intro k r hr
      rw [hproposals]
      exact hfiled.receipts k r (hreceipts k ▸ hr)
    · intro k v hv
      obtain ⟨s, hs, hamount⟩ := hfiled.locks k v (hlocks k ▸ hv)
      -- the stake of a lock is there already
      have hne : v.stake ≠ i.stake := by
        intro heq
        rw [heq, hnew] at hs
        cases hs
      rw [hstakes, if_neg hne]
      exact ⟨s, hs, hamount⟩
    · intro k p hp
      rw [voteTotal_congr hreceipts, voteTotal_congr hreceipts]
      exact hfiled.tally k p (hproposals k ▸ hp)
  · obtain ⟨s, v, hs, hstake, hamount, hstakes, hlocks, hproposals, hreceipts⟩ := lockVesal_views h
    constructor
    · intro k r hr
      rw [hproposals]
      exact hfiled.receipts k r (hreceipts k ▸ hr)
    · intro k v' hv'
      rw [hlocks] at hv'
      rw [hstakes]
      split at hv'
      · cases hv'
        rw [hstake]
        exact ⟨s, hs, hamount.symm⟩
      · exact hfiled.locks k v' hv'
    · intro k p hp
      rw [voteTotal_congr hreceipts, voteTotal_congr hreceipts]
      exact hfiled.tally k p (hproposals k ▸ hp)
  · obtain ⟨p₀, hyes, hno, hnew, hstakes, hlocks, hproposals, hreceipts⟩ := createProposal_views h
    constructor
    · intro k r hr
      obtain ⟨hfound, p, hp⟩ := hfiled.receipts k r (hreceipts k ▸ hr)
      refine ⟨hfound, ?_⟩
      rw [hproposals]
      split
      · exact ⟨p₀, rfl⟩
      · exact ⟨p, hp⟩
    · intro k v hv
      rw [hstakes]
      exact hfiled.locks k v (hlocks k ▸ hv)
    · intro k p hp
      rw [voteTotal_congr hreceipts, voteTotal_congr hreceipts]
      rw [hproposals] at hp
      split at hp
      · rename_i hk
        cases hp
        subst hk
        -- no receipt is for a proposal that did not exist
        have hnone : ∀ side, voteTotal i.proposal side σ = 0 := by
          intro side
          refine total_eq_zero fun k r hr => if_neg ?_
          rintro ⟨heq, -⟩
          obtain ⟨-, p, hp⟩ := hfiled.receipts k r hr
          rw [heq, hnew] at hp
          cases hp
        rw [hnone, hnone, hyes, hno]
        exact ⟨rfl, rfl⟩
      · exact hfiled.tally k p hp
  · obtain ⟨s, v, p₀, bump, p', hs, -, hv, hstake, -, hp₀, hcount, hside, hfound, hzero, hstakes, hlocks, hproposals,
      hreceipts⟩ := vote_views h
    constructor
    · intro k r hr
      have hexists : ∀ k' p, σ.view Account.proposal? k' = some p → ∃ p, τ.view Account.proposal? k' = some p := by
        intro k' p hp
        rw [hproposals]
        split
        · exact ⟨p', rfl⟩
        · exact ⟨p, hp⟩
      rw [hreceipts] at hr
      split at hr
      · rename_i hk
        cases hr
        subst hk
        exact ⟨⟨bump, hfound⟩, hexists _ _ hp₀⟩
      · obtain ⟨hfound', p, hp⟩ := hfiled.receipts k r hr
        exact ⟨hfound', hexists _ _ hp⟩
    · intro k v' hv'
      rw [hstakes]
      exact hfiled.locks k v' (hlocks k ▸ hv')
    · intro k p hp
      rw [voteTotal_update hzero hreceipts, voteTotal_update hzero hreceipts]
      rw [hproposals] at hp
      split at hp
      · rename_i hk
        cases hp
        subst hk
        obtain ⟨hyes, hno⟩ := hfiled.tally _ _ hp₀
        obtain ⟨hyes', hno'⟩ := count_votes hside hcount
        rw [hyes', hno', hyes, hno]
        simp only [true_and]
      · rename_i hk
        obtain ⟨hyes, hno⟩ := hfiled.tally k p hp
        rw [if_neg (fun heq => hk heq.1.symm), if_neg (fun heq => hk heq.1.symm)]
        exact ⟨hyes, hno⟩

theorem run_votesFiled {steps : List (Step c)} (h : run c genesis steps = some σ) : VotesFiled c σ := by
  refine Run.run_invariant (fun _ _ _ hs h => step_votesFiled hs h) ⟨?_, ?_, ?_⟩ h
  · intro k r hr
    rw [view_genesis] at hr
    cases hr
  · intro k v hv
    rw [view_genesis] at hv
    cases hv
  · intro k p hp
    rw [view_genesis] at hp
    cases hp

/-! ## Where weights come from -/

/-- **A vote that was cast in a step**: the step is a vote of the receipt's voter, with a stake of the voter that holds the
receipt's weight and is locked at the time of the step. -/
structure Cast (υ : Ledger K) (st : Step c) (i : Vote K) (s : StakeEntry K) (r : VoteReceipt K) : Prop where
  instruction : st.instruction = .token (.vote i)
  voter : i.voter = r.voter
  proposal : i.proposal = r.proposal
  side : i.side = r.side
  stake : υ.view Account.stake? i.stake = some s
  owner : s.owner = r.voter
  weight : s.amount = r.weight
  locked : ∃ v, υ.view Account.veSal? i.vesal = some v ∧ v.stake = i.stake ∧ st.tx.now < v.lock_end

/-- A vote leaves a receipt of what it cast. -/
theorem vote_cast {i : Vote K} (hfiled : VotesFiled c σ) (hi : st.instruction = .token (.vote i))
    (h : vote c st.tx i σ = .ok τ) : ∃ s r, Cast σ st i s r ∧
      ∀ k, τ.view Account.voteReceipt? k = if k = i.vote_receipt then some r else σ.view Account.voteReceipt? k := by
  obtain ⟨s, v, p, bump, p', hs, howner, hv, hstake, hlock, -, -, -, -, -, -, -, -, hreceipts⟩ := vote_views h
  obtain ⟨s', hs', hamount⟩ := hfiled.locks _ v hv
  rw [hstake, hs] at hs'
  cases hs'
  refine ⟨s, ⟨i.voter, i.proposal, v.amount, i.side, bump⟩, ?_, hreceipts⟩
  exact ⟨hi, rfl, rfl, rfl, hs, howner, hamount, v, hv, hstake, hlock⟩

/-- Every receipt of a run was cast in a step of the run. -/
theorem run_cast {steps : List (Step c)} {r : VoteReceipt K} (h : run c genesis steps = some σ)
    (hr : σ.view Account.voteReceipt? k = some r) :
    ∃ l st υ i s, l ++ [st] <+: steps ∧ run c genesis l = some υ ∧ i.vote_receipt = k ∧ Cast υ st i s r := by
  have hinv := Run.run_history (I := fun m ω => ∀ k r, ω.view Account.voteReceipt? k = some r →
    ∃ l st υ i s, l ++ [st] <+: m ∧ run c genesis l = some υ ∧ i.vote_receipt = k ∧ Cast υ st i s r) ?_ ?_ steps σ h
  · exact hinv k r hr
  · intro k r hr
    rw [view_genesis] at hr
    cases hr
  · intro m ω st τ hω hm hst k r hr
    have hearlier : ω.view Account.voteReceipt? k = some r →
        ∃ l st' υ i s, l ++ [st'] <+: m ++ [st] ∧ run c genesis l = some υ ∧ i.vote_receipt = k ∧ Cast υ st' i s r := by
      intro hr
      obtain ⟨l, st', υ, i, s, hl, hυ, hk, hcast⟩ := hm k r hr
      exact ⟨l, st', υ, i, s, hl.trans (List.prefix_append _ _), hυ, hk, hcast⟩
    rcases step_votes hst with ⟨-, -, -, -, hreceipts⟩ | ⟨i, -, h⟩ | ⟨-, i, h⟩ | ⟨-, i, h⟩ | ⟨i, hi, h⟩
    · exact hearlier (hreceipts k ▸ hr)
    · obtain ⟨-, -, -, -, hreceipts⟩ := stakeForVesal_views h
      exact hearlier (hreceipts k ▸ hr)
    · obtain ⟨s, v, -, -, -, -, -, -, hreceipts⟩ := lockVesal_views h
      exact hearlier (hreceipts k ▸ hr)
    · obtain ⟨p, -, -, -, -, -, -, hreceipts⟩ := createProposal_views h
      exact hearlier (hreceipts k ▸ hr)
    · obtain ⟨s, r', hcast, hreceipts⟩ := vote_cast (run_votesFiled hω) hi h
      rw [hreceipts] at hr
      split at hr
      · rename_i hk
        cases hr
        exact ⟨m, st, ω, i, s, List.prefix_rfl, hω, hk.symm, hcast⟩
      · exact hearlier hr

/-- **Votes are tallied**: a proposal counts the weights of its receipts on each side, a voter has one receipt for a proposal,
and every receipt's weight is the amount of a stake of its voter that was locked when the vote was cast. -/
theorem votes_tallied (c : Runtime K) {steps : List (Step c)} {σ : Ledger K} (h : run c genesis steps = some σ) :
    (∀ k p, σ.view Account.proposal? k = some p →
      p.yes_votes.toNat = voteTotal k 1 σ ∧ p.no_votes.toNat = voteTotal k 0 σ) ∧
    (∀ k k' r r', σ.view Account.voteReceipt? k = some r → σ.view Account.voteReceipt? k' = some r' →
      r.proposal = r'.proposal → r.voter = r'.voter → k = k') ∧
    ∀ k r, σ.view Account.voteReceipt? k = some r →
      ∃ l st υ i s, l ++ [st] <+: steps ∧ run c genesis l = some υ ∧ i.vote_receipt = k ∧ Cast υ st i s r := by
  have hfiled := run_votesFiled h
  refine ⟨hfiled.tally, ?_, fun k r hr => run_cast h hr⟩
  intro k k' r r' hr hr' hproposal hvoter
  obtain ⟨⟨bump, hfound⟩, -⟩ := hfiled.receipts k r hr
  obtain ⟨⟨bump', hfound'⟩, -⟩ := hfiled.receipts k' r' hr'
  rw [hproposal, hvoter, hfound'] at hfound
  exact (congrArg Prod.fst (Option.some.inj hfound)).symm

namespace ReferenceChain

def stakeKey (w : ℕ) : Address := address .cortexToken (stakeSeeds (wallet w) 0)

def vaultAuthority : Address := address .cortexToken [.text "stake_vault_authority"]

def lockKey (w : ℕ) : Address := address .cortexToken (vesalSeeds (wallet w) (stakeKey w))

def proposalKey : Address := address .cortexToken (proposalSeeds owner 0)

def propose : Step referenceChain := signedBy 1 1000 (.token (.createProposal ⟨owner, proposalKey, 0⟩))

/-- A wallet stakes tokens of a mint and locks them for an hour. -/
def stakes (w m : ℕ) (amount : UInt64) : List (Step referenceChain) :=
  issue .token w m amount ++
    [signedBy w 1000 (.token (.stakeForVesal
      { owner := wallet w
        mint := wallet m
        stake := stakeKey w
        owner_ata := ata .token w m
        stake_vault := address .associatedToken (associatedSeeds .token vaultAuthority (wallet m))
        stake_vault_authority := vaultAuthority
        nonce := 0
        amount := amount })),
      signedBy w 1000 (.token (.lockVesal ⟨wallet w, stakeKey w, lockKey w, 3600⟩))]

def votes (w : ℕ) (side : UInt8) : Step referenceChain :=
  signedBy w 1001 (.token (.vote
    { voter := wallet w
      stake := stakeKey w
      vesal := lockKey w
      proposal := proposalKey
      vote_receipt := address .cortexToken (voteSeeds proposalKey (wallet w))
      side := side }))

end ReferenceChain

open ReferenceChain in
theorem votes_tallied_two : ∃ σ p, run referenceChain genesis (propose :: stakes 1 8 5 ++ stakes 2 9 3 ++ [votes 1 1, votes 2 0]) =
    some σ ∧ σ.view Account.proposal? proposalKey = some p ∧ p.yes_votes = 5 ∧ p.no_votes = 3 ∧
    voteTotal proposalKey 1 σ = 5 ∧ voteTotal proposalKey 0 σ = 3 := by
  have hrun : ((run referenceChain genesis (propose :: stakes 1 8 5 ++ stakes 2 9 3 ++ [votes 1 1, votes 2 0])).bind fun σ =>
      (σ.view Account.proposal? proposalKey).map fun p => (p.yes_votes, p.no_votes)) = some (5, 3) := by decide
  obtain ⟨σ, hσ, h⟩ := Option.bind_eq_some_iff.1 hrun
  obtain ⟨p, hp, h⟩ := Option.map_eq_some_iff.1 h
  obtain ⟨hyes, hno⟩ := Prod.mk.inj h
  obtain ⟨htally, htally'⟩ := (votes_tallied referenceChain hσ).1 proposalKey p hp
  rw [hyes] at htally
  rw [hno] at htally'
  exact ⟨σ, p, hσ, hp, hyes, hno, htally.symm, htally'.symm⟩

/-! ## Mints -/

/-- All stakes of a run are of the mints that it stakes. -/
theorem run_stakes {steps : List (Step c)} {s : StakeEntry K} (h : run c genesis steps = some σ)
    (hs : σ.view Account.stake? k = some s) : ∃ st ∈ steps, ∃ i, st.instruction = .token (.stakeForVesal i) ∧ s.mint = i.mint := by
  have hinv := Run.run_history (I := fun m ω => ∀ k s, ω.view Account.stake? k = some s →
    ∃ st ∈ m, ∃ i, st.instruction = .token (.stakeForVesal i) ∧ s.mint = i.mint) ?_ ?_ steps σ h
  · exact hinv k s hs
  · intro k s hs
    rw [view_genesis] at hs
    cases hs
  · intro m ω st τ hω hm hst k s hs
    have hearlier : ω.view Account.stake? k = some s →
        ∃ st' ∈ m ++ [st], ∃ i, st'.instruction = .token (.stakeForVesal i) ∧ s.mint = i.mint := by
      intro hs
      obtain ⟨st', hst', h⟩ := hm k s hs
      exact ⟨st', List.mem_append_left _ hst', h⟩
    rcases step_votes hst with ⟨-, hstakes, -⟩ | ⟨i, hi, h⟩ | ⟨-, i, h⟩ | ⟨-, i, h⟩ | ⟨i, hi, h⟩
    · exact hearlier (hstakes k ▸ hs)
    · obtain ⟨-, ⟨bump, hstakes⟩, -, -, -⟩ := stakeForVesal_views h
      rw [hstakes] at hs
      split at hs
      · cases hs
        exact ⟨st, List.mem_append_right _ (List.mem_singleton_self st), i, hi, rfl⟩
      · exact hearlier hs
    · obtain ⟨s', v, -, -, -, hstakes, -⟩ := lockVesal_views h
      exact hearlier (hstakes k ▸ hs)
    · obtain ⟨p, -, -, -, hstakes, -⟩ := createProposal_views h
      exact hearlier (hstakes k ▸ hs)
    · obtain ⟨s', v, p, bump, p', -, -, -, -, -, -, -, -, -, -, hstakes, -⟩ := vote_views h
      exact hearlier (hstakes k ▸ hs)

/-- A stake whose amount is counted on a proposal. -/
def CountedFor (c : Runtime K) (steps : List (Step c)) (proposal : K) (s : StakeEntry K) : Prop :=
  ∃ l st υ i r, l ++ [st] <+: steps ∧ run c genesis l = some υ ∧ Cast υ st i s r ∧ r.proposal = proposal ∧ r.weight ≠ 0

/-- All votes on a proposal are of one mint. -/
def OneMint (c : Runtime K) (steps : List (Step c)) : Prop :=
  ∀ proposal s s', CountedFor c steps proposal s → CountedFor c steps proposal s' → s.mint = s'.mint

/-- A vote with a stake that is not empty is counted. -/
theorem countedFor_of_vote {steps l : List (Step c)} {i : Vote K} {s : StakeEntry K} (hl : l ++ [st] <+: steps)
    (hσ : run c genesis l = some σ) (hi : st.instruction = .token (.vote i)) (h : step c σ st = some τ)
    (hs : σ.view Account.stake? i.stake = some s) (hne : s.amount ≠ 0) : CountedFor c steps i.proposal s := by
  have hvote := step_ok.1 h
  rw [hi] at hvote
  obtain ⟨s', r, hcast, -⟩ := vote_cast (run_votesFiled hσ) hi hvote
  cases hs.symm.trans hcast.stake
  exact ⟨l, st, σ, i, r, hl, hσ, hcast, hcast.proposal.symm, hcast.weight ▸ hne⟩

end EnigmaMemory.Cortex
