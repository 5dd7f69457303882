import EnigmaMemory.Proof.Instructions

/-!
# A program changes its own accounts

Each program leaves the accounts of the others as they are, apart from the programs it calls.
The views of the other programs' types are then unchanged by its steps (`Owned.view`).
-/

namespace EnigmaMemory.Cortex

variable {K : Type} {c : Runtime K} {tx : Tx c} {ps : List Program}

/-! ## Programs of account types -/

def splPrograms : List Program := [.spl .token, .spl .token2022]

theorem spl_mem (p : TokenProgram) : Program.spl p ∈ splPrograms := by cases p <;> decide

theorem tokenAccount_program (t : TokenAccount K) : (Account.tokenAccount t).program ∈ splPrograms := spl_mem t.program

theorem mint_program (m : Mint K) : (Account.mint m).program ∈ splPrograms := spl_mem m.program

theorem budget_program (b : Budget K) : (Account.budget b).program ∈ [Program.budgetEscrow] := List.mem_singleton_self _

/-! ## Writes -/

variable [DecidableEq K] {σ τ : Ledger K}

section Write

variable {T : Type} {type : Account K → Option T} {ctor : T → Account K} {k : K} {zero t t' : T}

theorem Opened.owned (h : Opened σ type k zero t) (hs : Stores type ctor) (hp : ∀ t, (ctor t).program ∈ ps) :
    Owned ps σ (OrdMap.set σ k (ctor t')) :=
  owned_set (fun _ ha => h.program hs hp ha) (hp t')

theorem view_program (h : σ.view type k = some t) (hs : Stores type ctor) (hp : ∀ t, (ctor t).program ∈ ps) {a : Account K}
    (ha : σ.get k = some a) : a.program ∈ ps :=
  (show Opened σ type k t t from .inr h).program hs hp ha

theorem owned_view (h : σ.view type k = some t) (hs : Stores type ctor) (hp : ∀ t, (ctor t).program ∈ ps) :
    Owned ps σ (OrdMap.set σ k (ctor t')) :=
  owned_set (fun _ ha => view_program h hs hp ha) (hp t')

theorem owned_close_view (h : σ.view type k = some t) (hs : Stores type ctor) (hp : ∀ t, (ctor t).program ∈ ps) :
    Owned ps σ (σ.close k) :=
  owned_close fun _ ha => view_program h hs hp ha

theorem owned_new {a : Account K} (h : σ.get k = none) (ha : a.program ∈ ps) : Owned ps σ (OrdMap.set σ k a) :=
  owned_set (fun a' ha' => by rw [h] at ha'; cases ha') ha

end Write

/-! ## Token programs -/

theorem transferWith_owned {signers : List K} {source destination mint authority : K} {amount fee : UInt64}
    (h : transferWith signers source destination mint authority amount fee σ = .ok τ) : Owned splPrograms σ τ := by
  obtain ⟨src, dst, rest, total, hsrc, hdst, -, -, -, -, -, -, -, -, rfl⟩ := transferWith_ok h
  split
  · exact .refl _ _
  · refine ((Owned.refl _ σ).set ?_ (tokenAccount_program _)).set ?_ (tokenAccount_program _)
    · exact fun _ ha => view_program hsrc stores_tokenAccount tokenAccount_program ha
    · exact fun _ ha => view_program hdst stores_tokenAccount tokenAccount_program ha

theorem transferChecked_owned {now : Int64} {signers : List K} {program : TokenProgram} {source mint destination authority : K}
    {amount : UInt64} {decimals : UInt8}
    (h : transferChecked c now signers program source mint destination authority amount decimals σ = .ok τ) :
    Owned splPrograms σ τ := by
  obtain ⟨m, -, -, h⟩ := transferChecked_ok h
  exact transferWith_owned h

theorem transfer_owned {signers : List K} {source destination authority : K} {amount : UInt64}
    (h : transfer signers source destination authority amount σ = .ok τ) : Owned splPrograms σ τ := by
  obtain ⟨src, -, -, h⟩ := transfer_ok h
  exact transferWith_owned h

theorem mintTo_owned {signers : List K} {program : TokenProgram} {mint destination authority : K} {amount : UInt64}
    (h : mintTo signers program mint destination authority amount σ = .ok τ) : Owned splPrograms σ τ := by
  obtain ⟨m, dst, supply, total, hm, hdst, -, rfl⟩ := mintTo_ok h
  refine ((Owned.refl _ σ).set ?_ (mint_program _)).set ?_ (tokenAccount_program _)
  · exact fun _ ha => view_program hm stores_mint mint_program ha
  · exact fun _ ha => view_program hdst stores_tokenAccount tokenAccount_program ha

theorem initAssociated_owned {program : TokenProgram} {mint wallet k : K}
    (h : initAssociated c program mint wallet k σ = .ok τ) : Owned splPrograms σ τ := by
  obtain ⟨-, ⟨hnone, -, rfl⟩ | ⟨rfl, -⟩⟩ := initAssociated_ok h
  · exact owned_new hnone (tokenAccount_program _)
  · exact .refl _ _

theorem spl_owned {i : SplInstruction K} (h : i.execute c tx σ = .ok τ) : Owned splPrograms σ τ := by
  cases i with
  | initializeMint i =>
    obtain ⟨hnone, -, rfl⟩ := initializeMint_ok h
    exact owned_new hnone (mint_program _)
  | initializeAccount i =>
    obtain ⟨hnone, -, -, rfl⟩ := initializeAccount_ok h
    exact owned_new hnone (tokenAccount_program _)
  | createAssociated i => exact initAssociated_owned h
  | mintTo i => exact mintTo_owned h
  | transferChecked i => exact transferChecked_owned h

/-! ## `capability_registry` -/

theorem capability_owned {i : CapabilityInstruction K} (h : i.execute c tx σ = .ok τ) : Owned [.capabilityRegistry] σ τ := by
  cases i with
  | grant i =>
    obtain ⟨bump, y, zero, -, hopen, rfl⟩ := grant_ok h
    exact hopen.owned stores_capability fun _ => List.mem_singleton_self _
  | revoke i =>
    obtain ⟨x, hx, rfl⟩ := revoke_ok h
    exact owned_close_view hx stores_capability fun _ => List.mem_singleton_self _
  | createSession i =>
    obtain ⟨nonceBump, n, sessionBump, -, hnonce, hopen, hsession, hnew, rfl⟩ := createSession_ok.1 h
    refine (hopen.owned stores_ownerNonce fun _ => List.mem_singleton_self _).set ?_ (List.mem_singleton_self _)
    intro a ha
    rw [hnew] at ha
    cases ha
  | extendSession i =>
    obtain ⟨s, hs, rfl⟩ := extendSession_ok.1 h
    exact owned_view (ownedSession_ok.1 hs).2.1 stores_session fun _ => List.mem_singleton_self _
  | revokeSession i =>
    obtain ⟨s, hs, rfl⟩ := revokeSession_ok.1 h
    exact owned_close_view (ownedSession_ok.1 hs).2.1 stores_session fun _ => List.mem_singleton_self _
  | pauseAllSessions i =>
    obtain ⟨n, nonce, -, hn, -, -, rfl⟩ := pauseAllSessions_ok.1 h
    exact owned_view hn stores_ownerNonce fun _ => List.mem_singleton_self _

/-! ## `memory_registry` -/

theorem memory_owned {i : MemoryInstruction K} (h : i.execute c tx σ = .ok τ) : Owned [.memoryRegistry] σ τ := by
  have hp : ∀ m : Memory K, (Account.memory m).program ∈ [Program.memoryRegistry] := fun _ => List.mem_singleton_self _
  cases i with
  | registerMemory i | createMemory i =>
    obtain ⟨bump, m, -, -, hopen, rfl⟩ := registerMemory_ok.1 h
    exact hopen.owned stores_memory hp
  | updateMemory i =>
    obtain ⟨m, hm, rfl⟩ := updateMemory_ok.1 h
    exact owned_view (ownedMemory_ok.1 hm).2.1 stores_memory hp
  | setShareable i =>
    obtain ⟨m, hm, rfl⟩ := setShareable_ok h
    exact owned_view (ownedMemory_ok.1 hm).2.1 stores_memory hp
  | deleteMemory i =>
    obtain ⟨m, hm, rfl⟩ := deleteMemory_ok.1 h
    exact owned_close_view (ownedMemory_ok.1 hm).2.1 stores_memory hp
  | createMemoryWithSession i =>
    obtain ⟨s, bump, m, -, -, hopen, rfl⟩ := createMemoryWithSession_ok.1 h
    exact hopen.owned stores_memory hp
  | updateMemoryWithSession i =>
    obtain ⟨m, s, hm, -, rfl⟩ := updateMemoryWithSession_ok h
    exact owned_view (sessionMemory_ok.1 hm).1 stores_memory hp
  | deleteMemoryWithSession i =>
    obtain ⟨m, s, hm, -, rfl⟩ := deleteMemoryWithSession_ok h
    exact owned_close_view (sessionMemory_ok.1 hm).1 stores_memory hp

/-! ## `budget_escrow` -/

theorem createBudget_owned {i : CreateBudget K} (h : createBudget c tx i σ = .ok τ) : Owned [.budgetEscrow] σ τ := by
  obtain ⟨bump, b, -, -, hopen, rfl⟩ := createBudget_ok.1 h
  exact hopen.owned stores_budget budget_program

theorem deposit_owned {i : MutBudget K} (h : deposit c tx i σ = .ok τ) : Owned [.budgetEscrow] σ τ := by
  obtain ⟨b, balance, -, hb, -, -, rfl⟩ := deposit_ok.1 h
  exact owned_view (mutBudget_ok.1 hb).1 stores_budget budget_program

theorem spend_owned {i : MutBudget K} (h : spend c tx i σ = .ok τ) : Owned [.budgetEscrow] σ τ := by
  obtain ⟨b, b', -, hb, -, rfl⟩ := spend_ok.1 h
  exact owned_view (mutBudget_ok.1 hb).1 stores_budget budget_program

theorem spendWithSession_owned {i : SpendWithSession K} (h : spendWithSession c tx i σ = .ok τ) : Owned [.budgetEscrow] σ τ := by
  obtain ⟨s, n, s₁, b, b', -, hb, -, -, -, -, rfl⟩ := spendWithSession_ok h
  exact owned_view (mutBudget_ok.1 hb).1 stores_budget budget_program

/-- A token budget is written after steps of the token programs. -/
theorem owned_tokenBudget {k : K} {zero b b' : TokenBudget K} (hopen : Opened σ Account.tokenBudget? k zero b)
    (h : Owned splPrograms σ τ) : Owned (.budgetEscrow :: splPrograms) σ (OrdMap.set τ k (.tokenBudget b')) := by
  refine (h.mono (by simp)).set (fun a ha => ?_) (by simp [Account.program])
  exact hopen.program stores_tokenBudget (fun _ => by simp [Account.program]) ha

theorem budget_owned {i : BudgetInstruction K} (h : i.execute c tx σ = .ok τ) : Owned (.budgetEscrow :: splPrograms) σ τ := by
  have hsub : [Program.budgetEscrow] ⊆ .budgetEscrow :: splPrograms := by simp
  cases i with
  | createBudget i => exact (createBudget_owned h).mono hsub
  | deposit i => exact (deposit_owned h).mono hsub
  | spend i => exact (spend_owned h).mono hsub
  | spendWithSession i => exact (spendWithSession_owned h).mono hsub
  | createTokenBudget i =>
    obtain ⟨bump, b, υ, -, -, hopen, hinit, -, rfl⟩ := createTokenBudget_ok h
    exact owned_tokenBudget hopen (initAssociated_owned hinit)
  | depositToken i =>
    obtain ⟨mint, bump, bump', b, υ, ω, balance, -, -, -, hopen, hinit, htransfer, -, rfl⟩ := depositToken_ok h
    exact owned_tokenBudget hopen ((initAssociated_owned hinit).trans (transferChecked_owned htransfer))
  | spendToken i =>
    obtain ⟨mint, b, t, ω, balance, spent, -, -, hb, -, -, -, -, htransfer, -, -, rfl⟩ := spendToken_ok h
    have hopen : Opened σ Account.tokenBudget? _ b b := .inr hb
    exact owned_tokenBudget hopen (transferChecked_owned htransfer)
  | depositTokenWithSession i =>
    obtain ⟨s, n, s₁, mint, bump, b, src, υ, ω, balance, -, -, -, -, -, hopen, -, -, hinit, htransfer, -, rfl⟩ :=
      depositTokenWithSession_ok h
    exact owned_tokenBudget hopen ((initAssociated_owned hinit).trans (transfer_owned htransfer))

/-! ## `royalty_router` -/

theorem royalty_owned {i : RoyaltyInstruction K} (h : i.execute c tx σ = .ok τ) : Owned [.royaltyRouter, .budgetEscrow] σ τ := by
  have hwrite : ∀ {υ : Ledger K} {k : K} {zero r r' : Receipt K}, Opened σ Account.receipt? k zero r → Owned [.budgetEscrow] σ υ →
      Owned [.royaltyRouter, .budgetEscrow] σ (OrdMap.set υ k (.receipt r')) := by
    intro υ k zero r r' hopen hspend
    refine (hspend.mono (by simp)).set (fun a ha => ?_) (by simp [Account.program])
    exact hopen.program stores_receipt (fun _ => by simp [Account.program]) ha
  cases i with
  | registerReceipt i =>
    obtain ⟨bump, r, -, hopen, rfl⟩ := registerReceipt_ok h
    exact hwrite hopen (.refl _ _)
  | routeRoyalty i =>
    obtain ⟨bump, r, υ, -, hopen, hspend, rfl⟩ := routeRoyalty_ok h
    exact hwrite hopen (spend_owned hspend)
  | routeRoyaltyWithSession i =>
    obtain ⟨bump, r, υ, -, hopen, hspend, rfl⟩ := routeRoyaltyWithSession_ok h
    exact hwrite hopen (spendWithSession_owned hspend)

/-! ## `cortex_token` -/

theorem lockVesal_owned {i : LockVesal K} (h : lockVesal c tx i σ = .ok τ) : Owned [.cortexToken] σ τ := by
  obtain ⟨s, bump, lockEnd, hs, -, -, hnew, rfl⟩ := lockVesal_ok h
  have hstake : Owned [.cortexToken] σ (OrdMap.set σ i.stake (.stake s)) :=
    owned_view hs stores_stake fun _ => List.mem_singleton_self _
  refine hstake.set (fun a ha => ?_) (List.mem_singleton_self _)
  rw [hnew] at ha
  cases ha

theorem createProposal_owned {i : CreateProposal K} (h : createProposal c tx i σ = .ok τ) : Owned [.cortexToken] σ τ := by
  obtain ⟨bump, -, hnew, rfl⟩ := createProposal_ok h
  exact owned_new hnew (List.mem_singleton_self _)

theorem vote_owned {i : Vote K} (h : vote c tx i σ = .ok τ) : Owned [.cortexToken] σ τ := by
  obtain ⟨s, v, p, bump, r, p', hs, -, -, -, -, hp, -, hopen, -, -, -, -, rfl⟩ := vote_ok h
  have hstake : Owned [.cortexToken] σ (OrdMap.set σ i.stake (.stake s)) :=
    owned_view hs stores_stake fun _ => List.mem_singleton_self _
  refine (hstake.set (fun a ha => ?_) (List.mem_singleton_self _)).set (fun a ha => ?_) (List.mem_singleton_self _)
  · exact view_program hp stores_proposal (fun _ => List.mem_singleton_self _) ha
  · exact hopen.program stores_voteReceipt (fun _ => List.mem_singleton_self _) ha

theorem token_owned {i : TokenInstruction K} (h : i.execute c tx σ = .ok τ) : Owned (.cortexToken :: splPrograms) σ τ := by
  have hsub : splPrograms ⊆ .cortexToken :: splPrograms := by simp
  have hown : [Program.cortexToken] ⊆ .cortexToken :: splPrograms := by simp
  cases i with
  | mintToTreasury i => exact (mintTo_owned (mintToTreasury_ok h)).mono hsub
  | transfer i => exact (transfer_owned (transferTokens_ok h)).mono hsub
  | stakeForVesal i =>
    obtain ⟨bump, υ, ω, -, hnew, hinit, htransfer, rfl⟩ := stakeForVesal_ok h
    refine (((initAssociated_owned hinit).trans (transfer_owned htransfer)).mono hsub).set (fun a ha => ?_) List.mem_cons_self
    rw [hnew] at ha
    cases ha
  | lockVesal i => exact (lockVesal_owned h).mono hown
  | createProposal i => exact (createProposal_owned h).mono hown
  | vote i => exact (vote_owned h).mono hown

end EnigmaMemory.Cortex
