import EnigmaMemory.Proof.Sessions

/-!
# What stands at the addresses of `capability_registry`

An account at an address that is derived for `capability_registry` was put there by it: the other
programs create accounts at addresses of their own, and the token programs at wallets. So the seeds
of a session give a session or nothing (`session_at`).
-/

namespace EnigmaMemory.Cortex

variable {K : Type} {c : Runtime K} {tx : Tx c} {k : K}

/-- An address that is derived for `capability_registry`. -/
def IsRegistryAddress (c : Runtime K) (k : K) : Prop := ∃ seeds bump, c.createProgramAddress .capabilityRegistry seeds bump = some k

theorem not_registry_of_found {p : Program} {seeds : List (Seed K)} {bump : UInt8} (h : findProgramAddress c p seeds = some (k, bump))
    (hp : p ≠ .capabilityRegistry) : ¬ IsRegistryAddress c k := by
  rintro ⟨seeds', bump', h'⟩
  exact hp (findProgramAddress_seeds h h').1

theorem not_registry_of_signer (h : k ∈ tx.signers) : ¬ IsRegistryAddress c k := by
  rintro ⟨seeds, bump, h'⟩
  have hwallet := tx.verified k h
  rw [c.wallet_derived h'] at hwallet
  exact absurd hwallet (by decide)

theorem not_registry_of_associated {program : TokenProgram} {wallet mint : K} (h : associatedAddress c program wallet mint = some k) :
    ¬ IsRegistryAddress c k := by
  obtain ⟨⟨k', bump⟩, hfound, rfl⟩ := Option.map_eq_some_iff.1 h
  exact not_registry_of_found hfound (by decide)

/-- An account of `capability_registry` that stands where its seeds say. -/
def Registered (c : Runtime K) (k : K) (a : Account K) : Prop :=
  (∃ cap bump, a = .capability cap ∧
      findProgramAddress c .capabilityRegistry (capabilitySeeds cap.owner cap.granted_to cap.scope) = some (k, bump)) ∨
    (∃ s, a = .session s) ∨ ∃ n, a = .ownerNonce n

theorem Registered.program {a : Account K} (h : Registered c k a) : a.program = .capabilityRegistry := by
  obtain ⟨cap, bump, rfl, -⟩ | ⟨s, rfl⟩ | ⟨n, rfl⟩ := h <;> rfl

variable [DecidableEq K] {σ τ υ : Ledger K} {st : Step c}

/-! ## Other programs -/

/-- No account appears at an address of `capability_registry`. -/
def Elsewhere (c : Runtime K) (σ τ : Ledger K) : Prop := ∀ k, IsRegistryAddress c k → σ.get k = none → τ.get k = none

theorem Elsewhere.refl (c : Runtime K) (σ : Ledger K) : Elsewhere c σ σ := fun _ _ h => h

theorem Elsewhere.trans (h : Elsewhere c σ τ) (h' : Elsewhere c τ υ) : Elsewhere c σ υ := fun k hk hnone => h' k hk (h k hk hnone)

/-- An account is written where there was one, or at another address. -/
theorem Elsewhere.set {a : Account K} (h : Elsewhere c σ τ) (hk : σ.get k = none → ¬ IsRegistryAddress c k) :
    Elsewhere c σ (OrdMap.set τ k a) := by
  intro k' hk' hnone
  rw [OrdMap.get_set]
  split
  · rename_i heq
    exact absurd (heq ▸ hk') (hk (heq ▸ hnone))
  · exact h k' hk' hnone

theorem elsewhere_set {a : Account K} (hk : σ.get k = none → ¬ IsRegistryAddress c k) : Elsewhere c σ (OrdMap.set σ k a) :=
  (Elsewhere.refl c σ).set hk

theorem elsewhere_close : Elsewhere c σ (σ.close k) := by
  intro k' _ hnone
  rw [Ledger.close, OrdMap.get_delete]
  split
  · rfl
  · exact hnone

/-- An account that has been loaded is there. -/
theorem there_of_view {T : Type} {type : Account K → Option T} {t : T} (h : σ.view type k = some t) :
    σ.get k = none → ¬ IsRegistryAddress c k := by
  intro hnone
  rw [view_none hnone] at h
  cases h

theorem initAssociated_elsewhere {program : TokenProgram} {mint wallet k : K}
    (h : initAssociated c program mint wallet k σ = .ok τ) : Elsewhere c σ τ := by
  obtain ⟨haddress, ⟨-, -, rfl⟩ | ⟨rfl, -⟩⟩ := initAssociated_ok h
  · exact elsewhere_set fun _ => not_registry_of_associated haddress
  · exact .refl c _

theorem transferWith_elsewhere {signers : List K} {source destination mint authority : K} {amount fee : UInt64}
    (h : transferWith signers source destination mint authority amount fee σ = .ok τ) : Elsewhere c σ τ := by
  obtain ⟨src, dst, rest, total, hsrc, hdst, -, -, -, -, -, -, -, -, rfl⟩ := transferWith_ok h
  split
  · exact .refl c _
  · exact (elsewhere_set (there_of_view hsrc)).set (there_of_view hdst)

theorem transferChecked_elsewhere {now : Int64} {signers : List K} {program : TokenProgram} {source mint destination authority : K}
    {amount : UInt64} {decimals : UInt8}
    (h : transferChecked c now signers program source mint destination authority amount decimals σ = .ok τ) : Elsewhere c σ τ := by
  obtain ⟨m, -, -, h⟩ := transferChecked_ok h
  exact transferWith_elsewhere h

theorem transfer_elsewhere {signers : List K} {source destination authority : K} {amount : UInt64}
    (h : transfer signers source destination authority amount σ = .ok τ) : Elsewhere c σ τ := by
  obtain ⟨src, -, -, h⟩ := transfer_ok h
  exact transferWith_elsewhere h

theorem mintTo_elsewhere {signers : List K} {program : TokenProgram} {mint destination authority : K} {amount : UInt64}
    (h : mintTo signers program mint destination authority amount σ = .ok τ) : Elsewhere c σ τ := by
  obtain ⟨m, dst, supply, total, hm, hdst, -, rfl⟩ := mintTo_ok h
  exact (elsewhere_set (there_of_view hm)).set (there_of_view hdst)

theorem spl_elsewhere {i : SplInstruction K} (h : i.execute c tx σ = .ok τ) : Elsewhere c σ τ := by
  cases i with
  | initializeMint i =>
    obtain ⟨-, hsigner, rfl⟩ := initializeMint_ok h
    exact elsewhere_set fun _ => not_registry_of_signer hsigner
  | initializeAccount i =>
    obtain ⟨-, hsigner, -, rfl⟩ := initializeAccount_ok h
    exact elsewhere_set fun _ => not_registry_of_signer hsigner
  | createAssociated i => exact initAssociated_elsewhere h
  | mintTo i => exact mintTo_elsewhere h
  | transferChecked i => exact transferChecked_elsewhere h

theorem memory_elsewhere {i : MemoryInstruction K} (h : i.execute c tx σ = .ok τ) : Elsewhere c σ τ := by
  cases i with
  | registerMemory i | createMemory i =>
    obtain ⟨bump, m, -, hfound, -, rfl⟩ := registerMemory_ok.1 h
    exact elsewhere_set fun _ => not_registry_of_found hfound (by decide)
  | updateMemory i =>
    obtain ⟨m, hm, rfl⟩ := updateMemory_ok.1 h
    exact elsewhere_set (there_of_view (ownedMemory_ok.1 hm).2.1)
  | setShareable i =>
    obtain ⟨m, hm, -, rfl⟩ := setShareable_ok h
    exact elsewhere_set (there_of_view (ownedMemory_ok.1 hm).2.1)
  | deleteMemory i =>
    obtain ⟨m, -, rfl⟩ := deleteMemory_ok.1 h
    exact elsewhere_close
  | createMemoryWithSession i =>
    obtain ⟨s, bump, m, -, hfound, -, rfl⟩ := createMemoryWithSession_ok.1 h
    exact elsewhere_set fun _ => not_registry_of_found hfound (by decide)
  | updateMemoryWithSession i =>
    obtain ⟨m, s, hm, -, rfl⟩ := updateMemoryWithSession_ok h
    exact elsewhere_set (there_of_view (sessionMemory_ok.1 hm).1)
  | deleteMemoryWithSession i =>
    obtain ⟨m, s, -, -, rfl⟩ := deleteMemoryWithSession_ok h
    exact elsewhere_close

theorem spend_elsewhere {i : MutBudget K} (h : spend c tx i σ = .ok τ) : Elsewhere c σ τ := by
  obtain ⟨b, b', -, hb, -, rfl⟩ := spend_ok.1 h
  exact elsewhere_set (there_of_view (mutBudget_ok.1 hb).1)

theorem spendWithSession_elsewhere {i : SpendWithSession K} (h : spendWithSession c tx i σ = .ok τ) : Elsewhere c σ τ := by
  obtain ⟨s, n, s₁, b, b', -, hb, -, -, -, -, rfl⟩ := spendWithSession_ok h
  exact elsewhere_set (there_of_view (mutBudget_ok.1 hb).1)

theorem budget_elsewhere {i : BudgetInstruction K} (h : i.execute c tx σ = .ok τ) : Elsewhere c σ τ := by
  cases i with
  | createBudget i =>
    obtain ⟨bump, b, -, hfound, -, rfl⟩ := createBudget_ok.1 h
    exact elsewhere_set fun _ => not_registry_of_found hfound (by decide)
  | deposit i =>
    obtain ⟨b, balance, -, hb, -, -, rfl⟩ := deposit_ok.1 h
    exact elsewhere_set (there_of_view (mutBudget_ok.1 hb).1)
  | spend i => exact spend_elsewhere h
  | spendWithSession i => exact spendWithSession_elsewhere h
  | createTokenBudget i =>
    obtain ⟨bump, b, υ, -, hfound, -, hinit, -, rfl⟩ := createTokenBudget_ok h
    exact (initAssociated_elsewhere hinit).set fun _ => not_registry_of_found hfound (by decide)
  | depositToken i =>
    obtain ⟨mint, bump, bump', b, υ, ω, balance, -, -, hfound, -, hinit, htransfer, -, rfl⟩ := depositToken_ok h
    exact ((initAssociated_elsewhere hinit).trans (transferChecked_elsewhere htransfer)).set
      fun _ => not_registry_of_found hfound (by decide)
  | spendToken i =>
    obtain ⟨mint, b, t, ω, balance, spent, -, -, hb, -, -, -, -, htransfer, -, -, rfl⟩ := spendToken_ok h
    exact (transferChecked_elsewhere htransfer).set (there_of_view hb)
  | depositTokenWithSession i =>
    obtain ⟨s, n, s₁, mint, bump, b, src, υ, ω, balance, -, -, -, -, hfound, -, -, -, hinit, htransfer, -, rfl⟩ :=
      depositTokenWithSession_ok h
    exact ((initAssociated_elsewhere hinit).trans (transfer_elsewhere htransfer)).set
      fun _ => not_registry_of_found hfound (by decide)

theorem royalty_elsewhere {i : RoyaltyInstruction K} (h : i.execute c tx σ = .ok τ) : Elsewhere c σ τ := by
  cases i with
  | registerReceipt i =>
    obtain ⟨bump, r, hfound, -, rfl⟩ := registerReceipt_ok h
    exact elsewhere_set fun _ => not_registry_of_found hfound (by decide)
  | routeRoyalty i =>
    obtain ⟨bump, r, υ, hfound, -, hspend, rfl⟩ := routeRoyalty_ok h
    exact (spend_elsewhere hspend).set fun _ => not_registry_of_found hfound (by decide)
  | routeRoyaltyWithSession i =>
    obtain ⟨bump, r, υ, hfound, -, hspend, rfl⟩ := routeRoyaltyWithSession_ok h
    exact (spendWithSession_elsewhere hspend).set fun _ => not_registry_of_found hfound (by decide)

theorem token_elsewhere {i : TokenInstruction K} (h : i.execute c tx σ = .ok τ) : Elsewhere c σ τ := by
  cases i with
  | mintToTreasury i => exact mintTo_elsewhere (mintToTreasury_ok h)
  | transfer i => exact transfer_elsewhere (transferTokens_ok h)
  | stakeForVesal i =>
    obtain ⟨bump, υ, ω, hfound, -, hinit, htransfer, rfl⟩ := stakeForVesal_ok h
    exact ((initAssociated_elsewhere hinit).trans (transfer_elsewhere htransfer)).set
      fun _ => not_registry_of_found hfound (by decide)
  | lockVesal i =>
    obtain ⟨s, bump, lockEnd, hs, -, hfound, -, rfl⟩ := lockVesal_ok h
    exact (elsewhere_set (there_of_view hs)).set fun _ => not_registry_of_found hfound (by decide)
  | createProposal i =>
    obtain ⟨bump, hfound, -, rfl⟩ := createProposal_ok h
    exact elsewhere_set fun _ => not_registry_of_found hfound (by decide)
  | vote i =>
    obtain ⟨s, v, p, bump, r, p', hs, -, -, -, -, hp, hfound, -, -, -, -, -, rfl⟩ := vote_ok h
    exact ((elsewhere_set (there_of_view hs)).set (there_of_view hp)).set fun _ => not_registry_of_found hfound (by decide)

/-! ## Runs -/

/-- Only accounts of `capability_registry` stand at its addresses. -/
def AllRegistered (c : Runtime K) (σ : Ledger K) : Prop := ∀ k a, IsRegistryAddress c k → σ.get k = some a → Registered c k a

theorem AllRegistered.owned {ps : List Program} (h : AllRegistered c σ) (howned : Owned ps σ τ) (helse : Elsewhere c σ τ)
    (hps : Program.capabilityRegistry ∉ ps) : AllRegistered c τ := by
  intro k a hk ha
  cases hbefore : σ.get k with
  | none =>
    rw [helse k hk hbefore] at ha
    cases ha
  | some b =>
    have hb := h k b hk hbefore
    rw [(howned.get (hb.program ▸ hps)).2 hbefore] at ha
    cases ha
    exact hb

theorem AllRegistered.set {a : Account K} (h : AllRegistered c σ) (ha : Registered c k a) : AllRegistered c (OrdMap.set σ k a) := by
  intro k' a' hk' ha'
  rw [OrdMap.get_set] at ha'
  split at ha'
  · rename_i heq
    cases ha'
    exact heq ▸ ha
  · exact h k' a' hk' ha'

theorem AllRegistered.close (h : AllRegistered c σ) : AllRegistered c (σ.close k) := by
  intro k' a' hk' ha'
  rw [Ledger.close, OrdMap.get_delete] at ha'
  split at ha'
  · cases ha'
  · exact h k' a' hk' ha'

theorem capability_registered {i : CapabilityInstruction K} (hall : AllRegistered c σ) (h : i.execute c tx σ = .ok τ) :
    AllRegistered c τ := by
  cases i with
  | grant i =>
    obtain ⟨bump, y, zero, hfound, -, rfl⟩ := grant_ok h
    exact hall.set (.inl ⟨_, bump, rfl, hfound⟩)
  | revoke i =>
    obtain ⟨x, -, rfl⟩ := revoke_ok h
    exact hall.close
  | createSession i =>
    obtain ⟨nonceBump, n, sessionBump, -, -, -, -, -, rfl⟩ := createSession_ok.1 h
    exact (hall.set (.inr (.inr ⟨_, rfl⟩))).set (.inr (.inl ⟨_, rfl⟩))
  | extendSession i =>
    obtain ⟨s, -, rfl⟩ := extendSession_ok.1 h
    exact hall.set (.inr (.inl ⟨_, rfl⟩))
  | revokeSession i =>
    obtain ⟨s, -, rfl⟩ := revokeSession_ok.1 h
    exact hall.close
  | pauseAllSessions i =>
    obtain ⟨n, nonce, -, -, -, -, rfl⟩ := pauseAllSessions_ok.1 h
    exact hall.set (.inr (.inr ⟨_, rfl⟩))

/-- **A step keeps strangers from the addresses of `capability_registry`.** -/
theorem step_registered (hall : AllRegistered c σ) (h : step c σ st = some τ) : AllRegistered c τ := by
  have h := step_ok.1 h
  cases hi : st.instruction with
  | capability i => exact capability_registered hall (hi ▸ h)
  | budget i =>
    rw [hi] at h
    exact hall.owned (budget_owned h) (budget_elsewhere h) (by decide)
  | memory i =>
    rw [hi] at h
    exact hall.owned (memory_owned h) (memory_elsewhere h) (by decide)
  | royalty i =>
    rw [hi] at h
    exact hall.owned (royalty_owned h) (royalty_elsewhere h) (by decide)
  | token i =>
    rw [hi] at h
    exact hall.owned (token_owned h) (token_elsewhere h) (by decide)
  | spl i =>
    rw [hi] at h
    exact hall.owned (spl_owned h) (spl_elsewhere h) (by decide)

theorem run_registered {steps : List (Step c)} (h : run c genesis steps = some σ) : AllRegistered c σ := by
  have hgenesis : AllRegistered c (genesis : Ledger K) := fun _ _ _ ha => nomatch ha
  exact Run.run_invariant (fun _ _ _ hall hstep => step_registered hall hstep) hgenesis h

/-- **The seeds of a session give a session.** What stands at the address that is found for an owner, a key and a nonce is the
session that the owner gave the key under that nonce. -/
theorem session_at {steps : List (Step c)} {owner key : K} {nonce : UInt64} {bump : UInt8} {a : Account K}
    (h : run c genesis steps = some σ)
    (hk : findProgramAddress c .capabilityRegistry (sessionSeeds owner key nonce) = some (k, bump)) (ha : σ.get k = some a) :
    ∃ s, a = .session s ∧ s.owner = owner ∧ s.session_key = key ∧ s.owner_nonce = nonce := by
  have hfiled := run_filed h
  have haddress : IsRegistryAddress c k := ⟨_, _, (findProgramAddress_create hk).1⟩
  obtain ⟨cap, bump', rfl, hfound⟩ | ⟨s, rfl⟩ | ⟨n, rfl⟩ := run_registered h k a haddress ha
  · have heq := (findProgramAddress_inj hfound hk).2
    simp [capabilitySeeds, sessionSeeds] at heq
  · have heq := (findProgramAddress_inj (hfiled.sessions k s (stores_session.view.2 ha)).found hk).2
    simp only [sessionSeeds, List.cons.injEq, Seed.key.injEq, Seed.u64.injEq, and_true, true_and] at heq
    exact ⟨s, rfl, heq⟩
  · have heq := (findProgramAddress_inj (hfiled.nonces k n (stores_ownerNonce.view.2 ha)) hk).2
    simp [ownerNonceSeeds, sessionSeeds] at heq

end EnigmaMemory.Cortex
