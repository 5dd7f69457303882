import EnigmaMemory.Proof.Tokens

/-!
# Token budgets over runs

A token budget records the amounts that are deposited; its vault receives them less the fee of the
mint.

* `token_budget_solvent_iff`: over a run the vault covers the balance, and balance and spent add up to
  what the vault was credited with, exactly when no deposit had a fee withheld.
-/

namespace EnigmaMemory.Cortex

variable {K : Type} {c : Runtime K} {tx : Tx c} {st : Step c} {k o m kb : K} {n : ℕ} {signers : List K}

section Seeds

variable {bump bump' : UInt8} (hfound : findProgramAddress c .budgetEscrow (tokenBudgetSeeds o m) = some (kb, bump))

include hfound

theorem tokenBudgetSeeds_owner {owner mint : K}
    (h : findProgramAddress c .budgetEscrow (tokenBudgetSeeds owner mint) = some (kb, bump')) : owner = o ∧ mint = m := by
  have hseeds := (findProgramAddress_inj h hfound).2
  simpa [tokenBudgetSeeds] using hseeds

theorem tokenBudgetSeeds_key (h : findProgramAddress c .budgetEscrow (tokenBudgetSeeds o m) = some (k, bump')) :
    k = kb :=
  congrArg Prod.fst (Option.some.inj (h.symm.trans hfound))

end Seeds

variable [DecidableEq K] {σ τ υ ω : Ledger K}

/-! ## Deposits -/

/-- The amount and the fee of a deposit into the budget of `o` in the mint `m`. -/
def Instruction.tokenDeposit? (c : Runtime K) (now : Int64) (o m : K) : Instruction K → Option (UInt64 × UInt64)
  | .budget (.depositToken i) =>
    if i.owner = o ∧ i.mint = m then
      some (i.amount, if i.token_program = .token2022 then c.transferFee m now i.amount else 0)
    else none
  | .budget (.depositTokenWithSession i) => if i.accounts.owner = o ∧ i.mint = m then some (i.amount, 0) else none
  | _ => none

def tokenDeposits (o m : K) (steps : List (Step c)) : List (UInt64 × UInt64) :=
  steps.filterMap fun st => st.instruction.tokenDeposit? c st.tx.now o m

/-- What the vault was credited with by deposits. -/
def credited (o m : K) (steps : List (Step c)) : ℕ := ((tokenDeposits o m steps).map fun d => d.1.toNat - d.2.toNat).sum

def deposited (o m : K) (steps : List (Step c)) : ℕ := ((tokenDeposits o m steps).map fun d => d.1.toNat).sum

def fees (o m : K) (steps : List (Step c)) : ℕ := ((tokenDeposits o m steps).map fun d => d.2.toNat).sum

theorem tokenDeposits_snoc {l : List (Step c)} : tokenDeposits o m (l ++ [st]) =
    tokenDeposits o m l ++ (st.instruction.tokenDeposit? c st.tx.now o m).toList := by
  unfold tokenDeposits
  rw [List.filterMap_append]
  cases h : st.instruction.tokenDeposit? c st.tx.now o m <;> simp [h]

theorem tokenDeposit_fee {i : Instruction K} {now : Int64} {d : UInt64 × UInt64} (h : i.tokenDeposit? c now o m = some d) :
    d.2.toNat ≤ d.1.toNat := by
  unfold Instruction.tokenDeposit? at h
  split at h
  · rw [Option.ite_none_right_eq_some] at h
    obtain ⟨-, rfl⟩ := Option.some.inj h.2
    simp only
    split
    · exact UInt64.le_iff_toNat_le.1 (c.transferFee_le _ _ _)
    · exact Nat.zero_le _
  · rw [Option.ite_none_right_eq_some] at h
    obtain ⟨-, rfl⟩ := Option.some.inj h.2
    exact Nat.zero_le _
  · cases h

/-- What is deposited is credited or withheld. -/
theorem deposited_eq (steps : List (Step c)) : deposited o m steps = credited o m steps + fees o m steps := by
  have hall : ∀ d ∈ tokenDeposits o m steps, d.2.toNat ≤ d.1.toNat := by
    intro d hd
    obtain ⟨st, -, hst⟩ := List.mem_filterMap.1 hd
    exact tokenDeposit_fee hst
  unfold deposited credited fees
  generalize tokenDeposits o m steps = ds at hall ⊢
  induction ds with
  | nil => rfl
  | cons d l ih =>
    have hd := hall d List.mem_cons_self
    have ih := ih fun d hd => hall d (List.mem_cons_of_mem _ hd)
    simp only [List.map_cons, List.sum_cons]
    omega

/-! ## The vault -/

/-- The vault of the budget at `kb` in the mint `m` holds at least `n`. -/
def VaultHolds (c : Runtime K) (σ : Ledger K) (m kb : K) (n : ℕ) : Prop :=
  ∃ mint kv t, σ.view Account.mint? m = some mint ∧ associatedAddress c mint.program kb m = some kv ∧
    σ.view Account.tokenAccount? kv = some t ∧ n ≤ t.amount.toNat

/-- Without the signature of the budget nothing is taken from its vault. -/
theorem VaultHolds.step (h : VaultHolds c σ m kb n) (hfiled : TokensFiled c σ) (hstep : TokenStep c signers σ τ)
    (hk : kb ∉ signers) : VaultHolds c τ m kb n := by
  obtain ⟨mint, kv, t, hmint, haddress, ht, hle⟩ := h
  obtain ⟨mint', hmint', hprogram⟩ := hstep.mints m mint hmint
  obtain ⟨t', ht', -, hgrows⟩ := hstep.accounts kv t ht
  have howner : kb = t.owner := ((hfiled kv t ht).2 _ _ _ haddress).2.1
  exact ⟨mint', kv, t', hmint', hprogram ▸ haddress, ht', hle.trans (hgrows (howner ▸ hk))⟩

theorem VaultHolds.mono {n' : ℕ} (h : VaultHolds c σ m kb n) (hle : n' ≤ n) : VaultHolds c σ m kb n' := by
  obtain ⟨mint, kv, t, hmint, haddress, ht, hn⟩ := h
  exact ⟨mint, kv, t, hmint, haddress, ht, hle.trans hn⟩

/-- The vault that an instruction opens is the one of the mint's program. -/
theorem initAssociated_vault {program : TokenProgram} {kv : K} (hfiled : TokensFiled c σ)
    (h : initAssociated c program m kb kv σ = .ok υ) :
    ∃ mint, υ.view Account.mint? m = some mint ∧ associatedAddress c mint.program kb m = some kv ∧
      ∃ t, υ.view Account.tokenAccount? kv = some t := by
  obtain ⟨haddress, ⟨hnone, ⟨mint, hmint, rfl⟩, rfl⟩ | ⟨rfl, t, ht, rfl, rfl, -⟩⟩ := initAssociated_ok h
  · refine ⟨mint, ?_, haddress, _, view_set_self⟩
    rw [view_set_other rfl (view_none hnone)]
    exact hmint
  · obtain ⟨mint, hmint, hprogram⟩ := (hfiled kv t ht).1
    exact ⟨mint, hmint, hprogram ▸ haddress, t, ht⟩

theorem initAssociated_holds {program : TokenProgram} {kv : K} (hfiled : TokensFiled c σ)
    (h : initAssociated c program m kb kv σ = .ok υ) : VaultHolds c υ m kb 0 := by
  obtain ⟨mint, hmint, haddress, t, ht⟩ := initAssociated_vault hfiled h
  exact ⟨mint, kv, t, hmint, haddress, ht, Nat.zero_le _⟩

section Transfers

variable {mint : Mint K} {kv : K} (hmint : σ.view Account.mint? m = some mint) (haddress : associatedAddress c mint.program kb m = some kv)

include hmint haddress

/-- The account that a ledger holds an amount in is the one at the vault's address. -/
theorem VaultHolds.account (h : VaultHolds c σ m kb n) : ∃ t, σ.view Account.tokenAccount? kv = some t ∧ n ≤ t.amount.toNat := by
  obtain ⟨mint', kv', t, hmint', haddress', ht, hle⟩ := h
  cases hmint.symm.trans hmint'
  cases haddress.symm.trans haddress'
  exact ⟨t, ht, hle⟩

/-- A transfer into the vault. -/
theorem transferWith_deposit {source authority mintKey : K} {amount fee : UInt64} (hfiled : TokensFiled c σ) (hk : kb ∉ signers)
    (hv : VaultHolds c σ m kb n) (h : transferWith signers source kv mintKey authority amount fee σ = .ok τ) :
    VaultHolds c τ m kb (n + (amount.toNat - fee.toNat)) := by
  obtain ⟨mint', hmint', hprogram⟩ := (transferWith_tokenStep (c := c) h).mints m mint hmint
  obtain ⟨t, ht, hle⟩ := hv.account hmint haddress
  obtain ⟨src, dst, rest, total, hsrc, hdst, -, -, -, howner, hsigner, -, hfee, htotal, rfl⟩ := transferWith_ok h
  cases hdst.symm.trans ht
  -- the source is signed for, so it is not the vault
  have hne : source ≠ kv := by
    rintro rfl
    cases hsrc.symm.trans hdst
    rw [← howner, ← ((hfiled _ _ hdst).2 _ _ _ haddress).2.1] at hsigner
    exact hk hsigner
  rw [if_neg hne] at hmint' ⊢
  refine ⟨mint', kv, _, hmint', hprogram ▸ haddress, view_set_self, ?_⟩
  simp only
  omega

/-- A transfer from the vault. -/
theorem transferWith_spend {destination authority mintKey : K} {amount fee : UInt64} (hv : VaultHolds c σ m kb n)
    (h : transferWith signers kv destination mintKey authority amount fee σ = .ok τ) :
    VaultHolds c τ m kb (n - amount.toNat) := by
  obtain ⟨mint', hmint', hprogram⟩ := (transferWith_tokenStep (c := c) h).mints m mint hmint
  obtain ⟨t, ht, hle⟩ := hv.account hmint haddress
  obtain ⟨src, dst, rest, total, hsrc, hdst, -, -, -, -, -, hrest, -, -, rfl⟩ := transferWith_ok h
  cases hsrc.symm.trans ht
  split
  · exact hv.mono (Nat.sub_le _ _)
  · rename_i hne
    rw [if_neg hne] at hmint'
    refine ⟨mint', kv, { t with amount := rest }, hmint', hprogram ▸ haddress, ?_, by simp only; omega⟩
    rw [view_set, if_neg hne, view_set, if_pos rfl]
    rfl

end Transfers

/-! ## Where token budgets are filed -/

/-- Every token budget stands at the address that is found for its owner and its mint. -/
def TokenBudgetsFiled (c : Runtime K) (σ : Ledger K) : Prop :=
  ∀ k b, σ.view Account.tokenBudget? k = some b →
    ∃ bump, findProgramAddress c .budgetEscrow (tokenBudgetSeeds b.owner b.mint) = some (k, bump)

def SameTokenBudgets (σ τ : Ledger K) : Prop := ∀ k, τ.view Account.tokenBudget? k = σ.view Account.tokenBudget? k

theorem Owned.sameTokenBudgets {ps : List Program} (h : Owned ps σ τ) (hp : Program.budgetEscrow ∉ ps) : SameTokenBudgets σ τ :=
  fun _ => h.view stores_tokenBudget fun _ => hp

/-- An account of another type is written at an address that holds one, or nothing. -/
theorem sameTokenBudgets_set {T : Type} {type : Account K → Option T} {ctor : T → Account K} {t zero t' : T}
    (h : SameTokenBudgets σ τ) (hopen : Opened σ type k zero t) (hs : Stores type ctor)
    (hother : ∀ t, Account.tokenBudget? (ctor t) = none) : SameTokenBudgets σ (OrdMap.set τ k (ctor t')) := by
  intro k'
  rw [view_set_other (hother t') ((h k).trans (hopen.view_other hs hother)), h]

/-- **What a step does to the token budgets.** -/
theorem step_tokenBudgets (h : step c σ st = some τ) :
    (SameTokenBudgets σ τ ∧ (∀ now o m, st.instruction.tokenDeposit? c now o m = none) ∧
        ∀ i, st.instruction ≠ .budget (.spendToken i)) ∨
      (∃ i, st.instruction = .budget (.createTokenBudget i) ∧ createTokenBudget c st.tx i σ = .ok τ) ∨
      (∃ i, st.instruction = .budget (.depositToken i) ∧ depositToken c st.tx i σ = .ok τ) ∨
      (∃ i, st.instruction = .budget (.depositTokenWithSession i) ∧ depositTokenWithSession c st.tx i σ = .ok τ) ∨
      ∃ i, st.instruction = .budget (.spendToken i) ∧ spendToken c st.tx i σ = .ok τ := by
  have hsame : SameTokenBudgets σ σ := fun _ => rfl
  have h := step_ok.1 h
  cases hi : st.instruction with
  | budget i =>
    rw [hi] at h
    cases i with
    | createTokenBudget i => exact .inr (.inl ⟨i, rfl, h⟩)
    | depositToken i => exact .inr (.inr (.inl ⟨i, rfl, h⟩))
    | depositTokenWithSession i => exact .inr (.inr (.inr (.inl ⟨i, rfl, h⟩)))
    | spendToken i => exact .inr (.inr (.inr (.inr ⟨i, rfl, h⟩)))
    | createBudget i =>
      obtain ⟨bump, b, -, -, hopen, rfl⟩ := createBudget_ok.1 h
      exact .inl ⟨sameTokenBudgets_set hsame hopen stores_budget fun _ => rfl, fun _ _ _ => rfl, by simp⟩
    | deposit i =>
      obtain ⟨b, balance, -, hb, -, -, rfl⟩ := deposit_ok.1 h
      have hopen : Opened σ Account.budget? _ b b := .inr (mutBudget_ok.1 hb).1
      exact .inl ⟨sameTokenBudgets_set hsame hopen stores_budget fun _ => rfl, fun _ _ _ => rfl, by simp⟩
    | spend i =>
      obtain ⟨b, b', -, hb, -, rfl⟩ := spend_ok.1 h
      have hopen : Opened σ Account.budget? _ b b := .inr (mutBudget_ok.1 hb).1
      exact .inl ⟨sameTokenBudgets_set hsame hopen stores_budget fun _ => rfl, fun _ _ _ => rfl, by simp⟩
    | spendWithSession i =>
      obtain ⟨s, n, s₁, b, b', -, hb, -, -, -, -, rfl⟩ := spendWithSession_ok h
      have hopen : Opened σ Account.budget? _ b b := .inr (mutBudget_ok.1 hb).1
      exact .inl ⟨sameTokenBudgets_set hsame hopen stores_budget fun _ => rfl, fun _ _ _ => rfl, by simp⟩
  | royalty i =>
    rw [hi] at h
    cases i with
    | registerReceipt i =>
      obtain ⟨bump, r, -, hopen, rfl⟩ := registerReceipt_ok h
      exact .inl ⟨sameTokenBudgets_set hsame hopen stores_receipt fun _ => rfl, fun _ _ _ => rfl, by simp⟩
    | routeRoyalty i =>
      obtain ⟨bump, r, υ, -, hopen, hspend, rfl⟩ := routeRoyalty_ok h
      obtain ⟨b, b', -, hb, -, rfl⟩ := spend_ok.1 hspend
      have hopen' : Opened σ Account.budget? _ b b := .inr (mutBudget_ok.1 hb).1
      have hspent : SameTokenBudgets σ (OrdMap.set σ i.budget (.budget b')) :=
        sameTokenBudgets_set hsame hopen' stores_budget fun _ => rfl
      exact .inl ⟨sameTokenBudgets_set hspent hopen stores_receipt fun _ => rfl, fun _ _ _ => rfl, by simp⟩
    | routeRoyaltyWithSession i =>
      obtain ⟨bump, r, υ, -, hopen, hspend, rfl⟩ := routeRoyaltyWithSession_ok h
      obtain ⟨s, n, s₁, b, b', -, hb, -, -, -, -, rfl⟩ := spendWithSession_ok hspend
      have hopen' : Opened σ Account.budget? _ b b := .inr (mutBudget_ok.1 hb).1
      have hspent : SameTokenBudgets σ (OrdMap.set σ i.budget (.budget b')) :=
        sameTokenBudgets_set hsame hopen' stores_budget fun _ => rfl
      exact .inl ⟨sameTokenBudgets_set hspent hopen stores_receipt fun _ => rfl, fun _ _ _ => rfl, by simp⟩
  | capability i =>
    rw [hi] at h
    exact .inl ⟨(capability_owned h).sameTokenBudgets (by decide), fun _ _ _ => rfl, by simp⟩
  | memory i =>
    rw [hi] at h
    exact .inl ⟨(memory_owned h).sameTokenBudgets (by decide), fun _ _ _ => rfl, by simp⟩
  | token i =>
    rw [hi] at h
    exact .inl ⟨(token_owned h).sameTokenBudgets (by decide), fun _ _ _ => rfl, by simp⟩
  | spl i =>
    rw [hi] at h
    exact .inl ⟨(spl_owned h).sameTokenBudgets (by decide), fun _ _ _ => rfl, by simp⟩

/-- The token budgets after a write that follows steps of the token programs. -/
theorem tokenBudget_view {b : TokenBudget K} {k' : K} (howned : Owned splPrograms σ τ) :
    Ledger.view (OrdMap.set τ k (.tokenBudget b)) Account.tokenBudget? k' =
      if k' = k then some b else σ.view Account.tokenBudget? k' := by
  rw [view_set, howned.sameTokenBudgets (by decide)]
  rfl

theorem TokenBudgetsFiled.write {b : TokenBudget K} {bump : UInt8} (h : TokenBudgetsFiled c σ) (howned : Owned splPrograms σ τ)
    (hfound : findProgramAddress c .budgetEscrow (tokenBudgetSeeds b.owner b.mint) = some (k, bump)) :
    TokenBudgetsFiled c (OrdMap.set τ k (.tokenBudget b)) := by
  intro k' b' hb'
  rw [tokenBudget_view howned] at hb'
  split at hb'
  · rename_i hk
    cases hb'
    subst hk
    exact ⟨bump, hfound⟩
  · exact h k' b' hb'

theorem step_tokenBudgetsFiled (hfiled : TokenBudgetsFiled c σ) (h : step c σ st = some τ) : TokenBudgetsFiled c τ := by
  rcases step_tokenBudgets h with ⟨hsame, -⟩ | ⟨i, -, h⟩ | ⟨i, -, h⟩ | ⟨i, -, h⟩ | ⟨i, -, h⟩
  · exact fun k b hb => hfiled k b (hsame k ▸ hb)
  · obtain ⟨bump, b, υ, -, hfound, -, hinit, -, rfl⟩ := createTokenBudget_ok h
    exact hfiled.write (initAssociated_owned hinit) hfound
  · obtain ⟨mint, bump, bump', b, υ, ω, balance, -, -, hfound, -, hinit, htransfer, -, rfl⟩ := depositToken_ok h
    exact hfiled.write ((initAssociated_owned hinit).trans (transferChecked_owned htransfer)) hfound
  · obtain ⟨s, n, s₁, mint, bump, b, src, υ, ω, balance, -, -, -, -, hfound, -, -, -, hinit, htransfer, -, rfl⟩ :=
      depositTokenWithSession_ok h
    exact hfiled.write ((initAssociated_owned hinit).trans (transfer_owned htransfer)) hfound
  · obtain ⟨mint, b, t, ω, balance, spent, -, -, hb, -, -, -, -, htransfer, -, -, rfl⟩ := spendToken_ok h
    obtain ⟨bump, hfound⟩ := hfiled _ b hb
    exact hfiled.write (transferChecked_owned htransfer) hfound

theorem run_tokenBudgetsFiled {steps : List (Step c)} (h : run c genesis steps = some σ) : TokenBudgetsFiled c σ := by
  refine Run.run_invariant (fun _ _ _ hs h => step_tokenBudgetsFiled hs h) ?_ h
  intro k b hb
  rw [view_genesis] at hb
  cases hb

/-! ## The budget of one owner in one mint -/

/-- **What the ledger has for a budget after a run**: its balance and what was spent add up to the deposits, and its vault
covers the balance up to the fees. -/
structure Backed (c : Runtime K) (o m kb : K) (l : List (Step c)) (σ : Ledger K) : Prop where
  fresh : σ.view Account.tokenBudget? kb = none → tokenDeposits o m l = []
  total : ∀ b, σ.view Account.tokenBudget? kb = some b → b.balance.toNat + b.spent.toNat = deposited o m l
  vault : ∀ b, σ.view Account.tokenBudget? kb = some b → ∃ n, VaultHolds c σ m kb n ∧ b.balance.toNat ≤ n + fees o m l

section Owner

variable {l : List (Step c)}

/-- A step that leaves the budget alone and that the budget does not sign. -/
theorem Backed.keep (h : Backed c o m kb l σ) (hfiled : TokensFiled c σ)
    (hview : τ.view Account.tokenBudget? kb = σ.view Account.tokenBudget? kb)
    (hdeposit : st.instruction.tokenDeposit? c st.tx.now o m = none) (hstep : TokenStep c signers σ τ) (hk : kb ∉ signers) :
    Backed c o m kb (l ++ [st]) τ := by
  have hsame : tokenDeposits o m (l ++ [st]) = tokenDeposits o m l := by
    rw [tokenDeposits_snoc, hdeposit, Option.toList_none, List.append_nil]
  constructor
  · rw [hview, hsame]
    exact h.fresh
  · rw [hview, deposited, hsame]
    exact h.total
  · rw [hview, fees, hsame]
    intro b hb
    obtain ⟨n, hn, hle⟩ := h.vault b hb
    exact ⟨n, hn.step hfiled hstep hk, hle⟩

/-- The budget that an instruction opens, and its vault. -/
theorem Backed.opened {b : TokenBudget K} {program : TokenProgram} {kv : K} (h : Backed c o m kb l σ) (hfiled : TokensFiled c σ)
    (hopen : Opened σ Account.tokenBudget? kb (zeroTokenBudget c) b) (hinit : initAssociated c program m kb kv σ = .ok υ)
    (hk : kb ∉ signers) :
    b.balance.toNat + b.spent.toNat = deposited o m l ∧ ∃ n, VaultHolds c υ m kb n ∧ b.balance.toNat ≤ n + fees o m l := by
  rcases hopen with ⟨hnone, rfl⟩ | hview
  · have hnothing := h.fresh (view_none hnone)
    refine ⟨?_, 0, initAssociated_holds hfiled hinit, Nat.zero_le _⟩
    rw [deposited, hnothing]
    rfl
  · obtain ⟨n, hn, hle⟩ := h.vault b hview
    have hstep : TokenStep c signers σ υ := initAssociated_tokenStep hinit
    exact ⟨h.total b hview, n, hn.step hfiled hstep hk, hle⟩

/-- A deposit by either instruction. -/
theorem Backed.deposit {b b' : TokenBudget K} {program : TokenProgram} {kv source authority mintKey : K} {amount fee : UInt64}
    (h : Backed c o m kb l σ) (hfiled : TokensFiled c σ) (hopen : Opened σ Account.tokenBudget? kb (zeroTokenBudget c) b)
    (hinit : initAssociated c program m kb kv σ = .ok υ)
    (htransfer : transferWith signers source kv mintKey authority amount fee υ = .ok ω) (hk : kb ∉ signers)
    (hview : τ.view Account.tokenBudget? kb = some b') (hbalance : b'.balance.toNat = b.balance.toNat + amount.toNat)
    (hspent : b'.spent = b.spent) (hdeposit : st.instruction.tokenDeposit? c st.tx.now o m = some (amount, fee))
    (hlast : TokenStep c signers ω τ) : Backed c o m kb (l ++ [st]) τ := by
  obtain ⟨htotal, n, hn, hle⟩ := h.opened hfiled hopen hinit hk
  obtain ⟨mint, hmint, haddress, -⟩ := initAssociated_vault hfiled hinit
  have hopened : TokenStep c signers σ υ := initAssociated_tokenStep hinit
  have hmoved : TokenStep c signers υ ω := transferWith_tokenStep htransfer
  have hn' := transferWith_deposit hmint haddress (hopened.filed hfiled) hk hn htransfer
  have hsnoc : tokenDeposits o m (l ++ [st]) = tokenDeposits o m l ++ [(amount, fee)] := by
    rw [tokenDeposits_snoc, hdeposit, Option.toList_some]
  constructor
  · intro hnone
    rw [hview] at hnone
    cases hnone
  · intro b₁ hb₁
    cases hview.symm.trans hb₁
    rw [hspent, deposited, hsnoc, List.map_append, List.sum_append]
    rw [deposited] at htotal
    simp only [List.map_cons, List.map_nil, List.sum_cons, List.sum_nil]
    omega
  · intro b₁ hb₁
    cases hview.symm.trans hb₁
    refine ⟨_, hn'.step (hmoved.filed (hopened.filed hfiled)) hlast hk, ?_⟩
    rw [fees, hsnoc, List.map_append, List.sum_append]
    rw [fees] at hle
    simp only [List.map_cons, List.map_nil, List.sum_cons, List.sum_nil]
    omega

variable {bump : UInt8} (hfound : findProgramAddress c .budgetEscrow (tokenBudgetSeeds o m) = some (kb, bump))
  (hfiled : TokensFiled c σ) (hbacked : Backed c o m kb l σ)

include hfound hfiled hbacked

theorem createTokenBudget_backed {i : CreateTokenBudget K} (hbudgets : TokenBudgetsFiled c σ)
    (hi : st.instruction = .budget (.createTokenBudget i)) (h : createTokenBudget c st.tx i σ = .ok τ) :
    Backed c o m kb (l ++ [st]) τ := by
  have hk : kb ∉ st.tx.signers := st.tx.not_signer (findProgramAddress_wallet hfound)
  have hstep := createTokenBudget_tokenStep h
  have hdeposit : st.instruction.tokenDeposit? c st.tx.now o m = none := by
    rw [hi]
    rfl
  obtain ⟨bump', b, υ, hsigner, hfound', hopen, hinit, hdefault, rfl⟩ := createTokenBudget_ok h
  have howned := initAssociated_owned hinit
  by_cases hkb : kb = i.token_budget
  · subst hkb
    obtain ⟨howner, hmint⟩ := tokenBudgetSeeds_owner hfound hfound'
    rw [hmint] at hinit
    -- a budget that is there has an owner that signs, and the default key does not
    have hnew : σ.view Account.tokenBudget? i.token_budget = none := by
      rcases hopen with ⟨hnone, -⟩ | hthere
      · exact view_none hnone
      · obtain ⟨bump₁, hfound₁⟩ := hbudgets _ b hthere
        rw [howner, ← (tokenBudgetSeeds_owner hfound hfound₁).1, hdefault] at hsigner
        exact absurd hsigner (st.tx.not_signer c.wallet_default)
    have hdeposits : tokenDeposits o m (l ++ [st]) = [] := by
      rw [tokenDeposits_snoc, hdeposit, hbacked.fresh hnew, Option.toList_none, List.append_nil]
    have hview : ∀ b₁, Ledger.view (OrdMap.set υ i.token_budget (.tokenBudget ⟨i.owner, i.mint, 0, 0, bump'⟩))
        Account.tokenBudget? i.token_budget = some b₁ → b₁.balance = 0 ∧ b₁.spent = 0 := by
      intro b₁ hb₁
      rw [tokenBudget_view howned, if_pos rfl] at hb₁
      cases hb₁
      exact ⟨rfl, rfl⟩
    constructor
    · exact fun _ => hdeposits
    · intro b₁ hb₁
      rw [(hview b₁ hb₁).1, (hview b₁ hb₁).2, deposited, hdeposits]
      rfl
    · intro b₁ hb₁
      have hopened : TokenStep c st.tx.signers σ υ := initAssociated_tokenStep hinit
      refine ⟨0, (initAssociated_holds hfiled hinit).step (hopened.filed hfiled) ?_ hk, ?_⟩
      · refine tokenStep_tokenBudget howned hopen fun hnone => ?_
        exact initAssociated_none hinit hfound' (by decide) hnone
      · rw [(hview b₁ hb₁).1]
        exact Nat.zero_le _
  · refine hbacked.keep hfiled ?_ hdeposit hstep hk
    rw [tokenBudget_view howned, if_neg hkb]

theorem depositToken_backed {i : TokenBudgetAccounts K} (hi : st.instruction = .budget (.depositToken i))
    (h : depositToken c st.tx i σ = .ok τ) : Backed c o m kb (l ++ [st]) τ := by
  have hk : kb ∉ st.tx.signers := st.tx.not_signer (findProgramAddress_wallet hfound)
  have hstep := depositToken_tokenStep h
  obtain ⟨mint, bump', bump₂, b, υ, ω, balance, -, -, hfound', hopen, hinit, htransfer, hbalance, rfl⟩ := depositToken_ok h
  have howned := (initAssociated_owned hinit).trans (transferChecked_owned htransfer)
  obtain ⟨mint', -, hprogram, htransferred⟩ := transferChecked_ok htransfer
  by_cases hkb : kb = i.token_budget
  · subst hkb
    obtain ⟨rfl, rfl⟩ := tokenBudgetSeeds_owner hfound hfound'
    have hdeposit : st.instruction.tokenDeposit? c st.tx.now i.owner i.mint =
        some (i.amount, withheld c st.tx.now i.mint mint' i.amount) := by
      rw [hi, withheld, hprogram]
      exact if_pos ⟨rfl, rfl⟩
    refine hbacked.deposit hfiled hopen hinit htransferred hk ((tokenBudget_view howned).trans (if_pos rfl)) hbalance rfl hdeposit ?_
    refine tokenStep_tokenBudget howned hopen fun hnone => ?_
    exact transferWith_none htransferred (initAssociated_none hinit hfound' (by decide) hnone)
  · refine hbacked.keep hfiled ?_ ?_ hstep hk
    · rw [tokenBudget_view howned, if_neg hkb]
    · rw [hi]
      refine if_neg ?_
      rintro ⟨rfl, rfl⟩
      exact hkb (tokenBudgetSeeds_key hfound hfound').symm

theorem depositTokenWithSession_backed {i : DepositTokenWithSession K} (hi : st.instruction = .budget (.depositTokenWithSession i))
    (h : depositTokenWithSession c st.tx i σ = .ok τ) : Backed c o m kb (l ++ [st]) τ := by
  have hk : kb ∉ st.tx.signers := st.tx.not_signer (findProgramAddress_wallet hfound)
  have hstep := depositTokenWithSession_tokenStep h
  obtain ⟨s, nonce, s₁, mint, bump', b, src, υ, ω, balance, -, -, -, -, hfound', hopen, -, -, hinit, htransfer, hbalance, rfl⟩ :=
    depositTokenWithSession_ok h
  have howned := (initAssociated_owned hinit).trans (transfer_owned htransfer)
  obtain ⟨src', -, -, htransferred⟩ := transfer_ok htransfer
  by_cases hkb : kb = i.token_budget
  · subst hkb
    obtain ⟨rfl, rfl⟩ := tokenBudgetSeeds_owner hfound hfound'
    have hdeposit : st.instruction.tokenDeposit? c st.tx.now i.accounts.owner i.mint = some (i.amount, 0) := by
      rw [hi]
      exact if_pos ⟨rfl, rfl⟩
    refine hbacked.deposit hfiled hopen hinit htransferred hk ((tokenBudget_view howned).trans (if_pos rfl)) hbalance rfl hdeposit ?_
    refine tokenStep_tokenBudget howned hopen fun hnone => ?_
    exact transferWith_none htransferred (initAssociated_none hinit hfound' (by decide) hnone)
  · refine hbacked.keep hfiled ?_ ?_ hstep hk
    · rw [tokenBudget_view howned, if_neg hkb]
    · rw [hi]
      refine if_neg ?_
      rintro ⟨rfl, rfl⟩
      exact hkb (tokenBudgetSeeds_key hfound hfound').symm

theorem spendToken_backed {i : TokenBudgetAccounts K} (hbudgets : TokenBudgetsFiled c σ)
    (hi : st.instruction = .budget (.spendToken i)) (h : spendToken c st.tx i σ = .ok τ) : Backed c o m kb (l ++ [st]) τ := by
  have hk : kb ∉ st.tx.signers := st.tx.not_signer (findProgramAddress_wallet hfound)
  have hstep := spendToken_tokenStep h
  have hdeposit : st.instruction.tokenDeposit? c st.tx.now o m = none := by
    rw [hi]
    rfl
  obtain ⟨mint, b, t, ω, balance, spent, -, -, hb, -, hvault, -, hbmint, htransfer, hbalance, hspent, rfl⟩ := spendToken_ok h
  have howned := transferChecked_owned htransfer
  have hmoved : TokenStep c (st.tx.signers ++ [i.token_budget]) σ ω := transferChecked_tokenStep htransfer
  obtain ⟨mint', -, -, htransferred⟩ := transferChecked_ok htransfer
  by_cases hkb : kb = i.token_budget
  · subst hkb
    obtain ⟨bump', hfound'⟩ := hbudgets _ b hb
    have hmint : i.mint = m := hbmint.symm.trans (tokenBudgetSeeds_owner hfound hfound').2
    obtain ⟨ht, htprogram, htmint, -, haddress⟩ := associated_ok hvault
    -- the vault has the program of the mint
    obtain ⟨⟨mint₁, hmint₁, hprogram₁⟩, -⟩ := hfiled _ t ht
    rw [htmint, hmint] at hmint₁
    rw [hmint, ← htprogram, ← hprogram₁] at haddress
    obtain ⟨n, hn, hle⟩ := hbacked.vault b hb
    have htotal := hbacked.total b hb
    have hn' := transferWith_spend hmint₁ haddress hn htransferred
    have hopen : Opened σ Account.tokenBudget? i.token_budget b b := .inr hb
    have hsame : tokenDeposits o m (l ++ [st]) = tokenDeposits o m l := by
      rw [tokenDeposits_snoc, hdeposit, Option.toList_none, List.append_nil]
    have hview : Ledger.view (OrdMap.set ω i.token_budget (.tokenBudget { b with balance := balance, spent := spent }))
        Account.tokenBudget? i.token_budget = some { b with balance := balance, spent := spent } :=
      (tokenBudget_view howned).trans (if_pos rfl)
    constructor
    · intro hnone
      rw [hview] at hnone
      cases hnone
    · intro b₁ hb₁
      cases hview.symm.trans hb₁
      rw [deposited, hsame]
      rw [deposited] at htotal
      simp only
      omega
    · intro b₁ hb₁
      cases hview.symm.trans hb₁
      have hlast : TokenStep c [] ω (OrdMap.set ω i.token_budget (.tokenBudget { b with balance := balance, spent := spent })) :=
        tokenStep_tokenBudget howned hopen fun hnone => transferWith_none htransferred hnone
      refine ⟨_, hn'.step (hmoved.filed hfiled) hlast List.not_mem_nil, ?_⟩
      rw [fees, hsame]
      rw [fees] at hle
      simp only
      omega
  · refine hbacked.keep hfiled ?_ hdeposit hstep (by simp [hk, hkb])
    rw [tokenBudget_view howned, if_neg hkb]

/-- **A step keeps the budget backed up to fees.** -/
theorem step_backed (hbudgets : TokenBudgetsFiled c σ) (h : step c σ st = some τ) : Backed c o m kb (l ++ [st]) τ := by
  rcases step_tokenBudgets h with ⟨hsame, hnone, hne⟩ | ⟨i, hi, h⟩ | ⟨i, hi, h⟩ | ⟨i, hi, h⟩ | ⟨i, hi, h⟩
  · rcases step_tokens h with htokens | ⟨i, hi, -⟩
    · have hk : kb ∉ st.tx.signers := st.tx.not_signer (findProgramAddress_wallet hfound)
      exact hbacked.keep hfiled (hsame kb) (hnone _ _ _) htokens hk
    · exact absurd hi (hne i)
  · exact createTokenBudget_backed hfound hfiled hbacked hbudgets hi h
  · exact depositToken_backed hfound hfiled hbacked hi h
  · exact depositTokenWithSession_backed hfound hfiled hbacked hi h
  · exact spendToken_backed hfound hfiled hbacked hbudgets hi h

end Owner

theorem run_backed {bump : UInt8} {steps : List (Step c)}
    (hfound : findProgramAddress c .budgetEscrow (tokenBudgetSeeds o m) = some (kb, bump)) (h : run c genesis steps = some σ) :
    Backed c o m kb steps σ := by
  refine Run.run_history (I := Backed c o m kb) ⟨fun _ => rfl, ?_, ?_⟩ ?_ steps σ h
  · intro b hb
    rw [view_genesis] at hb
    cases hb
  · intro b hb
    rw [view_genesis] at hb
    cases hb
  · intro l υ st τ hυ hbacked hst
    exact step_backed hfound (run_tokensFiled hυ) hbacked (run_tokenBudgetsFiled hυ) hst

/-! ## Solvency -/

/-- **A solvent budget**: its vault covers the balance, and balance and spent add up to what deposits have credited. -/
def Solvent (c : Runtime K) (o m kb : K) (l : List (Step c)) (σ : Ledger K) : Prop :=
  ∀ b, σ.view Account.tokenBudget? kb = some b →
    VaultHolds c σ m kb b.balance.toNat ∧ b.balance.toNat + b.spent.toNat = credited o m l

/-- A step that is no deposit with a fee. -/
def FreeDeposit (o m : K) (st : Step c) : Prop :=
  ∀ amount fee, st.instruction.tokenDeposit? c st.tx.now o m = some (amount, fee) → fee = 0

theorem fees_eq_zero {steps : List (Step c)} : fees o m steps = 0 ↔ ∀ st ∈ steps, FreeDeposit o m st := by
  unfold fees
  rw [List.sum_eq_zero_iff_forall_eq_nat, List.forall_mem_map]
  constructor
  · intro hall st hst amount fee hdeposit
    exact UInt64.toNat_inj.1 (hall (amount, fee) (List.mem_filterMap.2 ⟨st, hst, hdeposit⟩))
  · intro hall d hd
    obtain ⟨st, hst, hdeposit⟩ := List.mem_filterMap.1 hd
    rw [hall st hst d.1 d.2 hdeposit]
    rfl

theorem Backed.solvent_iff {l : List (Step c)} (h : Backed c o m kb l σ) : Solvent c o m kb l σ ↔ fees o m l = 0 := by
  have hsum := deposited_eq (o := o) (m := m) l
  cases hb : σ.view Account.tokenBudget? kb with
  | none =>
    have hnothing := h.fresh hb
    refine iff_of_true (fun b hb' => ?_) ?_
    · rw [hb] at hb'
      cases hb'
    · rw [fees, hnothing]
      rfl
  | some b =>
    have htotal := h.total b hb
    obtain ⟨n, hn, hle⟩ := h.vault b hb
    constructor
    · intro hsolvent
      have hcredited := (hsolvent b hb).2
      omega
    · intro hfees b' hb'
      cases hb.symm.trans hb'
      exact ⟨hn.mono (by omega), by omega⟩

/-- **A token budget is solvent over a run exactly when no deposit into it has a fee withheld.** -/
theorem token_budget_solvent_iff (c : Runtime K) {steps : List (Step c)} {σ : Ledger K} {o m kb : K} {bump : UInt8}
    (hfound : findProgramAddress c .budgetEscrow (tokenBudgetSeeds o m) = some (kb, bump)) (h : run c genesis steps = some σ) :
    (∀ l τ, l <+: steps → run c genesis l = some τ → Solvent c o m kb l τ) ↔ ∀ st ∈ steps, FreeDeposit o m st := by
  constructor
  · intro hall
    exact fees_eq_zero.1 ((run_backed hfound h).solvent_iff.1 (hall steps σ List.prefix_rfl h))
  · intro hfree l τ hl hτ
    refine (run_backed hfound hτ).solvent_iff.2 (fees_eq_zero.2 fun st hst => ?_)
    exact hfree st (hl.subset hst)

namespace ReferenceChain

def tokenBudgetKey : Address := address .budgetEscrow (tokenBudgetSeeds owner (wallet 8))

theorem tokenBudgetKey_found :
    findProgramAddress referenceChain .budgetEscrow (tokenBudgetSeeds owner (wallet 8)) = some (tokenBudgetKey, 255) := by
  decide

/-- The owner has 1000 tokens of a mint and deposits 100. -/
def fundsAndDeposits (program : TokenProgram) : List (Step referenceChain) :=
  issue program 1 8 1000 ++
    [signedBy 1 1000 (.budget (.depositToken
      { owner := owner
        mint := wallet 8
        token_budget := tokenBudgetKey
        owner_ata := ata program 1 8
        vault := address .associatedToken (associatedSeeds program tokenBudgetKey (wallet 8))
        token_program := program
        amount := 100 }))]

end ReferenceChain

open ReferenceChain in
theorem token_budget_solvent_plain : ∃ σ, run referenceChain genesis (fundsAndDeposits .token) = some σ ∧
    Solvent referenceChain owner (wallet 8) tokenBudgetKey (fundsAndDeposits .token) σ := by
  have hrun : (run referenceChain genesis (fundsAndDeposits .token)).isSome = true := by decide
  obtain ⟨σ, hσ⟩ := Option.isSome_iff_exists.1 hrun
  refine ⟨σ, hσ, (token_budget_solvent_iff referenceChain tokenBudgetKey_found hσ).2 ?_ _ σ List.prefix_rfl hσ⟩
  intro st hst amount fee hdeposit
  simp only [fundsAndDeposits, issue, List.cons_append, List.nil_append, List.mem_cons, List.not_mem_nil, or_false] at hst
  rcases hst with rfl | rfl | rfl | rfl
  · cases hdeposit
  · cases hdeposit
  · cases hdeposit
  · have hfee : some ((100 : UInt64), (0 : UInt64)) = some (amount, fee) := hdeposit
    cases hfee
    rfl

open ReferenceChain in
/-- A mint that withholds one hundredth leaves the vault short of the balance. -/
theorem fee_mint_insolvent : ¬ ∀ σ, run referenceChain genesis (fundsAndDeposits .token2022) = some σ →
    Solvent referenceChain owner (wallet 8) tokenBudgetKey (fundsAndDeposits .token2022) σ := by
  intro hall
  have hview : ((run referenceChain genesis (fundsAndDeposits .token2022)).bind fun σ =>
      (σ.view Account.tokenBudget? tokenBudgetKey).map fun b => b.balance.toNat + b.spent.toNat) = some 100 := by decide
  obtain ⟨σ, hσ, h⟩ := Option.bind_eq_some_iff.1 hview
  obtain ⟨b, hb, hsum⟩ := Option.map_eq_some_iff.1 h
  have hcredited : credited owner (wallet 8) (fundsAndDeposits .token2022) = 99 := by decide
  have htotal := (hall σ hσ b hb).2
  rw [hsum, hcredited] at htotal
  exact absurd htotal (by decide)

end EnigmaMemory.Cortex
