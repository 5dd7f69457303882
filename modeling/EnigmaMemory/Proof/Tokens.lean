import EnigmaMemory.Proof.Sessions

/-!
# Mints and token accounts over steps

Token accounts keep their program, mint and owner, and only their owner's signature takes an amount
from them.

* `TokenStep`: what any step leaves of the mints and the token accounts, for the keys that signed.
* `step_tokens`: every step is one, with the signers of its transaction; a spend from a token budget
  has the budget sign too.
-/

namespace EnigmaMemory.Cortex

variable {K : Type} {c : Runtime K} {k : K}

theorem associatedAddress_found {program : TokenProgram} {wallet mint : K} (h : associatedAddress c program wallet mint = some k) :
    ∃ bump, findProgramAddress c .associatedToken (associatedSeeds program wallet mint) = some (k, bump) := by
  obtain ⟨⟨k', bump⟩, hfound, rfl⟩ := Option.map_eq_some_iff.1 h
  exact ⟨bump, hfound⟩

/-- An associated token account is that of one wallet and one mint. -/
theorem associatedAddress_inj {program program' : TokenProgram} {wallet wallet' mint mint' : K}
    (h : associatedAddress c program wallet mint = some k) (h' : associatedAddress c program' wallet' mint' = some k) :
    program = program' ∧ wallet = wallet' ∧ mint = mint' := by
  obtain ⟨bump, hfound⟩ := associatedAddress_found h
  obtain ⟨bump', hfound'⟩ := associatedAddress_found h'
  have hseeds := (findProgramAddress_inj hfound hfound').2
  simp only [associatedSeeds, List.cons.injEq, Seed.key.injEq, Seed.program.injEq, Program.spl.injEq] at hseeds
  exact ⟨hseeds.2.1, hseeds.1, hseeds.2.2.1⟩

theorem associatedAddress_wallet {program : TokenProgram} {wallet mint : K} (h : associatedAddress c program wallet mint = some k) :
    c.wallet k = false := by
  obtain ⟨bump, hfound⟩ := associatedAddress_found h
  exact findProgramAddress_wallet hfound

/-- A derived address does not sign a transaction. -/
theorem Tx.not_signer (tx : Tx c) (h : c.wallet k = false) : k ∉ tx.signers := by
  intro hk
  rw [tx.verified k hk] at h
  cases h

variable [DecidableEq K] {tx : Tx c} {σ τ υ : Ledger K} {st : Step c} {signers : List K}

/-! ## What a step leaves -/

/-- A token account has the program of its mint, and stands at an associated address only as that address says. -/
def TokensFiled (c : Runtime K) (σ : Ledger K) : Prop :=
  ∀ k t, σ.view Account.tokenAccount? k = some t →
    (∃ mint, σ.view Account.mint? t.mint = some mint ∧ mint.program = t.program) ∧
    ∀ program wallet mint, associatedAddress c program wallet mint = some k →
      program = t.program ∧ wallet = t.owner ∧ mint = t.mint

/-- The same account with another amount. -/
def SameHolder (t t' : TokenAccount K) : Prop := t'.program = t.program ∧ t'.mint = t.mint ∧ t'.owner = t.owner

/-- **What a step leaves of mints and token accounts**: a mint keeps its program, a token account keeps its program, mint and
owner, and its amount is not taken from unless its owner is among the signers. -/
structure TokenStep (c : Runtime K) (signers : List K) (σ τ : Ledger K) : Prop where
  mints : ∀ k mint, σ.view Account.mint? k = some mint → ∃ mint', τ.view Account.mint? k = some mint' ∧ mint'.program = mint.program
  accounts : ∀ k t, σ.view Account.tokenAccount? k = some t → ∃ t', τ.view Account.tokenAccount? k = some t' ∧ SameHolder t t' ∧
    (t.owner ∉ signers → t.amount.toNat ≤ t'.amount.toNat)
  filed : TokensFiled c σ → TokensFiled c τ

theorem TokenStep.trans (h : TokenStep c signers σ τ) (h' : TokenStep c signers τ υ) : TokenStep c signers σ υ where
  mints k mint hm := by
    obtain ⟨mint₁, hm₁, hp₁⟩ := h.mints k mint hm
    obtain ⟨mint₂, hm₂, hp₂⟩ := h'.mints k mint₁ hm₁
    exact ⟨mint₂, hm₂, hp₂.trans hp₁⟩
  accounts k t ht := by
    obtain ⟨t₁, ht₁, ⟨hprogram₁, hmint₁, howner₁⟩, hle₁⟩ := h.accounts k t ht
    obtain ⟨t₂, ht₂, ⟨hprogram₂, hmint₂, howner₂⟩, hle₂⟩ := h'.accounts k t₁ ht₁
    refine ⟨t₂, ht₂, ⟨hprogram₂.trans hprogram₁, hmint₂.trans hmint₁, howner₂.trans howner₁⟩, fun hsigner => ?_⟩
    exact (hle₁ hsigner).trans (hle₂ (howner₁ ▸ hsigner))
  filed := fun hfiled => h'.filed (h.filed hfiled)

/-- The mints and token accounts are the same. -/
theorem tokenStep_of_same (hmints : ∀ k, τ.view Account.mint? k = σ.view Account.mint? k)
    (haccounts : ∀ k, τ.view Account.tokenAccount? k = σ.view Account.tokenAccount? k) : TokenStep c signers σ τ where
  mints k mint hm := ⟨mint, (hmints k).trans hm, rfl⟩
  accounts k t ht := ⟨t, (haccounts k).trans ht, ⟨rfl, rfl, rfl⟩, fun _ => le_rfl⟩
  filed hfiled k t ht := by
    rw [hmints]
    exact hfiled k t (haccounts k ▸ ht)

theorem TokenStep.refl (σ : Ledger K) : TokenStep c signers σ σ := tokenStep_of_same (fun _ => rfl) fun _ => rfl

/-- A step of programs other than the token programs. -/
theorem Owned.tokenStep {ps : List Program} (h : Owned ps σ τ) (hps : ∀ p, Program.spl p ∉ ps) : TokenStep c signers σ τ :=
  tokenStep_of_same (fun _ => h.view stores_mint fun _ => hps _) fun _ => h.view stores_tokenAccount fun _ => hps _

/-! ## Writes -/

theorem tokenStep_hold {t : TokenAccount K} {amount : UInt64} (h : σ.view Account.tokenAccount? k = some t)
    (hle : t.owner ∈ signers ∨ t.amount.toNat ≤ amount.toNat) : TokenStep c signers σ (OrdMap.set σ k (t.hold amount)) := by
  have hmints : ∀ k', Ledger.view (OrdMap.set σ k (t.hold amount)) Account.mint? k' = σ.view Account.mint? k' :=
    fun _ => view_set_other rfl (stores_tokenAccount.view_other h fun _ => rfl)
  have haccounts : ∀ k', Ledger.view (OrdMap.set σ k (t.hold amount)) Account.tokenAccount? k' =
      if k' = k then some { t with amount := amount } else σ.view Account.tokenAccount? k' := fun _ => view_set
  constructor
  · intro k' mint hm
    exact ⟨mint, (hmints k').trans hm, rfl⟩
  · intro k' t' ht'
    rw [haccounts]
    split
    · rename_i hk
      subst hk
      cases h.symm.trans ht'
      exact ⟨_, rfl, ⟨rfl, rfl, rfl⟩, fun hsigner => hle.resolve_left hsigner⟩
    · exact ⟨t', ht', ⟨rfl, rfl, rfl⟩, fun _ => le_rfl⟩
  · intro hfiled k' t' ht'
    rw [haccounts] at ht'
    rw [hmints]
    split at ht'
    · rename_i hk
      cases ht'
      subst hk
      exact hfiled _ t h
    · exact hfiled k' t' ht'

theorem tokenStep_mint {mint mint' : Mint K} (h : σ.view Account.mint? k = some mint) (hp : mint'.program = mint.program) :
    TokenStep c signers σ (OrdMap.set σ k (.mint mint')) := by
  have hmints : ∀ k', Ledger.view (OrdMap.set σ k (.mint mint')) Account.mint? k' =
      if k' = k then some mint' else σ.view Account.mint? k' := fun _ => view_set
  have hkept : ∀ k' m, σ.view Account.mint? k' = some m →
      ∃ m', Ledger.view (OrdMap.set σ k (.mint mint')) Account.mint? k' = some m' ∧ m'.program = m.program := by
    intro k' m hm
    rw [hmints]
    split
    · rename_i hk
      subst hk
      cases h.symm.trans hm
      exact ⟨mint', rfl, hp⟩
    · exact ⟨m, hm, rfl⟩
  have haccounts : ∀ k', Ledger.view (OrdMap.set σ k (.mint mint')) Account.tokenAccount? k' = σ.view Account.tokenAccount? k' :=
    fun _ => view_set_other rfl (stores_mint.view_other h fun _ => rfl)
  refine ⟨hkept, fun k' t ht => ⟨t, (haccounts k').trans ht, ⟨rfl, rfl, rfl⟩, fun _ => le_rfl⟩, fun hfiled k' t ht => ?_⟩
  obtain ⟨⟨m, hm, hprogram⟩, hassociated⟩ := hfiled k' t (haccounts k' ▸ ht)
  obtain ⟨m', hm', hprogram'⟩ := hkept _ m hm
  exact ⟨⟨m', hm', hprogram'.trans hprogram⟩, hassociated⟩

theorem tokenStep_newMint {mint : Mint K} (h : σ.get k = none) : TokenStep c signers σ (OrdMap.set σ k (.mint mint)) := by
  have hmints : ∀ k' m, σ.view Account.mint? k' = some m → Ledger.view (OrdMap.set σ k (.mint mint)) Account.mint? k' = some m := by
    intro k' m hm
    have hne : k' ≠ k := by
      rintro rfl
      rw [view_none h] at hm
      cases hm
    rw [view_set, if_neg hne]
    exact hm
  have haccounts : ∀ k', Ledger.view (OrdMap.set σ k (.mint mint)) Account.tokenAccount? k' = σ.view Account.tokenAccount? k' :=
    fun _ => view_set_other rfl (view_none h)
  refine ⟨fun k' m hm => ⟨m, hmints k' m hm, rfl⟩, ?_, fun hfiled k' t ht => ?_⟩
  · exact fun k' t ht => ⟨t, (haccounts k').trans ht, ⟨rfl, rfl, rfl⟩, fun _ => le_rfl⟩
  · obtain ⟨⟨m, hm, hprogram⟩, hassociated⟩ := hfiled k' t (haccounts k' ▸ ht)
    exact ⟨⟨m, hmints _ m hm, hprogram⟩, hassociated⟩

theorem tokenStep_newAccount {t : TokenAccount K} {mint : Mint K} (h : σ.get k = none) (hmint : σ.view Account.mint? t.mint = some mint)
    (hprogram : mint.program = t.program) (hassociated : ∀ program wallet mint, associatedAddress c program wallet mint = some k →
      program = t.program ∧ wallet = t.owner ∧ mint = t.mint) : TokenStep c signers σ (OrdMap.set σ k (.tokenAccount t)) := by
  have hmints : ∀ k', Ledger.view (OrdMap.set σ k (.tokenAccount t)) Account.mint? k' = σ.view Account.mint? k' :=
    fun _ => view_set_other rfl (view_none h)
  constructor
  · exact fun k' m hm => ⟨m, (hmints k').trans hm, rfl⟩
  · intro k' t' ht'
    have hne : k' ≠ k := by
      rintro rfl
      rw [view_none h] at ht'
      cases ht'
    rw [view_set, if_neg hne]
    exact ⟨t', ht', ⟨rfl, rfl, rfl⟩, fun _ => le_rfl⟩
  · intro hfiled k' t' ht'
    rw [hmints]
    rw [view_set] at ht'
    split at ht'
    · rename_i hk
      cases ht'
      subst hk
      exact ⟨⟨mint, hmint, hprogram⟩, hassociated⟩
    · exact hfiled k' t' ht'

/-! ## Instructions -/

theorem transferWith_tokenStep {source destination mint authority : K} {amount fee : UInt64}
    (h : transferWith signers source destination mint authority amount fee σ = .ok τ) : TokenStep c signers σ τ := by
  obtain ⟨src, dst, rest, total, hsrc, hdst, -, -, -, howner, hsigner, -, hfee, htotal, rfl⟩ := transferWith_ok h
  split
  · exact .refl σ
  · rename_i hne
    refine (tokenStep_hold hsrc (.inl (howner ▸ hsigner))).trans (tokenStep_hold ?_ (.inr (by omega)))
    rw [view_set, if_neg (Ne.symm hne)]
    exact hdst

theorem transferChecked_tokenStep {now : Int64} {program : TokenProgram} {source mint destination authority : K} {amount : UInt64}
    {decimals : UInt8} (h : transferChecked c now signers program source mint destination authority amount decimals σ = .ok τ) :
    TokenStep c signers σ τ := by
  obtain ⟨m, -, -, h⟩ := transferChecked_ok h
  exact transferWith_tokenStep h

theorem transfer_tokenStep {source destination authority : K} {amount : UInt64}
    (h : transfer signers source destination authority amount σ = .ok τ) : TokenStep c signers σ τ := by
  obtain ⟨src, -, -, h⟩ := transfer_ok h
  exact transferWith_tokenStep h

/-- A mint takes from nobody, whoever signs. -/
theorem mintTo_tokenStep {minters : List K} {program : TokenProgram} {mint destination authority : K} {amount : UInt64}
    (h : mintTo minters program mint destination authority amount σ = .ok τ) : TokenStep c signers σ τ := by
  obtain ⟨m, dst, supply, total, hm, hdst, htotal, rfl⟩ := mintTo_ok h
  have hfirst : TokenStep c signers σ (OrdMap.set σ mint (.mint { m with supply := supply })) := tokenStep_mint hm rfl
  refine hfirst.trans (tokenStep_hold ?_ (.inr (by omega)))
  rw [view_set_other rfl (stores_mint.view_other hm fun _ => rfl)]
  exact hdst

theorem initAssociated_tokenStep {program : TokenProgram} {mint wallet : K} (h : initAssociated c program mint wallet k σ = .ok τ) :
    TokenStep c signers σ τ := by
  obtain ⟨haddress, ⟨hnone, ⟨m, hm, hprogram⟩, rfl⟩ | ⟨rfl, -⟩⟩ := initAssociated_ok h
  · refine tokenStep_newAccount hnone hm hprogram fun program' wallet' mint' h' => ?_
    exact associatedAddress_inj h' haddress
  · exact .refl _

theorem spl_tokenStep {i : SplInstruction K} (h : i.execute c tx σ = .ok τ) : TokenStep c tx.signers σ τ := by
  cases i with
  | initializeMint i =>
    obtain ⟨hnone, -, rfl⟩ := initializeMint_ok h
    exact tokenStep_newMint hnone
  | initializeAccount i =>
    obtain ⟨hnone, hsigner, ⟨m, hm, hprogram⟩, rfl⟩ := initializeAccount_ok h
    refine tokenStep_newAccount hnone hm hprogram fun program wallet mint haddress => ?_
    exact absurd hsigner (tx.not_signer (associatedAddress_wallet haddress))
  | createAssociated i => exact initAssociated_tokenStep h
  | mintTo i => exact mintTo_tokenStep h
  | transferChecked i => exact transferChecked_tokenStep h

/-! ## Steps -/

theorem transferWith_none {source destination mint authority : K} {amount fee : UInt64}
    (h : transferWith signers source destination mint authority amount fee σ = .ok τ) (hk : σ.get k = none) : τ.get k = none := by
  obtain ⟨src, dst, rest, total, hsrc, hdst, -, -, -, -, -, -, -, -, rfl⟩ := transferWith_ok h
  have hne : ∀ {k'} {t : TokenAccount K}, σ.view Account.tokenAccount? k' = some t → k ≠ k' := by
    rintro k' t ht rfl
    rw [view_none hk] at ht
    cases ht
  split
  · exact hk
  · rw [OrdMap.get_set, if_neg (hne hdst), OrdMap.get_set, if_neg (hne hsrc)]
    exact hk

/-- A new associated account stands at its own address. -/
theorem initAssociated_none {program : TokenProgram} {mint wallet vault : K} {p : Program} {seeds : List (Seed K)} {bump : UInt8}
    (h : initAssociated c program mint wallet vault σ = .ok τ) (hfound : findProgramAddress c p seeds = some (k, bump))
    (hp : p ≠ .associatedToken) (hk : σ.get k = none) : τ.get k = none := by
  obtain ⟨haddress, ⟨hnone, -, rfl⟩ | ⟨rfl, -⟩⟩ := initAssociated_ok h
  · have hne : k ≠ vault := by
      rintro rfl
      obtain ⟨bump', hfound'⟩ := associatedAddress_found haddress
      exact hp (findProgramAddress_inj hfound hfound').1
    rw [OrdMap.get_set, if_neg hne]
    exact hk
  · exact hk

/-- Writing a token budget is no matter of the token programs. -/
theorem tokenStep_tokenBudget {b zero b' : TokenBudget K} (howned : Owned splPrograms σ τ)
    (hopen : Opened σ Account.tokenBudget? k zero b) (hnone : σ.get k = none → τ.get k = none) :
    TokenStep c signers τ (OrdMap.set τ k (.tokenBudget b')) := by
  have hthere : Opened τ Account.tokenBudget? k zero b := by
    rcases hopen with ⟨hk, hb⟩ | hview
    · exact .inl ⟨hnone hk, hb⟩
    · refine .inr ((howned.view stores_tokenBudget fun _ => ?_).trans hview)
      simp [Account.program, splPrograms]
  refine tokenStep_of_same (fun _ => ?_) fun _ => ?_
  · exact view_set_other rfl (hthere.view_other stores_tokenBudget fun _ => rfl)
  · exact view_set_other rfl (hthere.view_other stores_tokenBudget fun _ => rfl)

theorem createTokenBudget_tokenStep {i : CreateTokenBudget K} (h : createTokenBudget c tx i σ = .ok τ) :
    TokenStep c tx.signers σ τ := by
  obtain ⟨bump, b, υ, -, hfound, hopen, hinit, -, rfl⟩ := createTokenBudget_ok h
  refine (initAssociated_tokenStep hinit).trans (tokenStep_tokenBudget (initAssociated_owned hinit) hopen fun hk => ?_)
  exact initAssociated_none hinit hfound (by decide) hk

theorem depositToken_tokenStep {i : TokenBudgetAccounts K} (h : depositToken c tx i σ = .ok τ) : TokenStep c tx.signers σ τ := by
  obtain ⟨mint, bump, bump', b, υ, ω, balance, -, -, hfound, hopen, hinit, htransfer, -, rfl⟩ := depositToken_ok h
  refine ((initAssociated_tokenStep hinit).trans (transferChecked_tokenStep htransfer)).trans
    (tokenStep_tokenBudget ((initAssociated_owned hinit).trans (transferChecked_owned htransfer)) hopen fun hk => ?_)
  obtain ⟨m, -, -, htransfer⟩ := transferChecked_ok htransfer
  exact transferWith_none htransfer (initAssociated_none hinit hfound (by decide) hk)

theorem depositTokenWithSession_tokenStep {i : DepositTokenWithSession K} (h : depositTokenWithSession c tx i σ = .ok τ) :
    TokenStep c tx.signers σ τ := by
  obtain ⟨s, n, s₁, mint, bump, b, src, υ, ω, balance, -, -, -, -, hfound, hopen, -, -, hinit, htransfer, -, rfl⟩ :=
    depositTokenWithSession_ok h
  refine ((initAssociated_tokenStep hinit).trans (transfer_tokenStep htransfer)).trans
    (tokenStep_tokenBudget ((initAssociated_owned hinit).trans (transfer_owned htransfer)) hopen fun hk => ?_)
  obtain ⟨src', -, -, htransfer⟩ := transfer_ok htransfer
  exact transferWith_none htransfer (initAssociated_none hinit hfound (by decide) hk)

/-- The budget signs for its vault. -/
theorem spendToken_tokenStep {i : TokenBudgetAccounts K} (h : spendToken c tx i σ = .ok τ) :
    TokenStep c (tx.signers ++ [i.token_budget]) σ τ := by
  obtain ⟨mint, b, t, ω, balance, spent, -, -, hb, -, -, -, -, htransfer, -, -, rfl⟩ := spendToken_ok h
  have hopen : Opened σ Account.tokenBudget? _ b b := .inr hb
  refine (transferChecked_tokenStep htransfer).trans (tokenStep_tokenBudget (transferChecked_owned htransfer) hopen fun hk => ?_)
  obtain ⟨m, -, -, htransfer⟩ := transferChecked_ok htransfer
  exact transferWith_none htransfer hk

theorem stakeForVesal_tokenStep {i : StakeForVesal K} (h : stakeForVesal c tx i σ = .ok τ) : TokenStep c tx.signers σ τ := by
  obtain ⟨bump, υ, ω, hfound, hnew, hinit, htransfer, rfl⟩ := stakeForVesal_ok h
  have htokens : TokenStep c tx.signers σ ω := (initAssociated_tokenStep hinit).trans (transfer_tokenStep htransfer)
  obtain ⟨src, -, -, htransfer⟩ := transfer_ok htransfer
  have hnone : ω.get i.stake = none := transferWith_none htransfer (initAssociated_none hinit hfound (by decide) hnew)
  refine htokens.trans (tokenStep_of_same (fun _ => ?_) fun _ => ?_)
  · exact view_set_other rfl (view_none hnone)
  · exact view_set_other rfl (view_none hnone)

/-- **Every step is a token step**, and only a spend from a token budget has more signers than its transaction. -/
theorem step_tokens (h : step c σ st = some τ) : TokenStep c st.tx.signers σ τ ∨
    ∃ i, st.instruction = .budget (.spendToken i) ∧ TokenStep c (st.tx.signers ++ [i.token_budget]) σ τ := by
  have h := step_ok.1 h
  cases hi : st.instruction with
  | budget i =>
    rw [hi] at h
    cases i with
    | createBudget i => exact .inl ((createBudget_owned h).tokenStep (by simp))
    | deposit i => exact .inl ((deposit_owned h).tokenStep (by simp))
    | spend i => exact .inl ((spend_owned h).tokenStep (by simp))
    | spendWithSession i => exact .inl ((spendWithSession_owned h).tokenStep (by simp))
    | createTokenBudget i => exact .inl (createTokenBudget_tokenStep h)
    | depositToken i => exact .inl (depositToken_tokenStep h)
    | depositTokenWithSession i => exact .inl (depositTokenWithSession_tokenStep h)
    | spendToken i => exact .inr ⟨i, rfl, spendToken_tokenStep h⟩
  | token i =>
    rw [hi] at h
    cases i with
    | mintToTreasury i => exact .inl (mintTo_tokenStep (mintToTreasury_ok h))
    | transfer i => exact .inl (transfer_tokenStep (transferTokens_ok h))
    | stakeForVesal i => exact .inl (stakeForVesal_tokenStep h)
    | lockVesal i => exact .inl ((lockVesal_owned h).tokenStep (by simp))
    | createProposal i => exact .inl ((createProposal_owned h).tokenStep (by simp))
    | vote i => exact .inl ((vote_owned h).tokenStep (by simp))
  | spl i =>
    rw [hi] at h
    exact .inl (spl_tokenStep h)
  | capability i =>
    rw [hi] at h
    exact .inl ((capability_owned h).tokenStep (by simp))
  | memory i =>
    rw [hi] at h
    exact .inl ((memory_owned h).tokenStep (by simp))
  | royalty i =>
    rw [hi] at h
    exact .inl ((royalty_owned h).tokenStep (by simp))

theorem run_tokensFiled {steps : List (Step c)} (h : run c genesis steps = some σ) : TokensFiled c σ := by
  refine Run.run_invariant (fun _ _ _ hs h => ?_) ?_ h
  · rcases step_tokens h with htokens | ⟨i, -, htokens⟩
    · exact htokens.filed hs
    · exact htokens.filed hs
  · intro k t ht
    rw [view_genesis] at ht
    cases ht

end EnigmaMemory.Cortex
