import EnigmaMemory.Proof.Sessions

/-!
# Budgets over runs

A budget is created, deposited into and spent from, by its owner, by a session or through a royalty.

* `budget_conserved_iff`: over a run a budget accounts for its first amount and all deposits exactly
  when no creation replaces a budget that is there by another balance.
-/

namespace EnigmaMemory.Cortex

variable {K : Type} {c : Runtime K} {tx : Tx c} {st : Step c} {k o : K} {b b' : Budget K}

section Owner

variable {bump bump' : UInt8} (hfound : findProgramAddress c .budgetEscrow (budgetSeeds o) = some (k, bump))

include hfound

theorem budgetSeeds_owner {owner : K} (h : findProgramAddress c .budgetEscrow (budgetSeeds owner) = some (k, bump')) : owner = o := by
  have hseeds := (findProgramAddress_inj h hfound).2
  simpa [budgetSeeds] using hseeds

theorem budgetSeeds_key {k' : K} (h : findProgramAddress c .budgetEscrow (budgetSeeds o) = some (k', bump')) : k' = k :=
  congrArg Prod.fst (Option.some.inj (h.symm.trans hfound))

end Owner

variable [DecidableEq K] {σ τ υ : Ledger K}

/-! ## Steps -/

/-- The amount that an instruction creates a budget of `o` with. -/
def Instruction.created? (o : K) : Instruction K → Option UInt64
  | .budget (.createBudget i) => if i.owner = o then some i.amount else none
  | _ => none

/-- The amount that an instruction deposits into a budget of `o`. -/
def Instruction.deposited? (o : K) : Instruction K → Option UInt64
  | .budget (.deposit i) => if i.owner = o then some i.amount else none
  | _ => none

/-- An instruction that neither creates a budget nor deposits into one. -/
def Instruction.Unfunded (i : Instruction K) : Prop := ∀ o, i.created? o = none ∧ i.deposited? o = none

def SameBudgets (σ τ : Ledger K) : Prop := ∀ k, τ.view Account.budget? k = σ.view Account.budget? k

/-- One budget is spent from, and the others are as they were. -/
def SpentFrom (c : Runtime K) (σ τ : Ledger K) : Prop :=
  ∃ k owner b b' amount, mutBudget c owner k σ = .ok b ∧ spendBudget b owner amount = .ok b' ∧
    ∀ k', τ.view Account.budget? k' = if k' = k then some b' else σ.view Account.budget? k'

theorem spend_spentFrom {i : MutBudget K} (h : spend c tx i σ = .ok τ) : SpentFrom c σ τ := by
  obtain ⟨b, b', -, hb, hb', rfl⟩ := spend_ok.1 h
  exact ⟨i.budget, i.owner, b, b', i.amount, hb, hb', fun _ => view_set⟩

theorem spendWithSession_spentFrom {i : SpendWithSession K} (h : spendWithSession c tx i σ = .ok τ) : SpentFrom c σ τ := by
  obtain ⟨s, n, s₁, b, b', -, hb, -, -, -, hb', rfl⟩ := spendWithSession_ok h
  exact ⟨i.budget, i.accounts.owner, b, b', i.amount, hb, hb', fun _ => view_set⟩

/-- A receipt is written where no budget stands. -/
theorem SpentFrom.receipt {zero r r' : Receipt K} (h : SpentFrom c σ τ) (hopen : Opened σ Account.receipt? k zero r) :
    SpentFrom c σ (OrdMap.set τ k (.receipt r')) := by
  obtain ⟨kb, owner, b, b', amount, hb, hb', hview⟩ := h
  have hnone : σ.view Account.budget? k = none := hopen.view_other stores_receipt fun _ => rfl
  have hne : k ≠ kb := by
    rintro rfl
    rw [(mutBudget_ok.1 hb).1] at hnone
    cases hnone
  refine ⟨kb, owner, b, b', amount, hb, hb', fun k' => ?_⟩
  rw [view_set_other rfl, hview]
  rw [hview, if_neg hne, hnone]

/-- A token budget is written after steps of the token programs. -/
theorem sameBudgets_tokenBudget {zero t t' : TokenBudget K} (hopen : Opened σ Account.tokenBudget? k zero t)
    (h : Owned splPrograms σ τ) : SameBudgets σ (OrdMap.set τ k (.tokenBudget t')) := by
  have hkeep : ∀ k, τ.view Account.budget? k = σ.view Account.budget? k :=
    fun _ => h.view stores_budget fun _ => by simp [Account.program, splPrograms]
  intro k'
  rw [view_set_other rfl, hkeep]
  rw [hkeep]
  exact hopen.view_other stores_tokenBudget fun _ => rfl

/-- **What a step does to the budgets.** -/
theorem step_budgets (h : step c σ st = some τ) :
    (st.instruction.Unfunded ∧ (SameBudgets σ τ ∨ SpentFrom c σ τ)) ∨
      (∃ i, st.instruction = .budget (.createBudget i) ∧ createBudget c st.tx i σ = .ok τ) ∨
      ∃ i, st.instruction = .budget (.deposit i) ∧ deposit c st.tx i σ = .ok τ := by
  have hother : ∀ {ps : List Program}, Owned ps σ τ → Program.budgetEscrow ∉ ps → SameBudgets σ τ :=
    fun h hp _ => h.view stores_budget fun _ => hp
  have h := step_ok.1 h
  cases hi : st.instruction with
  | budget i =>
    rw [hi] at h
    cases i with
    | createBudget i => exact .inr (.inl ⟨i, rfl, h⟩)
    | deposit i => exact .inr (.inr ⟨i, rfl, h⟩)
    | spend i => exact .inl ⟨fun _ => ⟨rfl, rfl⟩, .inr (spend_spentFrom h)⟩
    | spendWithSession i => exact .inl ⟨fun _ => ⟨rfl, rfl⟩, .inr (spendWithSession_spentFrom h)⟩
    | createTokenBudget i =>
      obtain ⟨bump, b, υ, -, -, hopen, hinit, -, rfl⟩ := createTokenBudget_ok h
      exact .inl ⟨fun _ => ⟨rfl, rfl⟩, .inl (sameBudgets_tokenBudget hopen (initAssociated_owned hinit))⟩
    | depositToken i =>
      obtain ⟨mint, bump, bump', b, υ, ω, balance, -, -, -, hopen, hinit, htransfer, -, rfl⟩ := depositToken_ok h
      have howned := (initAssociated_owned hinit).trans (transferChecked_owned htransfer)
      exact .inl ⟨fun _ => ⟨rfl, rfl⟩, .inl (sameBudgets_tokenBudget hopen howned)⟩
    | spendToken i =>
      obtain ⟨mint, b, t, ω, balance, spent, -, -, hb, -, -, -, -, htransfer, -, -, rfl⟩ := spendToken_ok h
      have hopen : Opened σ Account.tokenBudget? _ b b := .inr hb
      exact .inl ⟨fun _ => ⟨rfl, rfl⟩, .inl (sameBudgets_tokenBudget hopen (transferChecked_owned htransfer))⟩
    | depositTokenWithSession i =>
      obtain ⟨s, n, s₁, mint, bump, b, src, υ, ω, balance, -, -, -, -, -, hopen, -, -, hinit, htransfer, -, rfl⟩ :=
        depositTokenWithSession_ok h
      have howned := (initAssociated_owned hinit).trans (transfer_owned htransfer)
      exact .inl ⟨fun _ => ⟨rfl, rfl⟩, .inl (sameBudgets_tokenBudget hopen howned)⟩
  | royalty i =>
    rw [hi] at h
    cases i with
    | registerReceipt i =>
      obtain ⟨bump, r, -, hopen, rfl⟩ := registerReceipt_ok h
      refine .inl ⟨fun _ => ⟨rfl, rfl⟩, .inl fun _ => view_set_other rfl ?_⟩
      exact hopen.view_other stores_receipt fun _ => rfl
    | routeRoyalty i =>
      obtain ⟨bump, r, υ, -, hopen, hspend, rfl⟩ := routeRoyalty_ok h
      exact .inl ⟨fun _ => ⟨rfl, rfl⟩, .inr ((spend_spentFrom hspend).receipt hopen)⟩
    | routeRoyaltyWithSession i =>
      obtain ⟨bump, r, υ, -, hopen, hspend, rfl⟩ := routeRoyaltyWithSession_ok h
      exact .inl ⟨fun _ => ⟨rfl, rfl⟩, .inr ((spendWithSession_spentFrom hspend).receipt hopen)⟩
  | capability i =>
    rw [hi] at h
    exact .inl ⟨fun _ => ⟨rfl, rfl⟩, .inl (hother (capability_owned h) (by decide))⟩
  | memory i =>
    rw [hi] at h
    exact .inl ⟨fun _ => ⟨rfl, rfl⟩, .inl (hother (memory_owned h) (by decide))⟩
  | token i =>
    rw [hi] at h
    exact .inl ⟨fun _ => ⟨rfl, rfl⟩, .inl (hother (token_owned h) (by decide))⟩
  | spl i =>
    rw [hi] at h
    exact .inl ⟨fun _ => ⟨rfl, rfl⟩, .inl (hother (spl_owned h) (by decide))⟩

/-! ## Where budgets are filed -/

/-- Every budget stands at the address that is found for its owner. -/
def BudgetsFiled (c : Runtime K) (σ : Ledger K) : Prop :=
  ∀ k b, σ.view Account.budget? k = some b → ∃ owner bump, findProgramAddress c .budgetEscrow (budgetSeeds owner) = some (k, bump)

/-- The budget at an address that a check derives from an owner is the one that is found for the owner. -/
theorem BudgetsFiled.found {bump : UInt8} (h : BudgetsFiled c σ) (hb : σ.view Account.budget? k = some b)
    (hseeds : c.createProgramAddress .budgetEscrow (budgetSeeds o) bump = some k) :
    findProgramAddress c .budgetEscrow (budgetSeeds o) = some (k, bump) := by
  obtain ⟨owner, bump', hfound⟩ := h k b hb
  obtain ⟨-, heq, hbump⟩ := findProgramAddress_seeds hfound hseeds
  rw [← heq, ← hbump]
  exact hfound

theorem step_budgetsFiled (hfiled : BudgetsFiled c σ) (h : step c σ st = some τ) : BudgetsFiled c τ := by
  intro k b hb
  rcases step_budgets h with ⟨-, hsame | ⟨kb, owner, b₀, b', amount, hb₀, -, hview⟩⟩ | ⟨i, -, h⟩ | ⟨i, -, h⟩
  · exact hfiled k b (hsame k ▸ hb)
  · rw [hview] at hb
    split at hb
    · rename_i hk
      rw [hk]
      exact hfiled kb b₀ (mutBudget_ok.1 hb₀).1
    · exact hfiled k b hb
  · obtain ⟨bump, b₀, -, hfound, -, rfl⟩ := createBudget_ok.1 h
    rw [view_set] at hb
    split at hb
    · rename_i hk
      rw [hk]
      exact ⟨i.owner, bump, hfound⟩
    · exact hfiled k b hb
  · obtain ⟨b₀, balance, -, hb₀, -, -, rfl⟩ := deposit_ok.1 h
    rw [view_set] at hb
    split at hb
    · rename_i hk
      rw [hk]
      exact hfiled i.budget b₀ (mutBudget_ok.1 hb₀).1
    · exact hfiled k b hb

theorem run_budgetsFiled {steps : List (Step c)} (h : run c genesis steps = some σ) : BudgetsFiled c σ := by
  refine Run.run_invariant (fun _ _ _ hs h => step_budgetsFiled hs h) ?_ h
  intro k b hb
  rw [view_genesis] at hb
  cases hb

/-! ## The budget of one owner -/

/-- What a step does to the budget that is found for an owner. -/
inductive BudgetStep (o : K) (i : Instruction K) : Option (Budget K) → Option (Budget K) → Prop
  | keep {x} (hi : i.created? o = none ∧ i.deposited? o = none) : BudgetStep o i x x
  | create {x b' amount} (hi : i.created? o = some amount) (hd : i.deposited? o = none) (hbalance : b'.balance = amount)
    (hspent : b'.spent = 0) : BudgetStep o i x (some b')
  | deposit {b b' amount} (hc : i.created? o = none) (hi : i.deposited? o = some amount)
    (hbalance : b'.balance.toNat = b.balance.toNat + amount.toNat) (hspent : b'.spent = b.spent) :
    BudgetStep o i (some b) (some b')
  | spend {b b' amount} (hi : i.created? o = none ∧ i.deposited? o = none)
    (hbalance : b'.balance.toNat + amount = b.balance.toNat) (hspent : b'.spent.toNat = b.spent.toNat + amount) :
    BudgetStep o i (some b) (some b')

theorem step_budget {bump : UInt8} (hfound : findProgramAddress c .budgetEscrow (budgetSeeds o) = some (k, bump))
    (hfiled : BudgetsFiled c σ) (h : step c σ st = some τ) :
    BudgetStep o st.instruction (σ.view Account.budget? k) (τ.view Account.budget? k) := by
  rcases step_budgets h with ⟨hi, hsame | ⟨kb, owner, b₀, b', amount, hb₀, hb', hview⟩⟩ | ⟨i, hi, h⟩ | ⟨i, hi, h⟩
  · rw [hsame]
    exact .keep (hi o)
  · rw [hview]
    split
    · rename_i hk
      subst hk
      obtain ⟨-, balance, spent, hbalance, hspent, rfl⟩ := spendBudget_ok hb'
      rw [(mutBudget_ok.1 hb₀).1]
      exact .spend (hi o) hbalance hspent
    · exact .keep (hi o)
  · obtain ⟨bump', b₀, -, hfound', -, rfl⟩ := createBudget_ok.1 h
    rw [hi]
    by_cases howner : i.owner = o
    · rw [howner] at hfound'
      rw [budgetSeeds_key hfound hfound', view_set, if_pos rfl]
      exact .create (if_pos howner) rfl rfl rfl
    · rw [view_set, if_neg]
      · exact .keep ⟨if_neg howner, rfl⟩
      · rintro rfl
        exact howner (budgetSeeds_owner hfound hfound')
  · obtain ⟨b₀, balance, -, hb₀, -, hbalance, rfl⟩ := deposit_ok.1 h
    obtain ⟨hview, hseeds⟩ := mutBudget_ok.1 hb₀
    have hfound' := hfiled.found hview hseeds
    rw [hi]
    by_cases howner : i.owner = o
    · rw [howner] at hfound'
      obtain rfl := budgetSeeds_key hfound hfound'
      rw [hview, view_set, if_pos rfl]
      exact .deposit rfl (if_pos howner) (UInt64.checkedAdd_eq_some.1 hbalance) rfl
    · rw [view_set, if_neg]
      · exact .keep ⟨rfl, if_neg howner⟩
      · rintro rfl
        exact howner (budgetSeeds_owner hfound hfound')

/-! ## Conservation -/

/-- The amounts of all creations. -/
def creations (o : K) (steps : List (Step c)) : List UInt64 := steps.filterMap fun st => st.instruction.created? o

/-- The amounts of all deposits. -/
def deposits (o : K) (steps : List (Step c)) : List UInt64 := steps.filterMap fun st => st.instruction.deposited? o

/-- The amount of the first creation and of all deposits. -/
def funded (o : K) (steps : List (Step c)) : ℕ :=
  (creations o steps).head?.elim 0 UInt64.toNat + ((deposits o steps).map UInt64.toNat).sum

theorem creations_snoc {l : List (Step c)} : creations o (l ++ [st]) = creations o l ++ (st.instruction.created? o).toList := by
  unfold creations
  rw [List.filterMap_append]
  cases h : st.instruction.created? o <;> simp [h]

theorem deposits_snoc {l : List (Step c)} : deposits o (l ++ [st]) = deposits o l ++ (st.instruction.deposited? o).toList := by
  unfold deposits
  rw [List.filterMap_append]
  cases h : st.instruction.deposited? o <;> simp [h]

/-- **A budget accounts for what it was funded with**, and its last step did not take back anything that was spent. -/
structure Conserved (c : Runtime K) (o k : K) (l : List (Step c)) (σ : Ledger K) : Prop where
  total : ∀ b, σ.view Account.budget? k = some b → b.balance.toNat + b.spent.toNat = funded o l
  spent : ∀ l' st υ b b', l = l' ++ [st] → run c genesis l' = some υ → υ.view Account.budget? k = some b →
    σ.view Account.budget? k = some b' → b.spent ≤ b'.spent

/-- A creation where a budget stands writes the balance that is there, and nothing has been spent. -/
def CreatedAlike (o k : K) (σ : Ledger K) (st : Step c) : Prop :=
  ∀ amount b, st.instruction.created? o = some amount → σ.view Account.budget? k = some b → b.spent = 0 ∧ b.balance = amount

theorem conserved_snoc {l : List (Step c)} (hl : run c genesis l = some σ) : Conserved c o k (l ++ [st]) τ ↔
    (∀ b, τ.view Account.budget? k = some b → b.balance.toNat + b.spent.toNat = funded o (l ++ [st])) ∧
      ∀ b b', σ.view Account.budget? k = some b → τ.view Account.budget? k = some b' → b.spent ≤ b'.spent := by
  constructor
  · exact fun h => ⟨h.total, fun b b' => h.spent l st σ b b' rfl hl⟩
  · rintro ⟨htotal, hspent⟩
    refine ⟨htotal, ?_⟩
    intro l' st' υ b b' heq hυ hb hb'
    obtain ⟨rfl, -⟩ := List.append_inj' heq rfl
    cases hl.symm.trans hυ
    exact hspent b b' hb hb'

section Owner

variable {bump : UInt8} (hfound : findProgramAddress c .budgetEscrow (budgetSeeds o) = some (k, bump))

include hfound

/-- Before its first creation a budget is not there, and nothing has been deposited. -/
theorem run_creations {steps : List (Step c)} (h : run c genesis steps = some σ) :
    (σ.view Account.budget? k = none → creations o steps = [] ∧ deposits o steps = []) ∧
      ∀ b, σ.view Account.budget? k = some b → creations o steps ≠ [] := by
  refine Run.run_history (I := fun l υ => (υ.view Account.budget? k = none → creations o l = [] ∧ deposits o l = []) ∧
    ∀ b, υ.view Account.budget? k = some b → creations o l ≠ []) ⟨fun _ => ⟨rfl, rfl⟩, ?_⟩ ?_ steps σ h
  · intro b hb
    rw [view_genesis] at hb
    cases hb
  · intro l υ st τ hυ hl hst
    have hstep := step_budget hfound (run_budgetsFiled hυ) hst
    rw [creations_snoc, deposits_snoc]
    generalize υ.view Account.budget? k = x at hl hstep
    generalize τ.view Account.budget? k = y at hstep
    cases hstep with
    | keep hi => simpa [hi.1, hi.2] using hl
    | create hi hd => simp [hi]
    | deposit hc hi => simp [hl.2]
    | spend hi => simp [hl.2]

/-- One step conserves the budget exactly when it does not create it otherwise. -/
theorem step_conserved_iff {l : List (Step c)} (hl : run c genesis l = some σ) (hconserved : Conserved c o k l σ)
    (h : step c σ st = some τ) : Conserved c o k (l ++ [st]) τ ↔ CreatedAlike o k σ st := by
  have hstep := step_budget hfound (run_budgetsFiled hl) h
  have hhistory := run_creations hfound hl
  have htotal := hconserved.total
  rw [conserved_snoc hl, funded, creations_snoc, deposits_snoc]
  unfold CreatedAlike
  generalize σ.view Account.budget? k = x at hstep htotal hhistory
  generalize τ.view Account.budget? k = y at hstep
  cases hstep with
  | keep hi =>
    refine iff_of_true ⟨?_, ?_⟩ (by simp [hi.1])
    · simpa [hi.1, hi.2, funded] using htotal
    · rintro b b' rfl hb'
      cases hb'
      exact UInt64.le_refl _
  | @create _ b' amount hi hd hbalance hspent =>
    rw [hi, hd]
    cases x with
    | none =>
      -- the first creation: nothing has been deposited before
      obtain ⟨hcreations, hdeposits⟩ := hhistory.1 rfl
      simp [hcreations, hdeposits, hbalance, hspent]
    | some b =>
      -- the first amount stays the one that counts
      have hne := hhistory.2 b rfl
      have hsum : b.balance.toNat + b.spent.toNat = funded o l := htotal b rfl
      have hhead : (creations o l ++ [amount]).head? = (creations o l).head? := List.head?_append_of_ne_nil _ hne
      rw [funded, ← hhead] at hsum
      simp only [Option.toList_some, Option.toList_none, List.append_nil, ← hsum]
      have hzero : (0 : UInt64).toNat = 0 := rfl
      constructor
      · rintro ⟨hafter, hgrows⟩ _ _ ⟨⟩ ⟨⟩
        have hafter := hafter b' rfl
        have hgrows := UInt64.le_iff_toNat_le.1 (hgrows b b' rfl rfl)
        rw [hbalance, hspent, hzero] at hafter
        rw [hspent, hzero] at hgrows
        exact ⟨UInt64.toNat_inj.1 (by omega), UInt64.toNat_inj.1 (by omega)⟩
      · intro halike
        obtain ⟨hnothing, hsame⟩ := halike amount b rfl rfl
        constructor
        · rintro _ ⟨⟩
          rw [hbalance, hspent, hnothing, hsame]
        · rintro _ _ ⟨⟩ ⟨⟩
          rw [hnothing, hspent]
          exact UInt64.le_refl _
  | @deposit b b' amount hc hi hbalance hspent =>
    refine iff_of_true ⟨?_, ?_⟩ (by simp [hc])
    · rintro b₁ ⟨⟩
      have hsum := htotal b rfl
      simp only [funded] at hsum
      simp only [hc, hi, Option.toList_none, Option.toList_some, List.append_nil, List.map_append, List.sum_append,
        List.map_cons, List.map_nil, List.sum_cons, List.sum_nil, hspent]
      omega
    · rintro b₁ b₂ ⟨⟩ ⟨⟩
      rw [hspent]
      exact UInt64.le_refl _
  | @spend b b' amount hi hbalance hspent =>
    refine iff_of_true ⟨?_, ?_⟩ (by simp [hi.1])
    · rintro b₁ ⟨⟩
      have hsum := htotal b rfl
      simp only [funded] at hsum
      simp only [hi.1, hi.2, Option.toList_none, List.append_nil]
      omega
    · rintro b₁ b₂ ⟨⟩ ⟨⟩
      rw [UInt64.le_iff_toNat_le]
      omega

end Owner

/-- **A budget is conserved over a run exactly when no creation replaces it by another balance.** -/
theorem budget_conserved_iff (c : Runtime K) {steps : List (Step c)} {σ : Ledger K} {o k : K} {bump : UInt8}
    (hfound : findProgramAddress c .budgetEscrow (budgetSeeds o) = some (k, bump)) (h : run c genesis steps = some σ) :
    (∀ l τ, l <+: steps → run c genesis l = some τ → Conserved c o k l τ) ↔
      Run.All (step c) (CreatedAlike o k) genesis steps := by
  refine Run.forall_history_iff ⟨?_, ?_⟩ (fun l υ st τ _ hυ hl hst => step_conserved_iff hfound hυ hl hst) h
  · intro b hb
    rw [view_genesis] at hb
    cases hb
  · intro l st υ b b' hl
    simp at hl

namespace ReferenceChain

def ownerDeposits (amount : UInt64) : Step referenceChain := signedBy 1 1000 (.budget (.deposit ⟨owner, budgetKey, amount⟩))

def ownerSpends (amount : UInt64) : Step referenceChain := signedBy 1 1000 (.budget (.spend ⟨owner, budgetKey, amount⟩))

theorem budgetKey_found : findProgramAddress referenceChain .budgetEscrow (budgetSeeds owner) = some (budgetKey, 255) := by
  decide

end ReferenceChain

open ReferenceChain in
theorem budget_conserved_once : ∃ σ, run referenceChain genesis [openBudget, ownerDeposits 20, ownerSpends 30] = some σ ∧
    Conserved referenceChain owner budgetKey [openBudget, ownerDeposits 20, ownerSpends 30] σ := by
  have hrun : (run referenceChain genesis [openBudget, ownerDeposits 20, ownerSpends 30]).isSome = true := by decide
  obtain ⟨σ, hσ⟩ := Option.isSome_iff_exists.1 hrun
  refine ⟨σ, hσ, (budget_conserved_iff referenceChain budgetKey_found hσ).2 ?_ _ σ List.prefix_rfl hσ⟩
  intro l st τ hl hτ amount b hcreated hb
  cases l with
  | nil =>
    cases hτ
    rw [view_genesis] at hb
    cases hb
  | cons x l =>
    -- the later steps create nothing
    have hst : st ∈ [ownerDeposits 20, ownerSpends 30] := (List.cons_prefix_cons.1 hl).2.subset (by simp)
    simp only [List.mem_cons, List.not_mem_nil, or_false] at hst
    rcases hst with rfl | rfl <;> cases hcreated

open ReferenceChain in
/-- A second creation forgets the deposits. -/
theorem recreated_budget_forgets : ¬ ∀ σ, run referenceChain genesis [openBudget, ownerDeposits 20, openBudget] = some σ →
    Conserved referenceChain owner budgetKey [openBudget, ownerDeposits 20, openBudget] σ := by
  intro hall
  have hview : ((run referenceChain genesis [openBudget, ownerDeposits 20, openBudget]).bind fun σ =>
      (σ.view Account.budget? budgetKey).map fun b => b.balance.toNat + b.spent.toNat) = some 100 := by decide
  obtain ⟨σ, hσ, h⟩ := Option.bind_eq_some_iff.1 hview
  obtain ⟨b, hb, hsum⟩ := Option.map_eq_some_iff.1 h
  have htotal := (hall σ hσ).total b hb
  have hfunded : funded owner [openBudget, ownerDeposits 20, openBudget] = 120 := by decide
  rw [hsum, hfunded] at htotal
  exact absurd htotal (by decide)

end EnigmaMemory.Cortex
