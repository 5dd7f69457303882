import EnigmaMemory.Proof.Budgets

/-!
# Royalties over runs

A royalty is spent from the payer's budget and written to the receipt of the payee and the content.

* `royalties_accounted_iff`: the receipts of a payer account for all that was spent exactly when each
  royalty meets no receipt at its address, or one of amount zero.
-/

namespace EnigmaMemory.Cortex

variable {K : Type} [DecidableEq K] {c : Runtime K} {tx : Tx c} {σ τ υ : Ledger K} {st : Step c} {k kr p : K}
  {amount : UInt64} {b : Budget K}

/-- The receipt and the amount of a royalty of `p`. -/
def Instruction.routed? (p : K) : Instruction K → Option (K × UInt64)
  | .royalty (.routeRoyalty i) => if i.payer = p then some (i.receipt, i.amount) else none
  | .royalty (.routeRoyaltyWithSession i) => if i.accounts.owner = p then some (i.receipt, i.amount) else none
  | _ => none

/-- The sum over all receipts of `p`. -/
def receiptTotal (p : K) (σ : Ledger K) : ℕ :=
  σ.total Account.receipt? fun r => if r.payer = p then r.amount.toNat else 0

/-! ## Where receipts are filed -/

/-- Every receipt stands at an address that is found for its payer. -/
def ReceiptsFiled (c : Runtime K) (σ : Ledger K) : Prop :=
  ∀ k r, σ.view Account.receipt? k = some r →
    ∃ payee hash bump, findProgramAddress c .royaltyRouter (receiptSeeds r.payer payee hash) = some (k, bump)

theorem ReceiptsFiled.write {r : Receipt K} {payee : K} {hash : Hash} {bump : UInt8} (h : ReceiptsFiled c σ)
    (hfound : findProgramAddress c .royaltyRouter (receiptSeeds r.payer payee hash) = some (k, bump)) :
    ReceiptsFiled c (OrdMap.set σ k (.receipt r)) := by
  intro k' r' hr'
  rw [view_set] at hr'
  split at hr'
  · rename_i hk
    cases hr'
    subst hk
    exact ⟨payee, hash, bump, hfound⟩
  · exact h k' r' hr'

/-- Other programs do not write receipts. -/
theorem ReceiptsFiled.owned {ps : List Program} (h : ReceiptsFiled c σ) (howned : Owned ps σ τ)
    (hps : Program.royaltyRouter ∉ ps) : ReceiptsFiled c τ := by
  intro k r hr
  rw [howned.view stores_receipt fun _ => hps] at hr
  exact h k r hr

theorem step_receiptsFiled (hfiled : ReceiptsFiled c σ) (h : step c σ st = some τ) : ReceiptsFiled c τ := by
  have h := step_ok.1 h
  cases hi : st.instruction with
  | royalty i =>
    rw [hi] at h
    cases i with
    | registerReceipt i =>
      obtain ⟨bump, r, hfound, -, rfl⟩ := registerReceipt_ok h
      exact hfiled.write hfound
    | routeRoyalty i =>
      obtain ⟨bump, r, υ, hfound, -, hspend, rfl⟩ := routeRoyalty_ok h
      exact (hfiled.owned (spend_owned hspend) (by decide)).write hfound
    | routeRoyaltyWithSession i =>
      obtain ⟨bump, r, υ, hfound, -, hspend, rfl⟩ := routeRoyaltyWithSession_ok h
      exact (hfiled.owned (spendWithSession_owned hspend) (by decide)).write hfound
  | capability i =>
    rw [hi] at h
    exact hfiled.owned (capability_owned h) (by decide)
  | budget i =>
    rw [hi] at h
    exact hfiled.owned (budget_owned h) (by decide)
  | memory i =>
    rw [hi] at h
    exact hfiled.owned (memory_owned h) (by decide)
  | token i =>
    rw [hi] at h
    exact hfiled.owned (token_owned h) (by decide)
  | spl i =>
    rw [hi] at h
    exact hfiled.owned (spl_owned h) (by decide)

theorem run_receiptsFiled {steps : List (Step c)} (h : run c genesis steps = some σ) : ReceiptsFiled c σ := by
  refine Run.run_invariant (fun _ _ _ hs h => step_receiptsFiled hs h) ?_ h
  intro k r hr
  rw [view_genesis] at hr
  cases hr

/-! ## A royalty -/

/-- **What a royalty does**: it spends from the payer's budget and writes its amount over the receipt. -/
theorem step_routed (h : step c σ st = some τ) (hi : st.instruction.routed? p = some (kr, amount)) :
    ∃ kb b b' payee hash bump zero r r', mutBudget c p kb σ = .ok b ∧ spendBudget b p amount = .ok b' ∧
      findProgramAddress c .royaltyRouter (receiptSeeds p payee hash) = some (kr, bump) ∧
      Opened σ Account.receipt? kr zero r ∧ r'.payer = p ∧ r'.amount = amount ∧
      τ = OrdMap.set (OrdMap.set σ kb (.budget b')) kr (.receipt r') := by
  have h := step_ok.1 h
  cases hst : st.instruction with
  | royalty i =>
    rw [hst] at h hi
    cases i with
    | registerReceipt i => cases hi
    | routeRoyalty i =>
      simp only [Instruction.routed?, Option.ite_none_right_eq_some, Option.some.injEq, Prod.mk.injEq] at hi
      obtain ⟨rfl, rfl, rfl⟩ := hi
      obtain ⟨bump, r, υ, hfound, hopen, hspend, rfl⟩ := routeRoyalty_ok h
      obtain ⟨b, b', -, hb, hb', rfl⟩ := spend_ok.1 hspend
      exact ⟨i.budget, b, b', i.payee, i.content_hash, bump, _, r, _, hb, hb', hfound, hopen, rfl, rfl, rfl⟩
    | routeRoyaltyWithSession i =>
      simp only [Instruction.routed?, Option.ite_none_right_eq_some, Option.some.injEq, Prod.mk.injEq] at hi
      obtain ⟨rfl, rfl, rfl⟩ := hi
      obtain ⟨bump, r, υ, hfound, hopen, hspend, rfl⟩ := routeRoyaltyWithSession_ok h
      obtain ⟨s, n, s₁, b, b', -, hb, -, -, -, hb', rfl⟩ := spendWithSession_ok hspend
      exact ⟨i.budget, b, b', i.payee, i.content_hash, bump, _, r, _, hb, hb', hfound, hopen, rfl, rfl, rfl⟩
  | _ =>
    rw [hst] at hi
    cases hi

/-- The receipt at the address of a royalty is one of the payer. -/
theorem ReceiptsFiled.payer {r : Receipt K} {payee : K} {hash : Hash} {bump : UInt8} (h : ReceiptsFiled c σ)
    (hr : σ.view Account.receipt? kr = some r)
    (hfound : findProgramAddress c .royaltyRouter (receiptSeeds p payee hash) = some (kr, bump)) : r.payer = p := by
  obtain ⟨payee', hash', bump', hfound'⟩ := h kr r hr
  have hseeds := (findProgramAddress_inj hfound' hfound).2
  simp only [receiptSeeds, List.cons.injEq, Seed.key.injEq] at hseeds
  exact hseeds.2.1

/-- The receipts of the payer after a royalty: its amount is added, and the amount that the receipt held is lost. -/
theorem routed_total (hfiled : ReceiptsFiled c σ) (h : step c σ st = some τ)
    (hi : st.instruction.routed? p = some (kr, amount)) :
    receiptTotal p τ + ((σ.view Account.receipt? kr).elim 0 fun r => r.amount.toNat) = receiptTotal p σ + amount.toNat := by
  obtain ⟨kb, b, b', payee, hash, bump, zero, r, r', hb, -, hfound, hopen, hpayer, hamount, rfl⟩ := step_routed h hi
  obtain ⟨hview, -⟩ := mutBudget_ok.1 hb
  have hbudget : Ledger.view (OrdMap.set σ kb (.budget b')) Account.receipt? kr = σ.view Account.receipt? kr :=
    view_set_other rfl (stores_budget.view_other hview fun _ => rfl)
  have hsame : receiptTotal p (OrdMap.set σ kb (.budget b')) = receiptTotal p σ :=
    total_congr stores_receipt fun _ => view_set_other rfl (stores_budget.view_other hview fun _ => rfl)
  have hwrite : receiptTotal p (OrdMap.set (OrdMap.set σ kb (.budget b')) kr (.receipt r')) + _ = _ := total_set
  have hold : ((σ.view Account.receipt? kr).elim 0 fun r => if r.payer = p then r.amount.toNat else 0) =
      (σ.view Account.receipt? kr).elim 0 fun r => r.amount.toNat := by
    cases hr : σ.view Account.receipt? kr with
    | none => rfl
    | some r => exact if_pos (hfiled.payer hr hfound)
  have hnew : ((Account.receipt? (.receipt r')).elim 0 fun r => if r.payer = p then r.amount.toNat else 0) = amount.toNat := by
    rw [← hamount]
    exact if_pos hpayer
  rw [hbudget, hold, hnew] at hwrite
  rw [hwrite, ← hsame]
  rfl

/-- The payer's budget after a royalty. -/
theorem routed_budget {bump : UInt8} (hfound : findProgramAddress c .budgetEscrow (budgetSeeds p) = some (k, bump))
    (hfiled : BudgetsFiled c σ) (h : step c σ st = some τ) (hi : st.instruction.routed? p = some (kr, amount)) :
    ∃ b b', σ.view Account.budget? k = some b ∧ τ.view Account.budget? k = some b' ∧
      b'.spent.toNat = b.spent.toNat + amount.toNat := by
  obtain ⟨kb, b, b', payee, hash, bump', zero, r, r', hb, hb', -, hopen, -, -, rfl⟩ := step_routed h hi
  obtain ⟨hview, hseeds⟩ := mutBudget_ok.1 hb
  obtain rfl := budgetSeeds_key hfound (hfiled.found hview hseeds)
  obtain ⟨-, balance, spent, -, hspent, rfl⟩ := spendBudget_ok hb'
  have hnone : σ.view Account.budget? kr = none := hopen.view_other stores_receipt fun _ => rfl
  have hne : kr ≠ kb := by
    rintro rfl
    rw [hview] at hnone
    cases hnone
  refine ⟨b, { b with balance := balance, spent := spent }, hview, ?_, hspent⟩
  rw [view_set_other rfl]
  · exact view_set_self
  · rw [view_set, if_neg hne, hnone]

/-! ## Runs of royalties -/

/-- The receipts of `p` sum up to what was spent from the budget. -/
def Accounted (p k : K) (σ : Ledger K) : Prop :=
  ∃ b, σ.view Account.budget? k = some b ∧ receiptTotal p σ = b.spent.toNat

/-- A royalty that meets no receipt at its address, or one of amount zero. -/
def MeetsNothing (p : K) (σ : Ledger K) (st : Step c) : Prop :=
  ∀ kr amount r, st.instruction.routed? p = some (kr, amount) → σ.view Account.receipt? kr = some r → r.amount = 0

theorem step_accounted_iff {bump : UInt8} (hfound : findProgramAddress c .budgetEscrow (budgetSeeds p) = some (k, bump))
    (hbudgets : BudgetsFiled c σ) (hreceipts : ReceiptsFiled c σ) (haccounted : Accounted p k σ) (h : step c σ st = some τ)
    (hi : st.instruction.routed? p = some (kr, amount)) : Accounted p k τ ↔ MeetsNothing p σ st := by
  obtain ⟨b, b', hb, hb', hspent⟩ := routed_budget hfound hbudgets h hi
  have htotal := routed_total hreceipts h hi
  obtain ⟨b₀, hb₀, hbefore⟩ := haccounted
  cases hb.symm.trans hb₀
  have hmeets : MeetsNothing p σ st ↔ (σ.view Account.receipt? kr).elim 0 (fun r => r.amount.toNat) = 0 := by
    have hone : MeetsNothing p σ st ↔ ∀ r, σ.view Account.receipt? kr = some r → r.amount = 0 := by
      constructor
      · exact fun hall r hr => hall kr amount r hi hr
      · intro hall kr' amount' r hi' hr
        cases hi.symm.trans hi'
        exact hall r hr
    rw [hone]
    cases σ.view Account.receipt? kr with
    | none => simp
    | some r => simp [← UInt64.toNat_inj]
  rw [hmeets]
  constructor
  · rintro ⟨b₁, hb₁, hafter⟩
    cases hb'.symm.trans hb₁
    omega
  · intro hnothing
    exact ⟨b', hb', by omega⟩

/-- **Receipts account for all routed money exactly when no royalty meets a receipt that holds an amount.** -/
theorem royalties_accounted_iff (c : Runtime K) {setup steps : List (Step c)} {σ τ : Ledger K} {p k : K} {bump : UInt8}
    {b : Budget K} (hfound : findProgramAddress c .budgetEscrow (budgetSeeds p) = some (k, bump))
    (hσ : run c genesis setup = some σ) (hb : σ.view Account.budget? k = some b) (hfresh : b.spent = 0)
    (hnone : ∀ kr r, σ.view Account.receipt? kr = some r → r.payer ≠ p)
    (hroutes : ∀ st ∈ steps, (st.instruction.routed? p).isSome = true) (h : run c σ steps = some τ) :
    (∀ l υ, l <+: steps → run c σ l = some υ → Accounted p k υ) ↔ Run.All (step c) (MeetsNothing p) σ steps := by
  have hstart : Accounted p k σ := by
    refine ⟨b, hb, ?_⟩
    rw [receiptTotal, total_eq_zero fun kr r hr => if_neg (hnone kr r hr), hfresh]
    rfl
  refine Run.forall_history_iff (I := fun _ υ => Accounted p k υ) hstart ?_ h
  intro l υ st ω hl hυ hI hst
  obtain ⟨⟨kr, amount⟩, hi⟩ := Option.isSome_iff_exists.1 (hroutes st (hl.subset (by simp)))
  have hreach : run c genesis (setup ++ l) = some υ := by
    rw [run, Run.run_append]
    exact Option.bind_eq_some_iff.2 ⟨σ, hσ, hυ⟩
  exact step_accounted_iff hfound (run_budgetsFiled hreach) (run_receiptsFiled hreach) hI hst hi

namespace ReferenceChain

/-- The receipt for a payee. -/
def receiptFor (payee : ℕ) : Address := address .royaltyRouter (receiptSeeds owner (wallet payee) zeroHash)

/-- The owner pays a royalty to another wallet. -/
def pays (payee : ℕ) (amount : UInt64) : Step referenceChain :=
  signedBy 1 1000 (.royalty (.routeRoyalty
    { payer := owner
      payee := wallet payee
      receipt := receiptFor payee
      budget := budgetKey
      amount := amount
      content_hash := zeroHash }))

end ReferenceChain

open ReferenceChain in
theorem royalties_accounted_two : ∃ σ τ, run referenceChain genesis [openBudget] = some σ ∧
    run referenceChain σ [pays 3 8, pays 4 5] = some τ ∧ Accounted owner budgetKey τ := by
  have hrun : ((run referenceChain genesis [openBudget]).bind fun σ => (σ.view Account.budget? budgetKey).bind fun b =>
      (step referenceChain σ (pays 3 8)).bind fun υ => (step referenceChain υ (pays 4 5)).map fun _ =>
        (b.spent, σ.entries.length, (σ.view Account.receipt? (receiptFor 3)).isSome,
          (υ.view Account.receipt? (receiptFor 4)).isSome)) = some (0, 1, false, false) := by decide
  obtain ⟨σ, hσ, h⟩ := Option.bind_eq_some_iff.1 hrun
  obtain ⟨b, hb, h⟩ := Option.bind_eq_some_iff.1 h
  obtain ⟨υ, hυ, h⟩ := Option.bind_eq_some_iff.1 h
  obtain ⟨τ, hτ, h⟩ := Option.map_eq_some_iff.1 h
  simp only [Prod.mk.injEq, Option.isSome_eq_false_iff, Option.isNone_iff_eq_none] at h
  obtain ⟨hfresh, hlength, hfirst, hsecond⟩ := h
  have hrun : run referenceChain σ [pays 3 8, pays 4 5] = some τ := by
    rw [run, Run.run, hυ, Option.bind_some, Run.run, hτ, Option.bind_some, Run.run]
  -- the budget is the only account
  have hnone : ∀ kr r, σ.view Account.receipt? kr = some r → r.payer ≠ owner := by
    intro kr r hr
    have hreceipt := OrdMap.get_eq_some_iff.1 (stores_receipt.view.1 hr)
    have hbudget := OrdMap.get_eq_some_iff.1 (stores_budget.view.1 hb)
    obtain ⟨e, he⟩ := List.length_eq_one_iff.1 hlength
    rw [he, List.mem_singleton] at hreceipt hbudget
    cases hreceipt.trans hbudget.symm
  have hroutes : ∀ st ∈ [pays 3 8, pays 4 5], (st.instruction.routed? owner).isSome = true := by
    simp [pays, signedBy, Instruction.routed?]
  have hmeets : Run.All (step referenceChain) (MeetsNothing owner) σ [pays 3 8, pays 4 5] := by
    refine (Run.all_cons hυ).2 ⟨?_, (Run.all_cons hτ).2 ⟨?_, .nil _ _⟩⟩
    · intro kr amount r hi hr
      cases hi
      cases hfirst.symm.trans hr
    · intro kr amount r hi hr
      cases hi
      cases hsecond.symm.trans hr
  have hall := royalties_accounted_iff referenceChain budgetKey_found hσ hb hfresh hnone hroutes hrun
  exact ⟨σ, τ, hσ, hrun, hall.2 hmeets _ τ List.prefix_rfl hrun⟩

open ReferenceChain in
/-- Two royalties to one payee for one content leave a receipt for the second only. -/
theorem second_royalty_overwrites : ¬ ∀ σ τ, run referenceChain genesis [openBudget] = some σ →
    run referenceChain σ [pays 3 8, pays 3 5] = some τ → Accounted owner budgetKey τ := by
  intro hall
  have hrun : ((run referenceChain genesis [openBudget]).bind fun σ => (run referenceChain σ [pays 3 8, pays 3 5]).bind fun τ =>
      (τ.view Account.budget? budgetKey).map fun b => (receiptTotal owner τ, b.spent.toNat)) = some (5, 13) := by decide
  obtain ⟨σ, hσ, h⟩ := Option.bind_eq_some_iff.1 hrun
  obtain ⟨τ, hτ, h⟩ := Option.bind_eq_some_iff.1 h
  obtain ⟨b, hb, h⟩ := Option.map_eq_some_iff.1 h
  obtain ⟨hreceipts, hspent⟩ := Prod.mk.inj h
  obtain ⟨b', hb', haccounted⟩ := hall σ τ hσ hτ
  cases hb.symm.trans hb'
  rw [hreceipts, hspent] at haccounted
  exact absurd haccounted (by decide)

end EnigmaMemory.Cortex
