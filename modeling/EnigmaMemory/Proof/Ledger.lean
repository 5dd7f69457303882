import EnigmaMemory.Lib.Result
import EnigmaMemory.Spec.Cortex

/-!
# Loading and writing accounts

What the checks of an instruction say, and what its exit writes.

* `findProgramAddress_inj`: an address is found for one program and one list of seeds.
* `Owned`: the accounts that are changed belong to given programs, before and after.
-/

namespace EnigmaMemory.Cortex

variable {K : Type} {c : Runtime K} {tx : Tx c} {k : K} {T : Type} {type : Account K → Option T} {t zero : T} {p : Program}
  {seeds : List (Seed K)} {bump : UInt8}

/-! ## Types of accounts -/

/-- A type of account, with the way its values are stored. -/
def Stores (type : Account K → Option T) (ctor : T → Account K) : Prop := ∀ a t, type a = some t ↔ a = ctor t

theorem stores_capability : Stores (K := K) Account.capability? .capability := fun a _ => by cases a <;> simp [Account.capability?]

theorem stores_session : Stores (K := K) Account.session? .session := fun a _ => by cases a <;> simp [Account.session?]

theorem stores_ownerNonce : Stores (K := K) Account.ownerNonce? .ownerNonce := fun a _ => by cases a <;> simp [Account.ownerNonce?]

theorem stores_budget : Stores (K := K) Account.budget? .budget := fun a _ => by cases a <;> simp [Account.budget?]

theorem stores_tokenBudget : Stores (K := K) Account.tokenBudget? .tokenBudget := fun a _ => by cases a <;> simp [Account.tokenBudget?]

theorem stores_memory : Stores (K := K) Account.memory? .memory := fun a _ => by cases a <;> simp [Account.memory?]

theorem stores_receipt : Stores (K := K) Account.receipt? .receipt := fun a _ => by cases a <;> simp [Account.receipt?]

theorem stores_stake : Stores (K := K) Account.stake? .stake := fun a _ => by cases a <;> simp [Account.stake?]

theorem stores_veSal : Stores (K := K) Account.veSal? .veSal := fun a _ => by cases a <;> simp [Account.veSal?]

theorem stores_proposal : Stores (K := K) Account.proposal? .proposal := fun a _ => by cases a <;> simp [Account.proposal?]

theorem stores_voteReceipt : Stores (K := K) Account.voteReceipt? .voteReceipt := fun a _ => by cases a <;> simp [Account.voteReceipt?]

theorem stores_mint : Stores (K := K) Account.mint? .mint := fun a _ => by cases a <;> simp [Account.mint?]

theorem stores_tokenAccount : Stores (K := K) Account.tokenAccount? .tokenAccount := fun a _ => by cases a <;> simp [Account.tokenAccount?]

/-! ## Derived addresses -/

theorem findProgramAddress_create (h : findProgramAddress c p seeds = some (k, bump)) :
    c.createProgramAddress p seeds bump = some k ∧ bump ≠ 0 := by
  obtain ⟨b, hb, h⟩ := List.exists_of_findSome?_eq_some h
  obtain ⟨a, ha, heq⟩ := Option.map_eq_some_iff.1 h
  cases heq
  refine ⟨ha, ?_⟩
  rintro rfl
  exact absurd hb (by decide)

/-- **An address is found for one program and one list of seeds.** -/
theorem findProgramAddress_inj {p' : Program} {seeds' : List (Seed K)} {bump' : UInt8}
    (h : findProgramAddress c p seeds = some (k, bump)) (h' : findProgramAddress c p' seeds' = some (k, bump')) :
    p = p' ∧ seeds = seeds' :=
  have hinj := c.createProgramAddress_inj (findProgramAddress_create h).1 (findProgramAddress_create h').1
  ⟨hinj.1, hinj.2.1⟩

/-- An address that a check derives with a stored bump and that has been found is derived from the same seeds. -/
theorem findProgramAddress_seeds {seeds' : List (Seed K)} {p' : Program} {bump' : UInt8}
    (h : findProgramAddress c p seeds = some (k, bump)) (h' : c.createProgramAddress p' seeds' bump' = some k) :
    p = p' ∧ seeds = seeds' ∧ bump = bump' :=
  c.createProgramAddress_inj (findProgramAddress_create h).1 h'

theorem findProgramAddress_wallet (h : findProgramAddress c p seeds = some (k, bump)) : c.wallet k = false :=
  c.wallet_derived (findProgramAddress_create h).1

/-! ## Checks -/

@[simp] theorem require_ok {q : Prop} [Decidable q] {e : Error} {u : Unit} : require q e = .ok u ↔ q := by
  unfold require
  split <;> simp_all

@[simp] theorem orFail_ok {α : Type} {o : Option α} {e : Error} {a : α} : orFail o e = .ok a ↔ o = some a := by
  cases o <;> simp [orFail]

section Ledgers

variable [DecidableEq K] {σ τ υ : Ledger K}

@[simp] theorem signer_ok {u : Unit} : signer tx k = .ok u ↔ k ∈ tx.signers := require_ok

@[simp] theorem seedsWithBump_ok {u : Unit} : seedsWithBump c p seeds bump k = .ok u ↔ c.createProgramAddress p seeds bump = some k :=
  require_ok

@[simp] theorem seedsFound_ok : seedsFound c p seeds k = .ok bump ↔ findProgramAddress c p seeds = some (k, bump) := by
  unfold seedsFound
  simp only [Except.bind_eq_ok, orFail_ok, require_ok, Except.pure_eq_ok]
  constructor
  · rintro ⟨⟨k', b'⟩, h, -, rfl, rfl⟩
    exact h
  · exact fun h => ⟨_, h, (), rfl, rfl⟩

@[simp] theorem load_ok : load σ type k = .ok t ↔ σ.view type k = some t := by
  unfold load Ledger.view
  cases σ.get k <;> simp

@[simp] theorem init_ok : init σ k zero = .ok t ↔ σ.get k = none ∧ t = zero := by
  unfold init
  cases σ.get k <;> simp [eq_comm (a := t)]

/-- The account of a type at an address, or a new one where there is none. -/
def Opened (σ : Ledger K) (type : Account K → Option T) (k : K) (zero t : T) : Prop :=
  σ.get k = none ∧ t = zero ∨ σ.view type k = some t

@[simp] theorem initIfNeeded_ok : initIfNeeded σ type k zero = .ok t ↔ Opened σ type k zero t := by
  unfold initIfNeeded Opened Ledger.view
  cases σ.get k <;> simp [eq_comm (a := t)]

/-! ## Views -/

theorem view_set {a : Account K} {k' : K} : Ledger.view (OrdMap.set σ k a) type k' = if k' = k then type a else σ.view type k' := by
  unfold Ledger.view
  rw [OrdMap.get_set]
  split <;> rfl

theorem view_close {k' : K} : (σ.close k).view type k' = if k' = k then none else σ.view type k' := by
  unfold Ledger.view Ledger.close
  rw [OrdMap.get_delete]
  split <;> rfl

/-- Writing an account of another type where there is none of this type. -/
theorem view_set_other {a : Account K} {k' : K} (hnew : type a = none) (hold : σ.view type k = none) :
    Ledger.view (OrdMap.set σ k a) type k' = σ.view type k' := by
  rw [view_set]
  split
  · rename_i hk
    rw [hk, hnew, hold]
  · rfl

theorem view_close_other {k' : K} (hold : σ.view type k = none) : (σ.close k).view type k' = σ.view type k' := by
  rw [view_close]
  split
  · rename_i hk
    rw [hk, hold]
  · rfl

theorem view_none (h : σ.get k = none) : σ.view type k = none := by rw [Ledger.view, h, Option.bind_none]

theorem view_genesis : (genesis : Ledger K).view type k = none := view_none rfl

theorem Stores.view {ctor : T → Account K} (h : Stores type ctor) : σ.view type k = some t ↔ σ.get k = some (ctor t) := by
  unfold Ledger.view
  cases hk : σ.get k with
  | none => simp
  | some a => simp [h a t]

theorem Stores.view_other {ctor : T → Account K} {T' : Type} {other : Account K → Option T'} (h : Stores type ctor)
    (hview : σ.view type k = some t) (hother : ∀ t, other (ctor t) = none) : σ.view other k = none := by
  rw [h.view] at hview
  rw [Ledger.view, hview, Option.bind_some, hother]

theorem Opened.view_other {ctor : T → Account K} {T' : Type} {other : Account K → Option T'} (h : Opened σ type k zero t)
    (hs : Stores type ctor) (hother : ∀ t, other (ctor t) = none) : σ.view other k = none := by
  rcases h with ⟨hnone, -⟩ | hview
  · exact view_none hnone
  · exact hs.view_other hview hother

/-- Writing an account back as it was. -/
theorem view_set_same {T T' : Type} {type : Account K → Option T} {other : Account K → Option T'} {ctor : T → Account K} {t : T}
    {k' : K} (hs : Stores type ctor) (h : σ.view type k = some t) :
    Ledger.view (OrdMap.set σ k (ctor t)) other k' = σ.view other k' := by
  rw [view_set]
  split
  · rename_i hk
    rw [hk, Ledger.view, hs.view.1 h, Option.bind_some]
  · rfl

/-! ## Totals -/

/-- The sum of a quantity over all accounts of a type. -/
def Ledger.total (σ : Ledger K) (type : Account K → Option T) (f : T → ℕ) : ℕ := OrdMap.total (fun a => (type a).elim 0 f) σ

theorem total_set {f : T → ℕ} {a : Account K} :
    Ledger.total (OrdMap.set σ k a) type f + (σ.view type k).elim 0 f = σ.total type f + (type a).elim 0 f := by
  have h := OrdMap.total_set (f := fun a => (type a).elim 0 f) (m := σ) (k := k) (v := a)
  have hold : (σ.get k).elim 0 (fun a => (type a).elim 0 f) = (σ.view type k).elim 0 f := by
    unfold Ledger.view
    cases σ.get k <;> rfl
  rw [hold] at h
  exact h

theorem total_congr {ctor : T → Account K} {f : T → ℕ} (hs : Stores type ctor) (h : ∀ k, τ.view type k = σ.view type k) :
    τ.total type f = σ.total type f := by
  refine OrdMap.total_congr fun k a ha => ?_
  cases ht : type a with
  | none =>
    rw [ht] at ha
    exact absurd rfl ha
  | some t => rw [(hs a t).1 ht, ← hs.view, ← hs.view, h k]

/-- One account of the type is written, and the others are as they were. -/
theorem total_update {ctor : T → Account K} {f : T → ℕ} (hs : Stores type ctor)
    (h : ∀ k', τ.view type k' = if k' = k then some t else σ.view type k') :
    τ.total type f + (σ.view type k).elim 0 f = σ.total type f + f t := by
  have hctor : type (ctor t) = some t := (hs _ t).2 rfl
  have hset : τ.total type f = Ledger.total (OrdMap.set σ k (ctor t)) type f := by
    refine total_congr hs fun k' => ?_
    rw [h, view_set, hctor]
  have hwrite : Ledger.total (OrdMap.set σ k (ctor t)) type f + _ = _ := total_set
  rw [hctor] at hwrite
  rw [hset]
  exact hwrite

/-- No account of the type has a share. -/
theorem total_eq_zero {f : T → ℕ} (h : ∀ k t, σ.view type k = some t → f t = 0) : σ.total type f = 0 := by
  have hempty : σ.total type f = Ledger.total OrdMap.empty type f := by
    refine OrdMap.total_congr fun k a ha => iff_of_false (fun hk => ha ?_) (by simp)
    cases ht : type a with
    | none => rfl
    | some t => exact h k t (by rw [Ledger.view, hk, Option.bind_some, ht])
  exact hempty

/-! ## Accounts of given programs -/

/-- **Only accounts of the programs `ps` are changed**: what was there and what is there belongs to one of them. -/
def Owned (ps : List Program) (σ τ : Ledger K) : Prop :=
  ∀ k, τ.get k = σ.get k ∨ (∀ a, σ.get k = some a → a.program ∈ ps) ∧ ∀ a, τ.get k = some a → a.program ∈ ps

variable {ps qs : List Program}

theorem Owned.refl (ps : List Program) (σ : Ledger K) : Owned ps σ σ := fun _ => .inl rfl

theorem Owned.trans (h : Owned ps σ τ) (h' : Owned ps τ υ) : Owned ps σ υ := by
  intro k
  rcases h k with heq | ⟨hbefore, hafter⟩
  · rw [← heq]
    exact h' k
  · rcases h' k with heq | ⟨-, hafter'⟩
    · rw [heq]
      exact .inr ⟨hbefore, hafter⟩
    · exact .inr ⟨hbefore, hafter'⟩

theorem Owned.mono (h : Owned ps σ τ) (hps : ps ⊆ qs) : Owned qs σ τ := by
  intro k
  rcases h k with heq | ⟨hbefore, hafter⟩
  · exact .inl heq
  · exact .inr ⟨fun a ha => hps (hbefore a ha), fun a ha => hps (hafter a ha)⟩

theorem owned_set {a : Account K} (hbefore : ∀ a', σ.get k = some a' → a'.program ∈ ps) (ha : a.program ∈ ps) :
    Owned ps σ (OrdMap.set σ k a) := by
  intro k'
  rw [OrdMap.get_set]
  by_cases hk : k' = k
  · subst hk
    refine .inr ⟨hbefore, ?_⟩
    rw [if_pos rfl]
    rintro a' ⟨⟩
    exact ha
  · exact .inl (if_neg hk)

/-- A further account is written, where it had been one of the programs' accounts or none. -/
theorem Owned.set {a : Account K} (h : Owned ps σ τ) (hbefore : ∀ a', σ.get k = some a' → a'.program ∈ ps)
    (ha : a.program ∈ ps) : Owned ps σ (OrdMap.set τ k a) := by
  refine h.trans (owned_set ?_ ha)
  intro a' ha'
  rcases h k with heq | ⟨-, hafter⟩
  · exact hbefore a' (heq ▸ ha')
  · exact hafter a' ha'

theorem owned_close (hbefore : ∀ a', σ.get k = some a' → a'.program ∈ ps) : Owned ps σ (σ.close k) := by
  intro k'
  rw [Ledger.close, OrdMap.get_delete]
  by_cases hk : k' = k
  · subst hk
    refine .inr ⟨hbefore, ?_⟩
    rw [if_pos rfl]
    exact fun a ha => nomatch ha
  · exact .inl (if_neg hk)

/-- The account at an address that is written has the type that is written. -/
theorem Opened.program {ctor : T → Account K} (h : Opened σ type k zero t) (hs : Stores type ctor)
    (hp : ∀ t, (ctor t).program ∈ ps) {a : Account K} (ha : σ.get k = some a) : a.program ∈ ps := by
  rcases h with ⟨hnone, -⟩ | hview
  · rw [hnone] at ha
    cases ha
  · rw [hs.view, ha] at hview
    cases hview
    exact hp t

/-- Other programs' accounts are as they were. -/
theorem Owned.get {a : Account K} (h : Owned ps σ τ) (ha : a.program ∉ ps) : τ.get k = some a ↔ σ.get k = some a := by
  rcases h k with heq | ⟨hbefore, hafter⟩
  · rw [heq]
  · exact ⟨fun hk => absurd (hafter a hk) ha, fun hk => absurd (hbefore a hk) ha⟩

theorem Owned.view {ctor : T → Account K} (h : Owned ps σ τ) (hs : Stores type ctor) (hp : ∀ t, (ctor t).program ∉ ps) :
    τ.view type k = σ.view type k := by
  refine Option.ext fun t => ?_
  rw [hs.view, hs.view, h.get (hp t)]

end Ledgers

end EnigmaMemory.Cortex
