import EnigmaMemory.Proof.Sessions

/-!
# The limits of a session over a run

A session counts its operations in copies that are never written back: its account says zero for
as long as it lives. `usage` counts what a run has really done in the window that
`touch_session` would be in.

* `session_limits`: the limits hold over a run in which every operation of the session is the first
  of its window. An operation that is not the first is checked as if it were.
-/

namespace EnigmaMemory.Cortex

variable {K : Type} {s s₁ : Session K} {amount : UInt64} {now : Int64}

/-! ## Checks on the copy -/

/-- What the checks on a session let pass. -/
def Allows (s : Session K) (now : Int64) (amount : UInt64) : Prop :=
  ∃ s₁, touchSession s now = .ok s₁ ∧ (amount = 0 ∨ checkSpend s₁ amount = .ok ())

/-- A session whose counters say zero lets an operation pass that fits its limits alone. -/
theorem Allows.limits (h : Allows s now amount) (hspent : s.spent_today = 0) (hops : s.ops_today = 0) :
    1 ≤ s.max_ops_per_day.toNat ∧ amount.toNat ≤ s.max_spend_per_day.toNat ∧ amount ≤ s.max_spend_per_tx := by
  obtain ⟨s₁, htouch, hcheck⟩ := h
  have hfresh : s₁.spent_today = 0 ∧ s₁.max_spend_per_tx = s.max_spend_per_tx ∧ s₁.max_spend_per_day = s.max_spend_per_day ∧
      1 ≤ s.max_ops_per_day.toNat := by
    unfold touchSession currentWindow at htouch
    simp only [Except.bind_eq_ok, Except.pure_eq_ok, orFail_ok, require_ok] at htouch
    obtain ⟨s₀, ⟨windowEnd, -, rfl⟩, -, hlt, ops, -, rfl⟩ := htouch
    split at hlt
    · exact ⟨by simp [*], by simp [*], by simp [*], UInt32.lt_iff_toNat_lt.1 hlt⟩
    · rw [hops] at hlt
      exact ⟨by simp [*], by simp [*], by simp [*], UInt32.lt_iff_toNat_lt.1 hlt⟩
  obtain ⟨hzero, htx, hday, hmax⟩ := hfresh
  rcases hcheck with rfl | hcheck
  · exact ⟨hmax, Nat.zero_le _, UInt64.le_iff_toNat_le.2 (Nat.zero_le _)⟩
  · unfold checkSpend at hcheck
    simp only [Except.bind_eq_ok, orFail_ok, require_ok, UInt64.checkedAdd_eq_some] at hcheck
    obtain ⟨-, hle, spent, hadd, hle'⟩ := hcheck
    rw [hzero] at hadd
    rw [hday, UInt64.le_iff_toNat_le, hadd] at hle'
    rw [htx] at hle
    refine ⟨hmax, ?_, hle⟩
    simpa using hle'

/-! ## Windows -/

/-- The operations of a window: when it began, what they have spent, and how many they are. -/
structure Usage where
  start : ℤ
  spent : ℕ
  ops : ℕ

def Usage.record (u : Usage) (now : Int64) (amount : UInt64) : Usage :=
  if u.start + 86400 ≤ now.toInt then ⟨now.toInt, amount.toNat, 1⟩ else ⟨u.start, u.spent + amount.toNat, u.ops + 1⟩

/-- The limits of a session hold in the window. -/
def Within (s : Session K) (u : Usage) : Prop := u.spent ≤ s.max_spend_per_day.toNat ∧ u.ops ≤ s.max_ops_per_day.toNat

/-- An operation at `now` is the first of its window. -/
def FirstUse (u : Usage) (now : Int64) : Prop := u.ops = 0 ∨ u.start + 86400 ≤ now.toInt

/-- A first operation fits the limits if it fits them alone; the window has spent nothing when it has no operation. -/
theorem Usage.record_within {u : Usage} (hfirst : FirstUse u now) (hempty : u.ops = 0 → u.spent = 0)
    (hops : 1 ≤ s.max_ops_per_day.toNat) (hday : amount.toNat ≤ s.max_spend_per_day.toNat) :
    Within s (u.record now amount) ∧ (u.record now amount).ops ≠ 0 := by
  unfold Usage.record
  split
  · exact ⟨⟨hday, hops⟩, Nat.one_ne_zero⟩
  · rename_i hwindow
    have hzero : u.ops = 0 := hfirst.resolve_right hwindow
    refine ⟨⟨?_, ?_⟩, Nat.succ_ne_zero _⟩
    · rw [hempty hzero, Nat.zero_add]
      exact hday
    · rw [hzero]
      exact hops

/-! ## Operations -/

variable [DecidableEq K] {c : Runtime K} {σ τ : Ledger K} {st : Step c} {k : K}

/-- What an operation by the session at `k` spends; `none` if it is no such operation. -/
def Instruction.sessionUse (k : K) : Instruction K → Option UInt64
  | .budget (.spendWithSession i) => if i.accounts.session = k then some i.amount else none
  | .budget (.depositTokenWithSession i) => if i.accounts.session = k then some 0 else none
  | .royalty (.routeRoyaltyWithSession i) => if i.accounts.session = k then some i.amount else none
  | .memory (.createMemoryWithSession i) => if i.accounts.session = k then some 0 else none
  | .memory (.updateMemoryWithSession i) => if i.accounts.session = k then some 0 else none
  | .memory (.deleteMemoryWithSession i) => if i.accounts.session = k then some 0 else none
  | _ => none

def Usage.step (k : K) (u : Usage) (st : Step c) : Usage :=
  match st.instruction.sessionUse k with
  | some amount => u.record st.tx.now amount
  | none => u

/-- The usage of a session after steps that follow its creation. -/
def usage (s : Session K) (k : K) (steps : List (Step c)) : Usage := steps.foldl (Usage.step k) ⟨s.window_start.toInt, 0, 0⟩

/-- The session is changed by its owner. -/
def ChangesSession (k : K) : Instruction K → Prop
  | .capability (.extendSession i) => i.session = k
  | .capability (.revokeSession i) => i.session = k
  | _ => False

theorem touchedSession_allows {tx : Tx c} {a : SessionAccounts K} {scope : UInt32} (h : touchedSession c tx a scope σ = .ok s₁) :
    ∃ s, σ.view Account.session? a.session = some s ∧ Allows s tx.now 0 := by
  obtain ⟨s, n, haccounts, -, htouch⟩ := touchedSession_ok h
  exact ⟨s, (sessionAccounts_ok.1 haccounts).2.1, s₁, htouch, .inl rfl⟩

theorem spendWithSession_allows {tx : Tx c} {i : SpendWithSession K} (h : spendWithSession c tx i σ = .ok τ) :
    ∃ s, σ.view Account.session? i.accounts.session = some s ∧ Allows s tx.now i.amount := by
  obtain ⟨s, n, s₁, b, b', haccounts, -, -, htouch, hcheck, -, -⟩ := spendWithSession_ok h
  exact ⟨s, (sessionAccounts_ok.1 haccounts).2.1, s₁, htouch, .inr hcheck⟩

/-- An operation has passed the checks on the stored session. -/
theorem step_allows (h : step c σ st = some τ) (huse : st.instruction.sessionUse k = some amount) :
    ∃ s, σ.view Account.session? k = some s ∧ Allows s st.tx.now amount := by
  have h := step_ok.1 h
  unfold Instruction.sessionUse at huse
  split at huse
  all_goals try cases huse
  all_goals
    rename_i i heq
    rw [heq] at h
    split at huse
    on_goal 2 => cases huse
    rename_i hk
    cases huse
    rw [← hk]
  · exact spendWithSession_allows h
  · obtain ⟨s, n, s₁, mint, bump, b, src, υ, ω, balance, haccounts, htouch, -⟩ := depositTokenWithSession_ok h
    exact ⟨s, (sessionAccounts_ok.1 haccounts).2.1, s₁, htouch, .inl rfl⟩
  · obtain ⟨bump, r, υ, -, -, hspend, -⟩ := routeRoyaltyWithSession_ok h
    exact spendWithSession_allows hspend
  · obtain ⟨s₁, bump, m, htouch, -, -, -⟩ := createMemoryWithSession_ok.1 h
    exact touchedSession_allows htouch
  · obtain ⟨m, s₁, -, htouch, -⟩ := updateMemoryWithSession_ok h
    exact touchedSession_allows htouch
  · obtain ⟨m, s₁, -, htouch, -⟩ := deleteMemoryWithSession_ok h
    exact touchedSession_allows htouch

/-! ## Runs -/

/-- A session that its owner leaves alone keeps its account as it is, whatever it is used for. -/
theorem step_session_kept (h : step c σ st = some τ) (hs : σ.view Account.session? k = some s)
    (hkeep : ¬ ChangesSession k st.instruction) : τ.view Account.session? k = some s := by
  rcases step_sessions h with ⟨hsame, -⟩ | ⟨i, hi, h⟩ | ⟨i, hi, h⟩ | ⟨i, hi, h⟩ | ⟨i, hi, h⟩
  · exact (hsame k).1.trans hs
  · obtain ⟨n, nonceBump, sessionBump, -, -, -, -, hnone, hsessions⟩ := createSession_views h
    have hne : k ≠ i.session := by
      rintro rfl
      rw [hnone] at hs
      cases hs
    rw [hsessions, if_neg hne]
    exact hs
  · obtain ⟨s', hs', rfl⟩ := extendSession_ok.1 h
    rw [hi] at hkeep
    rw [view_set, if_neg (fun hk => hkeep hk.symm)]
    exact hs
  · obtain ⟨s', hs', rfl⟩ := revokeSession_ok.1 h
    rw [hi] at hkeep
    rw [view_close, if_neg (fun hk => hkeep hk.symm)]
    exact hs
  · obtain ⟨n, nonce, -, hn, -, -, rfl⟩ := pauseAllSessions_ok.1 h
    rw [view_set_other rfl (stores_ownerNonce.view_other hn fun _ => rfl)]
    exact hs

theorem run_session_kept {steps : List (Step c)} (hs : σ.view Account.session? k = some s)
    (hkeep : ∀ st ∈ steps, ¬ ChangesSession k st.instruction) (h : run c σ steps = some τ) :
    τ.view Account.session? k = some s := by
  refine Run.run_induction (I := fun υ : Ledger K => υ.view Account.session? k = some s)
    (C := fun _ st => ¬ ChangesSession k st.instruction) (fun _ _ _ hυ hst hstep => step_session_kept hstep hυ hst) steps σ τ hs ?_ h
  intro l st υ hl _
  exact hkeep st (hl.subset (by simp))

theorem usage_snoc (l : List (Step c)) : usage s k (l ++ [st]) = (usage s k l).step k st := by
  rw [usage, List.foldl_append]
  rfl

/-- **The limits of a session hold while every operation is the first of its window**, and the limit on one spend holds
always. -/
theorem session_limits (c : Runtime K) {before steps : List (Step c)} {σ τ : Ledger K} {k : K} {s : Session K}
    (hσ : run c genesis before = some σ) (hs : σ.view Account.session? k = some s) (hτ : run c σ steps = some τ)
    (hkeep : ∀ st ∈ steps, ¬ ChangesSession k st.instruction) :
    (∀ st ∈ steps, ∀ amount, st.instruction.sessionUse k = some amount → amount ≤ s.max_spend_per_tx) ∧
      ((∀ l st amount, l ++ [st] <+: steps → st.instruction.sessionUse k = some amount → FirstUse (usage s k l) st.tx.now) →
        ∀ l, l <+: steps → Within s (usage s k l)) := by
  have hfiled := (run_filed hσ).sessions k s hs
  -- every operation of the run is checked against the session as it was stored
  have hallows : ∀ l st amount, l ++ [st] <+: steps → st.instruction.sessionUse k = some amount → Allows s st.tx.now amount := by
    intro l st amount hl huse
    obtain ⟨rest, rfl⟩ := hl
    rw [run, Run.run_append] at hτ
    obtain ⟨ω, hω, -⟩ := Option.bind_eq_some_iff.1 hτ
    rw [Run.run_append] at hω
    obtain ⟨υ, hυ, hω⟩ := Option.bind_eq_some_iff.1 hω
    obtain ⟨ρ, hρ, -⟩ := Option.bind_eq_some_iff.1 hω
    have hkept : υ.view Account.session? k = some s := run_session_kept hs (fun st' hst' => hkeep st' (by simp [hst'])) hυ
    obtain ⟨s', hs', h⟩ := step_allows hρ huse
    cases hkept.symm.trans hs'
    exact h
  constructor
  · intro st hst amount huse
    obtain ⟨l, rest, rfl⟩ := List.append_of_mem hst
    have hl : l ++ [st] <+: l ++ st :: rest := ⟨rest, by simp⟩
    exact ((hallows l st amount hl huse).limits hfiled.spent_today hfiled.ops_today).2.2
  · intro hfirst l hl
    have hinv : Within s (usage s k l) ∧ ((usage s k l).ops = 0 → (usage s k l).spent = 0) := by
      induction l using List.reverseRecOn with
      | nil => exact ⟨⟨Nat.zero_le _, Nat.zero_le _⟩, fun _ => rfl⟩
      | append_singleton l st ih =>
        obtain ⟨hwithin, hempty⟩ := ih ((List.prefix_append l [st]).trans hl)
        rw [usage_snoc, Usage.step]
        split
        · rename_i amount huse
          obtain ⟨hops, hday, -⟩ := (hallows l st amount hl huse).limits hfiled.spent_today hfiled.ops_today
          obtain ⟨hrecord, hne⟩ := Usage.record_within (hfirst l st amount hl huse) hempty hops hday
          exact ⟨hrecord, fun hzero => absurd hzero hne⟩
        · exact ⟨hwithin, hempty⟩
    exact hinv.1

namespace ReferenceChain

/-- The session spends from the budget. -/
def sessionSpend (amount : UInt64) (now : Int64) : Step referenceChain :=
  signedBy 2 now (.budget (.spendWithSession ⟨bySession, budgetKey, amount⟩))

end ReferenceChain

open ReferenceChain in
theorem session_limits_first : ∃ σ s, run referenceChain genesis [openSession 31 0, openBudget] = some σ ∧
    σ.view Account.session? (sessionAt 0) = some s ∧ (run referenceChain σ [sessionSpend 8 1001, sessionSpend 8 90000]).isSome ∧
    Within s (usage s (sessionAt 0) [sessionSpend 8 1001, sessionSpend 8 90000]) := by
  have hrun : ((run referenceChain genesis [openSession 31 0, openBudget]).bind fun σ =>
      (σ.view Account.session? (sessionAt 0)).bind fun s =>
        (run referenceChain σ [sessionSpend 8 1001, sessionSpend 8 90000]).map fun _ => s.window_start) = some 1000 := by
    decide
  obtain ⟨σ, hσ, h⟩ := Option.bind_eq_some_iff.1 hrun
  obtain ⟨s, hs, h⟩ := Option.bind_eq_some_iff.1 h
  obtain ⟨τ, hτ, hstart⟩ := Option.map_eq_some_iff.1 h
  have hkeep : ∀ st ∈ [sessionSpend 8 1001, sessionSpend 8 90000], ¬ ChangesSession (sessionAt 0) st.instruction := by
    simp [sessionSpend, signedBy, ChangesSession]
  refine ⟨σ, s, hσ, hs, by rw [hτ]; rfl, (session_limits referenceChain hσ hs hτ hkeep).2 ?_ _ List.prefix_rfl⟩
  intro l st amount hl _
  -- the second spend comes a day after the first window began
  match l, hl with
  | [], _ => exact .inl rfl
  | [u], hl =>
    obtain ⟨hu, hl⟩ := List.cons_prefix_cons.1 hl
    obtain ⟨rfl, -⟩ := List.cons_prefix_cons.1 hl
    refine .inr ?_
    have husage : (usage s (sessionAt 0) [sessionSpend 8 1001]).start = 1000 := by
      rw [usage, hstart]
      decide
    rw [hu, husage]
    decide
  | _ :: _ :: _, hl => exact absurd hl.length_le (by simp)

open ReferenceChain in
/-- Two spends of 8 in one second pass a limit of 10 a day. -/
theorem daily_limit_passed : ∃ σ s τ, run referenceChain genesis [openSession 31 0, openBudget] = some σ ∧
    σ.view Account.session? (sessionAt 0) = some s ∧ run referenceChain σ [sessionSpend 8 1001, sessionSpend 8 1001] = some τ ∧
    ¬ Within s (usage s (sessionAt 0) [sessionSpend 8 1001, sessionSpend 8 1001]) := by
  have hrun : ((run referenceChain genesis [openSession 31 0, openBudget]).bind fun σ =>
      (σ.view Account.session? (sessionAt 0)).bind fun s =>
        (run referenceChain σ [sessionSpend 8 1001, sessionSpend 8 1001]).map fun _ => (s.window_start, s.max_spend_per_day))
      = some (1000, 10) := by decide
  obtain ⟨σ, hσ, h⟩ := Option.bind_eq_some_iff.1 hrun
  obtain ⟨s, hs, h⟩ := Option.bind_eq_some_iff.1 h
  obtain ⟨τ, hτ, h⟩ := Option.map_eq_some_iff.1 h
  obtain ⟨hstart, hmax⟩ := Prod.mk.inj h
  refine ⟨σ, s, τ, hσ, hs, hτ, fun hwithin => ?_⟩
  have hspent := hwithin.1
  rw [usage, hstart, hmax] at hspent
  exact absurd hspent (by decide)

end EnigmaMemory.Cortex
