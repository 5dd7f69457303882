import EnigmaMemory.Proof.Owners
import EnigmaMemory.Proof.ReferenceChain

/-!
# Sessions over runs

Where the sessions and the nonces of a run are filed, and what follows for them.

* `sessions_reachable_iff`: all sessions of a run can be reached by their owner and their key exactly
  when each was created while the owner's nonce was zero.
* `pause_irrevocable`: a session that existed before a pause is never active again.
-/

namespace EnigmaMemory.Cortex

variable {K : Type} [DecidableEq K] {c : Runtime K} {tx : Tx c} {σ τ υ ω : Ledger K} {st : Step c} {k : K}

theorem step_ok : step c σ st = some τ ↔ st.instruction.execute c st.tx σ = .ok τ := by
  unfold step
  cases st.instruction.execute c st.tx σ <;> simp [Except.toOption]

/-! ## Steps -/

/-- The sessions and the nonces are the same. -/
def SameSessions (σ τ : Ledger K) : Prop :=
  ∀ k, τ.view Account.session? k = σ.view Account.session? k ∧ τ.view Account.ownerNonce? k = σ.view Account.ownerNonce? k

theorem Owned.sameSessions {ps : List Program} (h : Owned ps σ τ) (hp : Program.capabilityRegistry ∉ ps) : SameSessions σ τ :=
  fun _ => ⟨h.view stores_session fun _ => hp, h.view stores_ownerNonce fun _ => hp⟩

/-- **What a step does to the sessions.** -/
theorem step_sessions (h : step c σ st = some τ) :
    (SameSessions σ τ ∧ ∀ i, st.instruction ≠ .capability (.createSession i)) ∨
      (∃ i, st.instruction = .capability (.createSession i) ∧ createSession c st.tx i σ = .ok τ) ∨
      (∃ i, st.instruction = .capability (.extendSession i) ∧ extendSession c st.tx i σ = .ok τ) ∨
      (∃ i, st.instruction = .capability (.revokeSession i) ∧ revokeSession c st.tx i σ = .ok τ) ∨
      ∃ i, st.instruction = .capability (.pauseAllSessions i) ∧ pauseAllSessions c st.tx i σ = .ok τ := by
  have h := step_ok.1 h
  cases hi : st.instruction with
  | capability i =>
    rw [hi] at h
    cases i with
    | grant i =>
      obtain ⟨bump, y, zero, -, hopen, rfl⟩ := grant_ok h
      refine .inl ⟨fun k => ⟨view_set_other rfl ?_, view_set_other rfl ?_⟩, by simp⟩
      · exact hopen.view_other stores_capability fun _ => rfl
      · exact hopen.view_other stores_capability fun _ => rfl
    | revoke i =>
      obtain ⟨x, hx, rfl⟩ := revoke_ok h
      refine .inl ⟨fun k => ⟨view_close_other ?_, view_close_other ?_⟩, by simp⟩
      · exact stores_capability.view_other hx fun _ => rfl
      · exact stores_capability.view_other hx fun _ => rfl
    | createSession i => exact .inr (.inl ⟨i, rfl, h⟩)
    | extendSession i => exact .inr (.inr (.inl ⟨i, rfl, h⟩))
    | revokeSession i => exact .inr (.inr (.inr (.inl ⟨i, rfl, h⟩)))
    | pauseAllSessions i => exact .inr (.inr (.inr (.inr ⟨i, rfl, h⟩)))
  | budget i =>
    rw [hi] at h
    exact .inl ⟨(budget_owned h).sameSessions (by decide), by simp⟩
  | memory i =>
    rw [hi] at h
    exact .inl ⟨(memory_owned h).sameSessions (by decide), by simp⟩
  | royalty i =>
    rw [hi] at h
    exact .inl ⟨(royalty_owned h).sameSessions (by decide), by simp⟩
  | token i =>
    rw [hi] at h
    exact .inl ⟨(token_owned h).sameSessions (by decide), by simp⟩
  | spl i =>
    rw [hi] at h
    exact .inl ⟨(spl_owned h).sameSessions (by decide), by simp⟩

/-! ## Where sessions are filed -/

/-- A session stands at the address that the owner's nonce of its creation gives, and its counters are as they were then;
the nonce has not gone back since. -/
structure SessionFiled (c : Runtime K) (σ : Ledger K) (k : K) (s : Session K) : Prop where
  found : findProgramAddress c .capabilityRegistry (sessionSeeds s.owner s.session_key s.owner_nonce) = some (k, s.bump)
  nonce : s.nonce = 0
  spent_today : s.spent_today = 0
  ops_today : s.ops_today = 0
  owner_nonce : ∃ kn n, findProgramAddress c .capabilityRegistry (ownerNonceSeeds s.owner) = some (kn, n.bump) ∧
    σ.view Account.ownerNonce? kn = some n ∧ s.owner_nonce.toNat ≤ n.nonce.toNat

/-- Every session and every nonce is filed. -/
structure Filed (c : Runtime K) (σ : Ledger K) : Prop where
  nonces : ∀ k n, σ.view Account.ownerNonce? k = some n →
    findProgramAddress c .capabilityRegistry (ownerNonceSeeds n.owner) = some (k, n.bump)
  sessions : ∀ k s, σ.view Account.session? k = some s → SessionFiled c σ k s

/-- No nonce goes back. -/
def NoncesGrow (σ τ : Ledger K) : Prop :=
  ∀ k n, σ.view Account.ownerNonce? k = some n →
    ∃ n', τ.view Account.ownerNonce? k = some n' ∧ n'.owner = n.owner ∧ n'.bump = n.bump ∧ n.nonce.toNat ≤ n'.nonce.toNat

theorem NoncesGrow.refl (σ : Ledger K) : NoncesGrow σ σ := fun _ n hn => ⟨n, hn, rfl, rfl, le_rfl⟩

theorem NoncesGrow.trans (h : NoncesGrow σ τ) (h' : NoncesGrow τ υ) : NoncesGrow σ υ := by
  intro k n hn
  obtain ⟨n₁, hn₁, howner₁, hbump₁, hle₁⟩ := h k n hn
  obtain ⟨n₂, hn₂, howner₂, hbump₂, hle₂⟩ := h' k n₁ hn₁
  exact ⟨n₂, hn₂, howner₂.trans howner₁, hbump₂.trans hbump₁, hle₁.trans hle₂⟩

theorem SessionFiled.mono {s : Session K} (h : SessionFiled c σ k s) (hgrow : NoncesGrow σ τ) : SessionFiled c τ k s where
  found := h.found
  nonce := h.nonce
  spent_today := h.spent_today
  ops_today := h.ops_today
  owner_nonce := by
    obtain ⟨kn, n, hfound, hn, hle⟩ := h.owner_nonce
    obtain ⟨n', hn', -, hbump, hle'⟩ := hgrow kn n hn
    exact ⟨kn, n', hbump ▸ hfound, hn', hle.trans hle'⟩

/-- The nonce at an address that a check derives from an owner is that owner's. -/
theorem Filed.nonce_owner {owner : K} {n : OwnerNonce K} {bump : UInt8} (h : Filed c σ)
    (hn : σ.view Account.ownerNonce? k = some n)
    (hseeds : c.createProgramAddress .capabilityRegistry (ownerNonceSeeds owner) bump = some k) : n.owner = owner := by
  have heq := (findProgramAddress_seeds (h.nonces k n hn) hseeds).2.1
  simpa [ownerNonceSeeds] using heq

theorem view_set_self {T : Type} {type : Account K → Option T} {a : Account K} : Ledger.view (OrdMap.set σ k a) type k = type a := by
  rw [view_set, if_pos rfl]

/-- The nonces and the sessions after a session has been created. -/
theorem createSession_views {i : CreateSession K} (h : createSession c tx i σ = .ok τ) :
    ∃ n nonceBump sessionBump,
      findProgramAddress c .capabilityRegistry (ownerNonceSeeds i.owner) = some (i.owner_nonce, nonceBump) ∧
      Opened σ Account.ownerNonce? i.owner_nonce ⟨c.default, 0, 0⟩ n ∧
      findProgramAddress c .capabilityRegistry (sessionSeeds i.owner i.session_key n.nonce) = some (i.session, sessionBump) ∧
      (∀ k, τ.view Account.ownerNonce? k =
        if k = i.owner_nonce then some ⟨i.owner, n.nonce, nonceBump⟩ else σ.view Account.ownerNonce? k) ∧
      σ.view Account.session? i.session = none ∧
      ∀ k, τ.view Account.session? k =
        if k = i.session then some (newSession i n.nonce tx.now sessionBump) else σ.view Account.session? k := by
  obtain ⟨nonceBump, n, sessionBump, -, hnonce, hopen, hsession, hnew, rfl⟩ := createSession_ok.1 h
  have hne : i.session ≠ i.owner_nonce := by
    intro heq
    rw [heq] at hsession
    have hseeds := (findProgramAddress_inj hsession hnonce).2
    simp [sessionSeeds, ownerNonceSeeds] at hseeds
  refine ⟨n, nonceBump, sessionBump, hnonce, hopen, hsession, fun k => ?_, view_none hnew, fun k => ?_⟩
  · rw [view_set_other rfl]
    · exact view_set
    · rw [view_set, if_neg hne]
      exact view_none hnew
  · rw [view_set]
    split
    · rfl
    · exact view_set_other rfl (hopen.view_other stores_ownerNonce fun _ => rfl)

theorem step_noncesGrow (hfiled : Filed c σ) (h : step c σ st = some τ) : NoncesGrow σ τ := by
  intro k n hn
  rcases step_sessions h with ⟨hsame, -⟩ | ⟨i, -, h⟩ | ⟨i, -, h⟩ | ⟨i, -, h⟩ | ⟨i, -, h⟩
  · exact ⟨n, (hsame k).2.trans hn, rfl, rfl, le_rfl⟩
  · obtain ⟨n', nonceBump, sessionBump, hnonce, hopen, -, hnonces, -, -⟩ := createSession_views h
    rw [hnonces]
    split
    · rename_i hk
      subst hk
      -- the account is there, so it is the owner's and keeps its nonce
      obtain ⟨hcreate, -⟩ := findProgramAddress_create hnonce
      rcases hopen with ⟨hnone, -⟩ | hview
      · rw [view_none hnone] at hn
        cases hn
      · cases hview.symm.trans hn
        have hbump := (findProgramAddress_seeds (hfiled.nonces _ _ hn) hcreate).2.2
        exact ⟨_, rfl, (hfiled.nonce_owner hn hcreate).symm, hbump.symm, le_rfl⟩
    · exact ⟨n, hn, rfl, rfl, le_rfl⟩
  · obtain ⟨s, hs, rfl⟩ := extendSession_ok.1 h
    rw [view_set_other rfl (stores_session.view_other (ownedSession_ok.1 hs).2.1 fun _ => rfl)]
    exact ⟨n, hn, rfl, rfl, le_rfl⟩
  · obtain ⟨s, hs, rfl⟩ := revokeSession_ok.1 h
    rw [view_close_other (stores_session.view_other (ownedSession_ok.1 hs).2.1 fun _ => rfl)]
    exact ⟨n, hn, rfl, rfl, le_rfl⟩
  · obtain ⟨m, nonce, -, hm, -, hadd, rfl⟩ := pauseAllSessions_ok.1 h
    rw [view_set]
    split
    · rename_i hk
      subst hk
      cases hm.symm.trans hn
      rw [UInt64.checkedAdd_eq_some] at hadd
      exact ⟨_, rfl, rfl, rfl, by simp only; omega⟩
    · exact ⟨n, hn, rfl, rfl, le_rfl⟩

/-- **A step files its sessions and nonces.** -/
theorem step_filed (hfiled : Filed c σ) (h : step c σ st = some τ) : Filed c τ := by
  have hgrow := step_noncesGrow hfiled h
  have hkeep : ∀ k s, σ.view Account.session? k = some s → SessionFiled c τ k s :=
    fun k s hs => (hfiled.sessions k s hs).mono hgrow
  rcases step_sessions h with ⟨hsame, -⟩ | ⟨i, -, h⟩ | ⟨i, -, h⟩ | ⟨i, -, h⟩ | ⟨i, -, h⟩
  · exact ⟨fun k n hn => hfiled.nonces k n ((hsame k).2 ▸ hn), fun k s hs => hkeep k s ((hsame k).1 ▸ hs)⟩
  · obtain ⟨n, nonceBump, sessionBump, hnonce, hopen, hsession, hnonces, -, hsessions⟩ := createSession_views h
    constructor
    · intro k n' hn'
      rw [hnonces] at hn'
      split at hn'
      · rename_i hk
        cases hn'
        rw [hk]
        exact hnonce
      · exact hfiled.nonces k n' hn'
    · intro k s hs
      rw [hsessions] at hs
      split at hs
      · rename_i hk
        cases hs
        subst hk
        refine ⟨hsession, rfl, rfl, rfl, i.owner_nonce, ⟨i.owner, n.nonce, nonceBump⟩, hnonce, ?_, le_rfl⟩
        rw [hnonces, if_pos rfl]
      · exact hkeep k s hs
  · obtain ⟨s, hs, rfl⟩ := extendSession_ok.1 h
    have hview := (ownedSession_ok.1 hs).2.1
    constructor
    · intro k n hn
      rw [view_set_other rfl (stores_session.view_other hview fun _ => rfl)] at hn
      exact hfiled.nonces k n hn
    · intro k s' hs'
      rw [view_set] at hs'
      split at hs'
      · rename_i hk
        cases hs'
        subst hk
        obtain ⟨hfound, hnonce, hspent, hops, howner⟩ := hkeep _ _ hview
        exact ⟨hfound, hnonce, hspent, hops, howner⟩
      · exact hkeep k s' hs'
  · obtain ⟨s, hs, rfl⟩ := revokeSession_ok.1 h
    have hview := (ownedSession_ok.1 hs).2.1
    constructor
    · intro k n hn
      rw [view_close_other (stores_session.view_other hview fun _ => rfl)] at hn
      exact hfiled.nonces k n hn
    · intro k s' hs'
      rw [view_close] at hs'
      split at hs'
      · cases hs'
      · exact hkeep k s' hs'
  · obtain ⟨n, nonce, -, hn, hseeds, -, rfl⟩ := pauseAllSessions_ok.1 h
    constructor
    · intro k n' hn'
      rw [view_set] at hn'
      split at hn'
      · rename_i hk
        cases hn'
        subst hk
        exact hfiled.nonces _ n hn
      · exact hfiled.nonces k n' hn'
    · intro k s hs
      rw [view_set_other rfl (stores_ownerNonce.view_other hn fun _ => rfl)] at hs
      exact hkeep k s hs

theorem filed_genesis : Filed c genesis := by
  constructor
  · intro k n hn
    rw [view_genesis] at hn
    cases hn
  · intro k s hs
    rw [view_genesis] at hs
    cases hs

theorem run_filed {steps : List (Step c)} (h : run c genesis steps = some σ) : Filed c σ :=
  Run.run_invariant (fun _ _ _ hs h => step_filed hs h) filed_genesis h

theorem run_noncesGrow {steps : List (Step c)} (hfiled : Filed c σ) (h : run c σ steps = some τ) :
    Filed c τ ∧ NoncesGrow σ τ :=
  Run.run_invariant (I := fun υ => Filed c υ ∧ NoncesGrow σ υ)
    (fun _ _ _ hs h => ⟨step_filed hs.1 h, hs.2.trans (step_noncesGrow hs.1 h)⟩) ⟨hfiled, .refl σ⟩ h

/-! ## Reaching a session -/

/-- **A session within reach of its owner and its key**: it stands at the address that its stored nonce gives, its owner can
extend and revoke it, and the constraints of the instructions by sessions accept it from its key. -/
structure Reachable (c : Runtime K) (σ : Ledger K) (k : K) (s : Session K) : Prop where
  derived : findProgramAddress c .capabilityRegistry (sessionSeeds s.owner s.session_key s.nonce) = some (k, s.bump)
  extend : ∀ (tx : Tx c) (i : ExtendSession K), i.owner = s.owner → i.session = k → s.owner ∈ tx.signers →
    ∃ τ, extendSession c tx i σ = .ok τ
  revoke : ∀ tx : Tx c, s.owner ∈ tx.signers → ∃ τ, revokeSession c tx ⟨s.owner, k⟩ σ = .ok τ
  use : ∃ kn n, ∀ tx : Tx c, s.session_key ∈ tx.signers →
    sessionAccounts c tx ⟨s.session_key, s.owner, k, kn, s.nonce⟩ σ = .ok (s, n)

/-- A filed session is within reach exactly when it was created while the nonce was zero. -/
theorem reachable_iff {s : Session K} (hfiled : Filed c σ) (hs : σ.view Account.session? k = some s) :
    Reachable c σ k s ↔ s.owner_nonce = 0 := by
  have h := hfiled.sessions k s hs
  constructor
  · intro hreach
    have heq := (findProgramAddress_inj hreach.derived h.found).2
    have hnonce : s.nonce = s.owner_nonce := by simpa [sessionSeeds] using heq
    rw [← hnonce, h.nonce]
  · intro hzero
    have hfound := h.found
    rw [hzero, ← h.nonce] at hfound
    have hcreate := (findProgramAddress_create hfound).1
    obtain ⟨kn, n, hn, hview, -⟩ := h.owner_nonce
    refine ⟨hfound, ?_, ?_, kn, n, ?_⟩
    · rintro tx i howner rfl hsigner
      rw [← howner] at hsigner hcreate
      exact ⟨_, extendSession_ok.2 ⟨s, ownedSession_ok.2 ⟨hsigner, hs, hcreate, howner.symm⟩, rfl⟩⟩
    · intro tx hsigner
      exact ⟨_, revokeSession_ok.2 ⟨s, ownedSession_ok.2 ⟨hsigner, hs, hcreate, rfl⟩, rfl⟩⟩
    · intro tx hsigner
      exact sessionAccounts_ok.2 ⟨hsigner, hs, hcreate, rfl, hview, (findProgramAddress_create hn).1⟩

/-- A session is created only while its owner has not paused. -/
def CreatedUnpaused (c : Runtime K) (σ : Ledger K) (st : Step c) : Prop :=
  ∀ i, st.instruction = .capability (.createSession i) →
    ∀ n, σ.view Account.ownerNonce? i.owner_nonce = some n → n.nonce = 0

def AllReachable (c : Runtime K) (σ : Ledger K) : Prop := ∀ k s, σ.view Account.session? k = some s → Reachable c σ k s

theorem allReachable_iff (hfiled : Filed c σ) :
    AllReachable c σ ↔ ∀ k s, σ.view Account.session? k = some s → s.owner_nonce = 0 :=
  forall₂_congr fun _ _ => forall_congr' fun hs => reachable_iff hfiled hs

/-- One step keeps the sessions within reach exactly when it creates none for an owner that has paused. -/
theorem step_reachable_iff (hfiled : Filed c σ) (hall : AllReachable c σ) (h : step c σ st = some τ) :
    AllReachable c τ ↔ CreatedUnpaused c σ st := by
  rw [allReachable_iff hfiled] at hall
  rw [allReachable_iff (step_filed hfiled h)]
  rcases step_sessions h with ⟨hsame, hother⟩ | ⟨i, hi, h⟩ | ⟨i, hi, h⟩ | ⟨i, hi, h⟩ | ⟨i, hi, h⟩
  · refine iff_of_true (fun k s hs => hall k s ((hsame k).1 ▸ hs)) ?_
    exact fun i hi => absurd hi (hother i)
  · obtain ⟨n, nonceBump, sessionBump, -, hopen, -, -, -, hsessions⟩ := createSession_views h
    constructor
    · intro hzero i' hi' n' hn'
      rw [hi] at hi'
      cases hi'
      have hnew : n.nonce = 0 := hzero i.session (newSession i n.nonce st.tx.now sessionBump) (by rw [hsessions, if_pos rfl])
      rcases hopen with ⟨hnone, -⟩ | hview
      · rw [view_none hnone] at hn'
        cases hn'
      · cases hview.symm.trans hn'
        exact hnew
    · intro hunpaused k s hs
      rw [hsessions] at hs
      split at hs
      · cases hs
        rcases hopen with ⟨-, rfl⟩ | hview
        · rfl
        · exact hunpaused i hi n hview
      · exact hall k s hs
  · obtain ⟨s, hs, rfl⟩ := extendSession_ok.1 h
    refine iff_of_true ?_ (fun i' hi' => by rw [hi] at hi'; cases hi')
    intro k s' hs'
    rw [view_set] at hs'
    split at hs'
    · cases hs'
      exact hall i.session s (ownedSession_ok.1 hs).2.1
    · exact hall k s' hs'
  · obtain ⟨s, hs, rfl⟩ := revokeSession_ok.1 h
    refine iff_of_true ?_ (fun i' hi' => by rw [hi] at hi'; cases hi')
    intro k s' hs'
    rw [view_close] at hs'
    split at hs'
    · cases hs'
    · exact hall k s' hs'
  · obtain ⟨n, nonce, -, hn, -, -, rfl⟩ := pauseAllSessions_ok.1 h
    refine iff_of_true ?_ (fun i' hi' => by rw [hi] at hi'; cases hi')
    intro k s hs
    rw [view_set_other rfl (stores_ownerNonce.view_other hn fun _ => rfl)] at hs
    exact hall k s hs

/-- **Sessions stay within reach exactly when each is created before its owner's first pause.** -/
theorem sessions_reachable_iff (c : Runtime K) {steps : List (Step c)} {σ : Ledger K} (h : run c genesis steps = some σ) :
    (∀ l τ, l <+: steps → run c genesis l = some τ → AllReachable c τ) ↔ Run.All (step c) (CreatedUnpaused c) genesis steps := by
  have hgenesis : AllReachable c genesis := by
    intro k s hs
    rw [view_genesis] at hs
    cases hs
  have hiff := Run.forall_prefix_iff (I := fun τ => Filed c τ ∧ AllReachable c τ) (C := CreatedUnpaused c)
    (fun σ st τ hσ hst => by
      rw [← step_reachable_iff hσ.1 hσ.2 hst]
      exact and_iff_right (step_filed hσ.1 hst)) steps genesis σ ⟨filed_genesis, hgenesis⟩ h
  rw [← hiff]
  constructor
  · exact fun hall l τ hl hτ => ⟨run_filed hτ, hall l τ hl hτ⟩
  · exact fun hall l τ hl hτ => (hall l τ hl hτ).2

open ReferenceChain in
theorem sessions_reachable_unpaused : ∃ σ, run referenceChain genesis [openSession 31 0] = some σ ∧ AllReachable referenceChain σ := by
  have hrun : (run referenceChain genesis [openSession 31 0]).isSome = true := by decide
  obtain ⟨σ, hσ⟩ := Option.isSome_iff_exists.1 hrun
  have hall : Run.All (step referenceChain) (CreatedUnpaused referenceChain) genesis [openSession 31 0] := by
    intro l st τ hl hτ i _ n hn
    obtain ⟨rfl, -⟩ : l = [] ∧ st = openSession 31 0 := by
      cases l with
      | nil => exact ⟨rfl, (List.cons_prefix_cons.1 hl).1⟩
      | cons x l => simp at hl
    cases hτ
    rw [view_genesis] at hn
    cases hn
  exact ⟨σ, hσ, (sessions_reachable_iff referenceChain hσ).2 hall _ σ List.prefix_rfl hσ⟩

open ReferenceChain in
/-- An owner who has paused once creates a session that he can neither extend nor revoke. -/
theorem session_after_pause_unreachable : ¬ ∀ σ, run referenceChain genesis [openSession 31 0, pause, openSession 31 1] = some σ →
    AllReachable referenceChain σ := by
  intro hall
  have hview : ((run referenceChain genesis [openSession 31 0, pause, openSession 31 1]).bind fun σ =>
      (σ.view Account.session? (sessionAt 1)).map Session.owner_nonce) = some 1 := by decide
  obtain ⟨σ, hσ, hsession⟩ := Option.bind_eq_some_iff.1 hview
  obtain ⟨s, hs, hnonce⟩ := Option.map_eq_some_iff.1 hsession
  have hzero := (reachable_iff (run_filed hσ) hs).1 (hall σ hσ _ s hs)
  rw [hnonce] at hzero
  exact absurd hzero (by decide)

/-! ## Pauses -/

/-- **A pause is irrevocable.** A session of an owner that existed at some point before a pause by the owner is never active
again: whatever steps follow, no session at its address is active. -/
theorem pause_irrevocable (c : Runtime K) {before between after : List (Step c)} {σ τ υ ω : Ledger K} {k : K} {s s' : Session K}
    {tx : Tx c} {i : PauseAllSessions K} {owner key kn : K} {n : OwnerNonce K} {bump : UInt8} {scope : UInt32} {now : Int64}
    (hσ : run c genesis before = some σ) (hs : σ.view Account.session? k = some s) (hτ : run c σ between = some τ)
    (hpause : pauseAllSessions c tx i τ = .ok υ) (howner : s.owner = i.owner) (hω : run c υ after = some ω)
    (hs' : ω.view Account.session? k = some s')
    (hkn : findProgramAddress c .capabilityRegistry (ownerNonceSeeds owner) = some (kn, bump))
    (hn : ω.view Account.ownerNonce? kn = some n) : requireSessionActive s' n owner key scope now ≠ .ok () := by
  intro hactive
  have hfiledσ := run_filed hσ
  obtain ⟨hfiledτ, hgrowτ⟩ := run_noncesGrow hfiledσ hτ
  have hstep : step c τ ⟨tx, .capability (.pauseAllSessions i)⟩ = some υ := step_ok.2 hpause
  obtain ⟨hfiledω, hgrowω⟩ := run_noncesGrow (step_filed hfiledτ hstep) hω
  -- the session at the address is the old one up to its limits
  have hseeds := (findProgramAddress_inj (hfiledω.sessions k s' hs').found (hfiledσ.sessions k s hs).found).2
  have hsame : s'.owner = s.owner ∧ s'.session_key = s.session_key ∧ s'.owner_nonce = s.owner_nonce := by
    simpa [sessionSeeds] using hseeds
  obtain ⟨hactiveOwner, -, -, -, -, hactiveNonce⟩ := requireSessionActive_ok.1 hactive
  -- its nonce is at most the one before the pause
  obtain ⟨kn₀, n₀, hfound₀, hn₀, hle₀⟩ := (hfiledσ.sessions k s hs).owner_nonce
  obtain ⟨n₁, hn₁, -, -, hle₁⟩ := hgrowτ kn₀ n₀ hn₀
  obtain ⟨n₂, nonce, -, hn₂, hcreate, hadd, rfl⟩ := pauseAllSessions_ok.1 hpause
  have hk₂ : kn₀ = i.owner_nonce := by
    have hfound₂ := hfiledτ.nonces _ _ hn₂
    rw [hfiledτ.nonce_owner hn₂ hcreate, ← howner, hfound₀] at hfound₂
    exact congrArg Prod.fst (Option.some.inj hfound₂)
  have hk : kn = i.owner_nonce := by
    rw [← hactiveOwner, hsame.1, hfound₀] at hkn
    exact (congrArg Prod.fst (Option.some.inj hkn)).symm.trans hk₂
  obtain ⟨n₃, hn₃, -, -, hle₃⟩ := hgrowω i.owner_nonce _ view_set_self
  cases (hk ▸ hn).symm.trans hn₃
  cases (hk₂ ▸ hn₁).symm.trans hn₂
  rw [UInt64.checkedAdd_eq_some] at hadd
  have hone : (1 : UInt64).toNat = 1 := rfl
  have hold : s'.owner_nonce.toNat = s.owner_nonce.toNat := congrArg UInt64.toNat hsame.2.2
  have heq : s'.owner_nonce.toNat = n.nonce.toNat := congrArg UInt64.toNat hactiveNonce
  simp only at hle₃
  omega

open ReferenceChain in
theorem pause_irrevocable_open : ∃ σ υ, run referenceChain genesis [openSession 31 0] = some σ ∧
    pauseAllSessions referenceChain pause.tx ⟨owner, ownerNonceKey⟩ σ = .ok υ ∧
    ∃ s n, υ.view Account.session? (sessionAt 0) = some s ∧ υ.view Account.ownerNonce? ownerNonceKey = some n ∧
      requireSessionActive s n owner sessionKey budgetSpend 1001 ≠ .ok () := by
  have hrun : (run referenceChain genesis [openSession 31 0]).isSome = true := by decide
  obtain ⟨σ, hσ⟩ := Option.isSome_iff_exists.1 hrun
  have hsession : ((run referenceChain genesis [openSession 31 0]).bind fun σ =>
      (σ.view Account.session? (sessionAt 0)).map Session.owner) = some owner := by decide
  rw [hσ, Option.bind_some] at hsession
  obtain ⟨s, hs, howner⟩ := Option.map_eq_some_iff.1 hsession
  have hafter : ((run referenceChain genesis [openSession 31 0, pause]).bind fun υ =>
      (υ.view Account.session? (sessionAt 0)).bind fun _ => (υ.view Account.ownerNonce? ownerNonceKey).map OwnerNonce.nonce)
      = some 1 := by decide
  obtain ⟨υ, hυ, h⟩ := Option.bind_eq_some_iff.1 hafter
  obtain ⟨s', hs', h⟩ := Option.bind_eq_some_iff.1 h
  obtain ⟨n, hn, -⟩ := Option.map_eq_some_iff.1 h
  have hpause : pauseAllSessions referenceChain pause.tx ⟨owner, ownerNonceKey⟩ σ = .ok υ :=
    step_ok.1 ((Run.run_snoc (i := pause) hσ).symm.trans hυ)
  have hnothing : ∀ ρ, run referenceChain ρ [] = some ρ := fun _ => rfl
  refine ⟨σ, υ, hσ, hpause, s', n, hs', hn, ?_⟩
  have hkn : findProgramAddress referenceChain .capabilityRegistry (ownerNonceSeeds owner) = some (ownerNonceKey, 255) := by
    decide
  exact pause_irrevocable referenceChain hσ hs (hnothing σ) hpause howner (hnothing υ) hs' hkn hn

end EnigmaMemory.Cortex
