import EnigmaMemory.Proof.Ledger

/-!
# What each instruction does

One lemma per instruction: the checks that have passed and the ledger that is left. A program
changes its own accounts only, `budget_escrow` and `cortex_token` also token accounts, and
`royalty_router` also budgets.
-/

namespace EnigmaMemory.Cortex

variable {K : Type} [DecidableEq K] {c : Runtime K} {tx : Tx c} {σ τ : Ledger K}

theorem exit_own {p : Program} {k : K} {a : Account K} (h : a.program = p) : σ.exit p k a = OrdMap.set σ k a := if_pos h

theorem exit_other {p : Program} {k : K} {a : Account K} (h : a.program ≠ p) : σ.exit p k a = σ := if_neg h

/-! ## Sessions -/

theorem sessionAccounts_ok {a : SessionAccounts K} {s : Session K} {n : OwnerNonce K} :
    sessionAccounts c tx a σ = .ok (s, n) ↔ a.session_key ∈ tx.signers ∧ σ.view Account.session? a.session = some s ∧
      c.createProgramAddress .capabilityRegistry (sessionSeeds a.owner a.session_key a.nonce) s.bump = some a.session ∧
      s.nonce = a.nonce ∧ σ.view Account.ownerNonce? a.owner_nonce = some n ∧
      c.createProgramAddress .capabilityRegistry (ownerNonceSeeds a.owner) n.bump = some a.owner_nonce := by
  unfold sessionAccounts
  simp only [Except.bind_eq_ok, Except.pure_eq_ok, signer_ok, load_ok, seedsWithBump_ok, require_ok]
  constructor
  · rintro ⟨-, hsigner, s', hs, -, hseeds, -, hnonce, n', hn, -, hseeds', heq⟩
    cases heq
    exact ⟨hsigner, hs, hseeds, hnonce, hn, hseeds'⟩
  · rintro ⟨hsigner, hs, hseeds, hnonce, hn, hseeds'⟩
    exact ⟨(), hsigner, s, hs, (), hseeds, (), hnonce, n, hn, (), hseeds', rfl⟩

theorem requireSessionActive_ok {s : Session K} {n : OwnerNonce K} {owner key : K} {scope : UInt32} {now : Int64} {u : Unit} :
    requireSessionActive s n owner key scope now = .ok u ↔ s.owner = owner ∧ s.session_key = key ∧ s.revoked = false ∧
      now < s.expires_at ∧ (scope ≠ 0 → s.scope &&& scope ≠ 0) ∧ s.owner_nonce = n.nonce := by
  unfold requireSessionActive
  simp only [Except.bind_eq_ok, require_ok, exists_const]

theorem createSession_ok {i : CreateSession K} : createSession c tx i σ = .ok τ ↔
    ∃ nonceBump n sessionBump, i.owner ∈ tx.signers ∧
      findProgramAddress c .capabilityRegistry (ownerNonceSeeds i.owner) = some (i.owner_nonce, nonceBump) ∧
      Opened σ Account.ownerNonce? i.owner_nonce ⟨c.default, 0, 0⟩ n ∧
      findProgramAddress c .capabilityRegistry (sessionSeeds i.owner i.session_key n.nonce) = some (i.session, sessionBump) ∧
      σ.get i.session = none ∧
      τ = OrdMap.set (OrdMap.set σ i.owner_nonce (.ownerNonce ⟨i.owner, n.nonce, nonceBump⟩)) i.session
        (.session (newSession i n.nonce tx.now sessionBump)) := by
  unfold createSession
  simp only [Except.bind_eq_ok, Except.pure_eq_ok, signer_ok, seedsFound_ok, initIfNeeded_ok, init_ok, Ledger.exit,
    Account.program, if_true]
  constructor
  · rintro ⟨-, hsigner, nonceBump, hnonce, n, hopen, sessionBump, hsession, s, ⟨hnew, rfl⟩, rfl⟩
    exact ⟨nonceBump, n, sessionBump, hsigner, hnonce, hopen, hsession, hnew, rfl⟩
  · rintro ⟨nonceBump, n, sessionBump, hsigner, hnonce, hopen, hsession, hnew, rfl⟩
    exact ⟨(), hsigner, nonceBump, hnonce, n, hopen, sessionBump, hsession, _, ⟨hnew, rfl⟩, rfl⟩

theorem ownedSession_ok {owner session : K} {s : Session K} : ownedSession c tx owner session σ = .ok s ↔
    owner ∈ tx.signers ∧ σ.view Account.session? session = some s ∧
      c.createProgramAddress .capabilityRegistry (sessionSeeds owner s.session_key s.nonce) s.bump = some session ∧
      s.owner = owner := by
  unfold ownedSession
  simp only [Except.bind_eq_ok, Except.pure_eq_ok, signer_ok, load_ok, seedsWithBump_ok, require_ok]
  constructor
  · rintro ⟨-, hsigner, s', hs, -, hseeds, -, howner, rfl⟩
    exact ⟨hsigner, hs, hseeds, howner⟩
  · rintro ⟨hsigner, hs, hseeds, howner⟩
    exact ⟨(), hsigner, s, hs, (), hseeds, (), howner, rfl⟩

theorem extendSession_ok {i : ExtendSession K} : extendSession c tx i σ = .ok τ ↔
    ∃ s, ownedSession c tx i.owner i.session σ = .ok s ∧ τ = OrdMap.set σ i.session (.session (extended i s)) := by
  unfold extendSession
  simp only [Except.bind_eq_ok, Except.pure_eq_ok, Ledger.exit, Account.program, if_true, eq_comm (a := τ)]

theorem revokeSession_ok {i : RevokeSession K} : revokeSession c tx i σ = .ok τ ↔
    ∃ s, ownedSession c tx i.owner i.session σ = .ok s ∧ τ = σ.close i.session := by
  unfold revokeSession
  simp only [Except.bind_eq_ok, Except.pure_eq_ok, eq_comm (a := τ)]

theorem pauseAllSessions_ok {i : PauseAllSessions K} : pauseAllSessions c tx i σ = .ok τ ↔
    ∃ n nonce, i.owner ∈ tx.signers ∧ σ.view Account.ownerNonce? i.owner_nonce = some n ∧
      c.createProgramAddress .capabilityRegistry (ownerNonceSeeds i.owner) n.bump = some i.owner_nonce ∧
      n.nonce.checkedAdd 1 = some nonce ∧ τ = OrdMap.set σ i.owner_nonce (.ownerNonce { n with nonce := nonce }) := by
  unfold pauseAllSessions
  simp only [Except.bind_eq_ok, Except.pure_eq_ok, signer_ok, load_ok, seedsWithBump_ok, orFail_ok, Ledger.exit, Account.program,
    if_true]
  constructor
  · rintro ⟨-, hsigner, n, hn, -, hseeds, nonce, hnonce, rfl⟩
    exact ⟨n, nonce, hsigner, hn, hseeds, hnonce, rfl⟩
  · rintro ⟨n, nonce, hsigner, hn, hseeds, hnonce, rfl⟩
    exact ⟨(), hsigner, n, hn, (), hseeds, nonce, hnonce, rfl⟩

theorem grant_ok {i : GrantCapability K} (h : grant c tx i σ = .ok τ) :
    ∃ bump y zero, findProgramAddress c .capabilityRegistry (capabilitySeeds i.owner i.granted_to i.scope) = some (i.capability, bump) ∧
      Opened σ Account.capability? i.capability zero y ∧
      τ = OrdMap.set σ i.capability (.capability
        { y with owner := i.owner, granted_to := i.granted_to, scope := i.scope, expires_at := i.expires_at, created_at := tx.now }) := by
  unfold grant at h
  simp only [Except.bind_eq_ok, Except.pure_eq_ok, signer_ok, seedsFound_ok, initIfNeeded_ok, require_ok, Ledger.exit,
    Account.program, if_true] at h
  obtain ⟨-, -, bump, hseeds, y, hopen, -, -, rfl⟩ := h
  exact ⟨bump, y, _, hseeds, hopen, rfl⟩

theorem revoke_ok {i : RevokeCapability K} (h : revoke c tx i σ = .ok τ) :
    ∃ x, σ.view Account.capability? i.capability = some x ∧ τ = σ.close i.capability := by
  unfold revoke at h
  simp only [Except.bind_eq_ok, Except.pure_eq_ok, signer_ok, load_ok, seedsWithBump_ok, require_ok] at h
  obtain ⟨-, -, x, hx, -, -, -, -, rfl⟩ := h
  exact ⟨x, hx, rfl⟩

/-! ## Memories -/

theorem registerMemory_ok {i : RegisterMemory K} : registerMemory c tx i σ = .ok τ ↔
    ∃ bump m, i.owner ∈ tx.signers ∧
      findProgramAddress c .memoryRegistry (memorySeeds i.owner i.content_hash) = some (i.memory, bump) ∧
      Opened σ Account.memory? i.memory (zeroMemory c) m ∧
      τ = OrdMap.set σ i.memory (.memory (initMemory m i.owner i.content_hash tx.now)) := by
  unfold registerMemory
  simp only [Except.bind_eq_ok, Except.pure_eq_ok, signer_ok, seedsFound_ok, initIfNeeded_ok, Ledger.exit, Account.program,
    if_true]
  constructor
  · rintro ⟨-, hsigner, bump, hseeds, m, hopen, rfl⟩
    exact ⟨bump, m, hsigner, hseeds, hopen, rfl⟩
  · rintro ⟨bump, m, hsigner, hseeds, hopen, rfl⟩
    exact ⟨(), hsigner, bump, hseeds, m, hopen, rfl⟩

theorem ownedMemory_ok {owner memory : K} {m : Memory K} : ownedMemory c tx owner memory σ = .ok m ↔
    owner ∈ tx.signers ∧ σ.view Account.memory? memory = some m ∧
      c.createProgramAddress .memoryRegistry (memorySeeds owner m.content_hash) m.bump = some memory ∧ m.owner = owner := by
  unfold ownedMemory
  simp only [Except.bind_eq_ok, Except.pure_eq_ok, signer_ok, load_ok, seedsWithBump_ok, require_ok]
  constructor
  · rintro ⟨-, hsigner, m', hm, -, hseeds, -, howner, rfl⟩
    exact ⟨hsigner, hm, hseeds, howner⟩
  · rintro ⟨hsigner, hm, hseeds, howner⟩
    exact ⟨(), hsigner, m, hm, (), hseeds, (), howner, rfl⟩

theorem updateMemory_ok {i : UpdateMemory K} : updateMemory c tx i σ = .ok τ ↔
    ∃ m, ownedMemory c tx i.owner i.memory σ = .ok m ∧
      τ = OrdMap.set σ i.memory (.memory { m with content_hash := i.new_hash, updated_at := tx.now }) := by
  unfold updateMemory
  simp only [Except.bind_eq_ok, Except.pure_eq_ok, Ledger.exit, Account.program, if_true, eq_comm (a := τ)]

theorem setShareable_ok {i : SetShareable K} (h : setShareable c tx i σ = .ok τ) :
    ∃ m, ownedMemory c tx i.owner i.memory σ = .ok m ∧
      τ = OrdMap.set σ i.memory (.memory { m with shareable := i.shareable, royalty_bps := i.royalty_bps }) := by
  unfold setShareable at h
  simp only [Except.bind_eq_ok, Except.pure_eq_ok, require_ok, Ledger.exit, Account.program, if_true] at h
  obtain ⟨m, hm, -, -, rfl⟩ := h
  exact ⟨m, hm, rfl⟩

theorem deleteMemory_ok {i : DeleteMemory K} : deleteMemory c tx i σ = .ok τ ↔
    ∃ m, ownedMemory c tx i.owner i.memory σ = .ok m ∧ τ = σ.close i.memory := by
  unfold deleteMemory
  simp only [Except.bind_eq_ok, Except.pure_eq_ok, eq_comm (a := τ)]

theorem sessionMemory_ok {owner memory : K} {m : Memory K} : sessionMemory owner memory σ = .ok m ↔
    σ.view Account.memory? memory = some m ∧ m.owner = owner := by
  unfold sessionMemory
  simp only [Except.bind_eq_ok, Except.pure_eq_ok, load_ok, require_ok]
  constructor
  · rintro ⟨m', hm, -, howner, rfl⟩
    exact ⟨hm, howner⟩
  · rintro ⟨hm, howner⟩
    exact ⟨m, hm, (), howner, rfl⟩

theorem touchedSession_ok {a : SessionAccounts K} {scope : UInt32} {s : Session K} (h : touchedSession c tx a scope σ = .ok s) :
    ∃ s₀ n, sessionAccounts c tx a σ = .ok (s₀, n) ∧ requireSessionActive s₀ n a.owner a.session_key scope tx.now = .ok () ∧
      touchSession s₀ tx.now = .ok s := by
  unfold touchedSession at h
  simp only [Except.bind_eq_ok, Prod.exists] at h
  obtain ⟨s₀, n, haccounts, ⟨⟩, hactive, htouch⟩ := h
  exact ⟨s₀, n, haccounts, hactive, htouch⟩

theorem createMemoryWithSession_ok {i : CreateMemoryWithSession K} : createMemoryWithSession c tx i σ = .ok τ ↔
    ∃ s bump m, touchedSession c tx i.accounts memoryCreate σ = .ok s ∧
      findProgramAddress c .memoryRegistry (memorySeeds i.accounts.owner i.content_hash) = some (i.memory, bump) ∧
      Opened σ Account.memory? i.memory (zeroMemory c) m ∧
      τ = OrdMap.set σ i.memory (.memory (initMemory m i.accounts.owner i.content_hash tx.now)) := by
  unfold createMemoryWithSession
  simp only [Except.bind_eq_ok, Except.pure_eq_ok, seedsFound_ok, initIfNeeded_ok, Ledger.exit, Account.program, reduceCtorEq,
    if_true, if_false]
  constructor
  · rintro ⟨s, hs, bump, hseeds, m, hopen, rfl⟩
    exact ⟨s, bump, m, hs, hseeds, hopen, rfl⟩
  · rintro ⟨s, bump, m, hs, hseeds, hopen, rfl⟩
    exact ⟨s, hs, bump, hseeds, m, hopen, rfl⟩

theorem updateMemoryWithSession_ok {i : UpdateMemoryWithSession K} (h : updateMemoryWithSession c tx i σ = .ok τ) :
    ∃ m s, sessionMemory i.accounts.owner i.memory σ = .ok m ∧ touchedSession c tx i.accounts memoryUpdate σ = .ok s ∧
      τ = OrdMap.set σ i.memory (.memory { m with content_hash := i.new_hash, updated_at := tx.now }) := by
  unfold updateMemoryWithSession at h
  simp only [Except.bind_eq_ok, Except.pure_eq_ok, Ledger.exit, Account.program, reduceCtorEq, if_true, if_false] at h
  obtain ⟨m, hm, s, hs, rfl⟩ := h
  exact ⟨m, s, hm, hs, rfl⟩

theorem deleteMemoryWithSession_ok {i : DeleteMemoryWithSession K} (h : deleteMemoryWithSession c tx i σ = .ok τ) :
    ∃ m s, sessionMemory i.accounts.owner i.memory σ = .ok m ∧ touchedSession c tx i.accounts memoryDelete σ = .ok s ∧
      τ = σ.close i.memory := by
  unfold deleteMemoryWithSession at h
  simp only [Except.bind_eq_ok, Except.pure_eq_ok, Ledger.exit, Account.program, reduceCtorEq, if_false] at h
  obtain ⟨m, hm, s, hs, rfl⟩ := h
  exact ⟨m, s, hm, hs, rfl⟩

/-! ## Budgets -/

theorem createBudget_ok {i : CreateBudget K} : createBudget c tx i σ = .ok τ ↔
    ∃ bump b, i.owner ∈ tx.signers ∧ findProgramAddress c .budgetEscrow (budgetSeeds i.owner) = some (i.budget, bump) ∧
      Opened σ Account.budget? i.budget ⟨c.default, 0, 0, 0, 0⟩ b ∧
      τ = OrdMap.set σ i.budget (.budget ⟨i.owner, i.amount, 0, tx.now, bump⟩) := by
  unfold createBudget
  simp only [Except.bind_eq_ok, Except.pure_eq_ok, signer_ok, seedsFound_ok, initIfNeeded_ok, Ledger.exit, Account.program,
    if_true]
  constructor
  · rintro ⟨-, hsigner, bump, hseeds, b, hopen, rfl⟩
    exact ⟨bump, b, hsigner, hseeds, hopen, rfl⟩
  · rintro ⟨bump, b, hsigner, hseeds, hopen, rfl⟩
    exact ⟨(), hsigner, bump, hseeds, b, hopen, rfl⟩

theorem mutBudget_ok {owner budget : K} {b : Budget K} : mutBudget c owner budget σ = .ok b ↔
    σ.view Account.budget? budget = some b ∧ c.createProgramAddress .budgetEscrow (budgetSeeds owner) b.bump = some budget := by
  unfold mutBudget
  simp only [Except.bind_eq_ok, Except.pure_eq_ok, load_ok, seedsWithBump_ok]
  constructor
  · rintro ⟨b', hb, -, hseeds, rfl⟩
    exact ⟨hb, hseeds⟩
  · rintro ⟨hb, hseeds⟩
    exact ⟨b, hb, (), hseeds, rfl⟩

theorem deposit_ok {i : MutBudget K} : deposit c tx i σ = .ok τ ↔
    ∃ b balance, i.owner ∈ tx.signers ∧ mutBudget c i.owner i.budget σ = .ok b ∧ b.owner = i.owner ∧
      b.balance.checkedAdd i.amount = some balance ∧ τ = OrdMap.set σ i.budget (.budget { b with balance := balance }) := by
  unfold deposit
  simp only [Except.bind_eq_ok, Except.pure_eq_ok, signer_ok, require_ok, orFail_ok, Ledger.exit, Account.program, if_true]
  constructor
  · rintro ⟨-, hsigner, b, hb, -, howner, balance, hbalance, rfl⟩
    exact ⟨b, balance, hsigner, hb, howner, hbalance, rfl⟩
  · rintro ⟨b, balance, hsigner, hb, howner, hbalance, rfl⟩
    exact ⟨(), hsigner, b, hb, (), howner, balance, hbalance, rfl⟩

theorem spendBudget_ok {b b' : Budget K} {owner : K} {amount : UInt64} (h : spendBudget b owner amount = .ok b') :
    b.owner = owner ∧ ∃ balance spent, balance.toNat + amount.toNat = b.balance.toNat ∧
      spent.toNat = b.spent.toNat + amount.toNat ∧ b' = { b with balance := balance, spent := spent } := by
  unfold spendBudget at h
  simp only [Except.bind_eq_ok, Except.pure_eq_ok, require_ok, orFail_ok, UInt64.checkedSub_eq_some,
    UInt64.checkedAdd_eq_some] at h
  obtain ⟨-, howner, -, -, balance, hbalance, spent, hspent, rfl⟩ := h
  exact ⟨howner, balance, spent, hbalance, hspent, rfl⟩

theorem spend_ok {i : MutBudget K} : spend c tx i σ = .ok τ ↔
    ∃ b b', i.owner ∈ tx.signers ∧ mutBudget c i.owner i.budget σ = .ok b ∧ spendBudget b i.owner i.amount = .ok b' ∧
      τ = OrdMap.set σ i.budget (.budget b') := by
  unfold spend
  simp only [Except.bind_eq_ok, Except.pure_eq_ok, signer_ok, Ledger.exit, Account.program, if_true]
  constructor
  · rintro ⟨-, hsigner, b, hb, b', hb', rfl⟩
    exact ⟨b, b', hsigner, hb, hb', rfl⟩
  · rintro ⟨b, b', hsigner, hb, hb', rfl⟩
    exact ⟨(), hsigner, b, hb, b', hb', rfl⟩

/-- A spend by a session checks the copy of the session and leaves the account as it was. -/
theorem spendWithSession_ok {i : SpendWithSession K} (h : spendWithSession c tx i σ = .ok τ) :
    ∃ s n s₁ b b', sessionAccounts c tx i.accounts σ = .ok (s, n) ∧ mutBudget c i.accounts.owner i.budget σ = .ok b ∧
      requireSessionActive s n i.accounts.owner i.accounts.session_key budgetSpend tx.now = .ok () ∧
      touchSession s tx.now = .ok s₁ ∧ checkSpend s₁ i.amount = .ok () ∧ spendBudget b i.accounts.owner i.amount = .ok b' ∧
      τ = OrdMap.set σ i.budget (.budget b') := by
  unfold spendWithSession at h
  simp only [Except.bind_eq_ok, Except.pure_eq_ok, Ledger.exit, Account.program, reduceCtorEq, if_true, if_false,
    Prod.exists] at h
  obtain ⟨s, n, haccounts, b, hb, ⟨⟩, hactive, s₁, htouch, ⟨⟩, hcheck, -, -, b', hb', rfl⟩ := h
  exact ⟨s, n, s₁, b, b', haccounts, hb, hactive, htouch, hcheck, hb', rfl⟩

/-! ## Royalties -/

theorem registerReceipt_ok {i : RegisterReceipt K} (h : registerReceipt c tx i σ = .ok τ) :
    ∃ bump r, findProgramAddress c .royaltyRouter (receiptSeeds i.payer i.payee i.content_hash) = some (i.receipt, bump) ∧
      Opened σ Account.receipt? i.receipt (zeroReceipt c) r ∧
      τ = OrdMap.set σ i.receipt (.receipt (writeReceipt i.payer i.payee i.amount i.content_hash r.bump tx.now)) := by
  unfold registerReceipt at h
  simp only [Except.bind_eq_ok, Except.pure_eq_ok, signer_ok, seedsFound_ok, initIfNeeded_ok, Ledger.exit, Account.program,
    if_true] at h
  obtain ⟨-, -, bump, hseeds, r, hopen, rfl⟩ := h
  exact ⟨bump, r, hseeds, hopen, rfl⟩

theorem routeRoyalty_ok {i : RouteRoyalty K} (h : routeRoyalty c tx i σ = .ok τ) :
    ∃ bump r υ, findProgramAddress c .royaltyRouter (receiptSeeds i.payer i.payee i.content_hash) = some (i.receipt, bump) ∧
      Opened σ Account.receipt? i.receipt (zeroReceipt c) r ∧ spend c tx ⟨i.payer, i.budget, i.amount⟩ σ = .ok υ ∧
      τ = OrdMap.set υ i.receipt (.receipt (writeReceipt i.payer i.payee i.amount i.content_hash bump tx.now)) := by
  unfold routeRoyalty at h
  simp only [Except.bind_eq_ok, Except.pure_eq_ok, signer_ok, seedsFound_ok, initIfNeeded_ok, Ledger.exit, Account.program,
    if_true] at h
  obtain ⟨-, -, bump, hseeds, r, hopen, -, -, υ, hspend, rfl⟩ := h
  exact ⟨bump, r, υ, hseeds, hopen, hspend, rfl⟩

theorem routeRoyaltyWithSession_ok {i : RouteRoyaltyWithSession K} (h : routeRoyaltyWithSession c tx i σ = .ok τ) :
    ∃ bump r υ,
      findProgramAddress c .royaltyRouter (receiptSeeds i.accounts.owner i.payee i.content_hash) = some (i.receipt, bump) ∧
      Opened σ Account.receipt? i.receipt (zeroReceipt c) r ∧
      spendWithSession c tx ⟨i.accounts, i.budget, i.amount⟩ σ = .ok υ ∧
      τ = OrdMap.set υ i.receipt (.receipt (writeReceipt i.accounts.owner i.payee i.amount i.content_hash bump tx.now)) := by
  unfold routeRoyaltyWithSession at h
  simp only [Except.bind_eq_ok, Except.pure_eq_ok, seedsFound_ok, initIfNeeded_ok, Ledger.exit, Account.program, reduceCtorEq,
    if_true, if_false, Prod.exists] at h
  obtain ⟨-, -, -, bump, hseeds, r, hopen, -, -, -, -, υ, hspend, rfl⟩ := h
  exact ⟨bump, r, υ, hseeds, hopen, hspend, rfl⟩

/-! ## Tokens -/

/-- What a transfer does: it moves nothing, or it takes `amount` from the source and credits the rest after the fee. -/
theorem transferWith_ok {signers : List K} {source destination mint authority : K} {amount fee : UInt64}
    (h : transferWith signers source destination mint authority amount fee σ = .ok τ) :
    ∃ src dst rest total, σ.view Account.tokenAccount? source = some src ∧ σ.view Account.tokenAccount? destination = some dst ∧
      src.program = dst.program ∧ src.mint = mint ∧ dst.mint = mint ∧ src.owner = authority ∧ authority ∈ signers ∧
      rest.toNat + amount.toNat = src.amount.toNat ∧ fee.toNat ≤ amount.toNat ∧
      total.toNat + fee.toNat = dst.amount.toNat + amount.toNat ∧
      τ = if source = destination then σ else OrdMap.set (OrdMap.set σ source (src.hold rest)) destination (dst.hold total) := by
  unfold transferWith at h
  simp only [Except.bind_eq_ok, Except.pure_eq_ok, load_ok, require_ok, orFail_ok, UInt64.checkedSub_eq_some,
    UInt64.checkedAdd_eq_some] at h
  obtain ⟨src, hsrc, dst, hdst, -, ⟨hprogram, hmint, hmint', howner⟩, -, hsigner, rest, hrest, credit, hcredit, total, htotal,
    rfl⟩ := h
  exact ⟨src, dst, rest, total, hsrc, hdst, hprogram, hmint, hmint', howner, hsigner, hrest, by omega, by omega, rfl⟩

theorem transferChecked_ok {now : Int64} {signers : List K} {program : TokenProgram} {source mintKey destination authority : K}
    {amount : UInt64} {decimals : UInt8}
    (h : transferChecked c now signers program source mintKey destination authority amount decimals σ = .ok τ) :
    ∃ mint, σ.view Account.mint? mintKey = some mint ∧ mint.program = program ∧
      transferWith signers source destination mintKey authority amount (withheld c now mintKey mint amount) σ = .ok τ := by
  unfold transferChecked at h
  simp only [Except.bind_eq_ok, load_ok, require_ok] at h
  obtain ⟨mint, hmint, -, ⟨hprogram, -⟩, h⟩ := h
  exact ⟨mint, hmint, hprogram, h⟩

theorem transfer_ok {signers : List K} {source destination authority : K} {amount : UInt64}
    (h : transfer signers source destination authority amount σ = .ok τ) :
    ∃ src, σ.view Account.tokenAccount? source = some src ∧ src.program = .token ∧
      transferWith signers source destination src.mint authority amount 0 σ = .ok τ := by
  unfold transfer at h
  simp only [Except.bind_eq_ok, load_ok, require_ok] at h
  obtain ⟨src, hsrc, -, hprogram, h⟩ := h
  exact ⟨src, hsrc, hprogram, h⟩

theorem mintTo_ok {signers : List K} {program : TokenProgram} {mintKey destination authority : K} {amount : UInt64}
    (h : mintTo signers program mintKey destination authority amount σ = .ok τ) :
    ∃ mint dst supply total, σ.view Account.mint? mintKey = some mint ∧
      σ.view Account.tokenAccount? destination = some dst ∧ total.toNat = dst.amount.toNat + amount.toNat ∧
      τ = OrdMap.set (OrdMap.set σ mintKey (.mint { mint with supply := supply })) destination (dst.hold total) := by
  unfold mintTo at h
  simp only [Except.bind_eq_ok, Except.pure_eq_ok, load_ok, require_ok, orFail_ok, UInt64.checkedAdd_eq_some] at h
  obtain ⟨mint, hmint, dst, hdst, -, -, -, -, supply, -, total, htotal, rfl⟩ := h
  exact ⟨mint, dst, supply, total, hmint, hdst, htotal, rfl⟩

theorem associated_ok {program : TokenProgram} {mint wallet k : K} {t : TokenAccount K}
    (h : associated c program mint wallet k σ = .ok t) :
    σ.view Account.tokenAccount? k = some t ∧ t.program = program ∧ t.mint = mint ∧ t.owner = wallet ∧
      associatedAddress c program wallet mint = some k := by
  unfold associated at h
  simp only [Except.bind_eq_ok, Except.pure_eq_ok, load_ok, require_ok] at h
  obtain ⟨t', ht, -, ⟨hprogram, hmint, howner⟩, -, haddress, rfl⟩ := h
  exact ⟨ht, hprogram, hmint, howner, haddress⟩

/-- After `init_if_needed` the associated account is there; if it was not, it is new and empty. -/
theorem initAssociated_ok {program : TokenProgram} {mint wallet k : K} (h : initAssociated c program mint wallet k σ = .ok τ) :
    associatedAddress c program wallet mint = some k ∧
      ((σ.get k = none ∧ (∃ m, σ.view Account.mint? mint = some m ∧ m.program = program) ∧
          τ = OrdMap.set σ k (.tokenAccount ⟨program, mint, wallet, 0⟩)) ∨
        τ = σ ∧ ∃ t, σ.view Account.tokenAccount? k = some t ∧ t.program = program ∧ t.mint = mint ∧ t.owner = wallet) := by
  unfold initAssociated at h
  split at h
  · rename_i hnone
    simp only [Except.bind_eq_ok, Except.pure_eq_ok, load_ok, require_ok] at h
    obtain ⟨m, hm, -, hprogram, -, haddress, rfl⟩ := h
    exact ⟨haddress, .inl ⟨Option.isNone_iff_eq_none.1 hnone, ⟨m, hm, hprogram⟩, rfl⟩⟩
  · simp only [Except.bind_eq_ok, Except.pure_eq_ok] at h
    obtain ⟨t, ht, rfl⟩ := h
    obtain ⟨hview, hprogram, hmint, howner, haddress⟩ := associated_ok ht
    exact ⟨haddress, .inr ⟨rfl, t, hview, hprogram, hmint, howner⟩⟩

theorem initializeMint_ok {i : InitializeMint K} (h : initializeMint tx i σ = .ok τ) :
    σ.get i.mint = none ∧ i.mint ∈ tx.signers ∧ τ = OrdMap.set σ i.mint (.mint ⟨i.program, i.mint_authority, 0, i.decimals⟩) := by
  unfold initializeMint at h
  simp only [Except.bind_eq_ok, Except.pure_eq_ok, signer_ok, init_ok] at h
  obtain ⟨-, hsigner, m, ⟨hnone, rfl⟩, rfl⟩ := h
  exact ⟨hnone, hsigner, exit_own rfl⟩

theorem initializeAccount_ok {i : InitializeAccount K} (h : initializeAccount tx i σ = .ok τ) :
    σ.get i.account = none ∧ i.account ∈ tx.signers ∧ (∃ m, σ.view Account.mint? i.mint = some m ∧ m.program = i.program) ∧
      τ = OrdMap.set σ i.account (.tokenAccount ⟨i.program, i.mint, i.owner, 0⟩) := by
  unfold initializeAccount at h
  simp only [Except.bind_eq_ok, Except.pure_eq_ok, signer_ok, load_ok, require_ok, init_ok] at h
  obtain ⟨-, hsigner, m, hm, -, hprogram, t, ⟨hnone, rfl⟩, rfl⟩ := h
  exact ⟨hnone, hsigner, ⟨m, hm, hprogram⟩, exit_own rfl⟩

/-! ## Token budgets -/

theorem createTokenBudget_ok {i : CreateTokenBudget K} (h : createTokenBudget c tx i σ = .ok τ) :
    ∃ bump b υ, i.owner ∈ tx.signers ∧
      findProgramAddress c .budgetEscrow (tokenBudgetSeeds i.owner i.mint) = some (i.token_budget, bump) ∧
      Opened σ Account.tokenBudget? i.token_budget (zeroTokenBudget c) b ∧
      initAssociated c i.token_program i.mint i.token_budget i.vault σ = .ok υ ∧ b.owner = c.default ∧
      τ = OrdMap.set υ i.token_budget (.tokenBudget ⟨i.owner, i.mint, 0, 0, bump⟩) := by
  unfold createTokenBudget at h
  simp only [Except.bind_eq_ok, Except.pure_eq_ok, signer_ok, load_ok, seedsFound_ok, initIfNeeded_ok, require_ok, Ledger.exit,
    Account.program, if_true] at h
  obtain ⟨-, hsigner, m, hm, bump, hseeds, b, hopen, υ, hinit, -, howner, rfl⟩ := h
  exact ⟨bump, b, υ, hsigner, hseeds, hopen, hinit, howner, rfl⟩

theorem depositedBudget_ok {owner mint : K} {bump : UInt8} {b b' : TokenBudget K}
    (h : depositedBudget c owner mint bump b = .ok b') : b' = ⟨owner, mint, b.balance, b.spent, b'.bump⟩ := by
  unfold depositedBudget at h
  split at h
  · cases h
    rfl
  · simp only [Except.bind_eq_ok, Except.pure_eq_ok, require_ok] at h
    obtain ⟨-, rfl, -, rfl, rfl⟩ := h
    rfl

theorem depositToken_ok {i : TokenBudgetAccounts K} (h : depositToken c tx i σ = .ok τ) :
    ∃ mint bump bump' b υ ω balance, i.owner ∈ tx.signers ∧ σ.view Account.mint? i.mint = some mint ∧
      findProgramAddress c .budgetEscrow (tokenBudgetSeeds i.owner i.mint) = some (i.token_budget, bump) ∧
      Opened σ Account.tokenBudget? i.token_budget (zeroTokenBudget c) b ∧
      initAssociated c i.token_program i.mint i.token_budget i.vault σ = .ok υ ∧
      transferChecked c tx.now tx.signers i.token_program i.owner_ata i.mint i.vault i.owner i.amount mint.decimals υ = .ok ω ∧
      balance.toNat = b.balance.toNat + i.amount.toNat ∧
      τ = OrdMap.set ω i.token_budget (.tokenBudget ⟨i.owner, i.mint, balance, b.spent, bump'⟩) := by
  unfold depositToken at h
  simp only [Except.bind_eq_ok, Except.pure_eq_ok, signer_ok, load_ok, seedsFound_ok, initIfNeeded_ok, require_ok, orFail_ok,
    UInt64.checkedAdd_eq_some, Ledger.exit, Account.program, if_true] at h
  obtain ⟨-, hsigner, mint, hmint, bump, hseeds, b, hopen, -, -, υ, hinit, -, -, b', hb', ω, htransfer, balance, hbalance,
    rfl⟩ := h
  rw [depositedBudget_ok hb'] at hbalance ⊢
  exact ⟨mint, bump, b'.bump, b, υ, ω, balance, hsigner, hmint, hseeds, hopen, hinit, htransfer, hbalance, rfl⟩

theorem spendToken_ok {i : TokenBudgetAccounts K} (h : spendToken c tx i σ = .ok τ) :
    ∃ mint b t ω balance spent, i.owner ∈ tx.signers ∧ σ.view Account.mint? i.mint = some mint ∧
      σ.view Account.tokenBudget? i.token_budget = some b ∧
      c.createProgramAddress .budgetEscrow (tokenBudgetSeeds i.owner i.mint) b.bump = some i.token_budget ∧
      associated c i.token_program i.mint i.token_budget i.vault σ = .ok t ∧ b.owner = i.owner ∧ b.mint = i.mint ∧
      transferChecked c tx.now (tx.signers ++ [i.token_budget]) i.token_program i.vault i.mint i.owner_ata i.token_budget i.amount
        mint.decimals σ = .ok ω ∧
      balance.toNat + i.amount.toNat = b.balance.toNat ∧ spent.toNat = b.spent.toNat + i.amount.toNat ∧
      τ = OrdMap.set ω i.token_budget (.tokenBudget { b with balance := balance, spent := spent }) := by
  unfold spendToken at h
  simp only [Except.bind_eq_ok, Except.pure_eq_ok, signer_ok, load_ok, seedsWithBump_ok, require_ok, orFail_ok,
    UInt64.checkedAdd_eq_some, UInt64.checkedSub_eq_some, Ledger.exit, Account.program, if_true] at h
  obtain ⟨-, hsigner, mint, hmint, b, hb, -, hseeds, -, -, t, ht, -, -, -, howner, -, hbmint, -, -, ω, htransfer, balance,
    hbalance, spent, hspent, rfl⟩ := h
  rw [signersWith, hseeds] at htransfer
  exact ⟨mint, b, t, ω, balance, spent, hsigner, hmint, hb, hseeds, ht, howner, hbmint, htransfer, hbalance, hspent, rfl⟩

theorem depositTokenWithSession_ok {i : DepositTokenWithSession K} (h : depositTokenWithSession c tx i σ = .ok τ) :
    ∃ s n s₁ mint bump b src υ ω balance, sessionAccounts c tx i.accounts σ = .ok (s, n) ∧ touchSession s tx.now = .ok s₁ ∧
      σ.view Account.mint? i.mint = some mint ∧ mint.program = .token ∧
      findProgramAddress c .budgetEscrow (tokenBudgetSeeds i.accounts.owner i.mint) = some (i.token_budget, bump) ∧
      Opened σ Account.tokenBudget? i.token_budget (zeroTokenBudget c) b ∧
      σ.view Account.tokenAccount? i.source = some src ∧ src.mint = i.mint ∧
      initAssociated c .token i.mint i.token_budget i.vault σ = .ok υ ∧
      transfer tx.signers i.source i.vault i.accounts.session_key i.amount υ = .ok ω ∧
      balance.toNat = b.balance.toNat + i.amount.toNat ∧
      τ = OrdMap.set ω i.token_budget (.tokenBudget ⟨i.accounts.owner, i.mint, balance, b.spent, bump⟩) := by
  unfold depositTokenWithSession at h
  simp only [Except.bind_eq_ok, Except.pure_eq_ok, load_ok, seedsFound_ok, initIfNeeded_ok, require_ok, orFail_ok,
    UInt64.checkedAdd_eq_some, Ledger.exit, Account.program, reduceCtorEq, if_true, if_false, Prod.exists] at h
  obtain ⟨s, n, haccounts, mint, hmint, -, hprogram, bump, hseeds, b, hopen, src, hsrc, -, -, -, ⟨-, hsrcmint⟩, υ, hinit, -, -,
    s₁, htouch, ω, htransfer, balance, hbalance, rfl⟩ := h
  exact ⟨s, n, s₁, mint, bump, b, src, υ, ω, balance, haccounts, htouch, hmint, hprogram, hseeds, hopen, hsrc, hsrcmint, hinit,
    htransfer, hbalance, rfl⟩

/-! ## Stakes and votes -/

theorem stakeForVesal_ok {i : StakeForVesal K} (h : stakeForVesal c tx i σ = .ok τ) :
    ∃ bump υ ω, findProgramAddress c .cortexToken (stakeSeeds i.owner i.nonce) = some (i.stake, bump) ∧ σ.get i.stake = none ∧
      initAssociated c .token i.mint i.stake_vault_authority i.stake_vault σ = .ok υ ∧
      transfer tx.signers i.owner_ata i.stake_vault i.owner i.amount υ = .ok ω ∧
      τ = OrdMap.set ω i.stake (.stake ⟨i.owner, i.mint, i.amount, i.nonce, bump⟩) := by
  unfold stakeForVesal at h
  simp only [Except.bind_eq_ok, Except.pure_eq_ok, signer_ok, load_ok, seedsFound_ok, require_ok, init_ok, Ledger.exit,
    Account.program, if_true] at h
  obtain ⟨-, -, -, -, -, -, bump, hseeds, s, ⟨hnone, rfl⟩, -, -, -, -, υ, hinit, ω, htransfer, rfl⟩ := h
  exact ⟨bump, υ, ω, hseeds, hnone, hinit, htransfer, rfl⟩

theorem lockVesal_ok {i : LockVesal K} (h : lockVesal c tx i σ = .ok τ) :
    ∃ s bump lockEnd, σ.view Account.stake? i.stake = some s ∧ s.owner = i.owner ∧
      findProgramAddress c .cortexToken (vesalSeeds i.owner i.stake) = some (i.vesal, bump) ∧ σ.get i.vesal = none ∧
      τ = OrdMap.set (OrdMap.set σ i.stake (.stake s)) i.vesal (.veSal ⟨i.owner, i.stake, s.amount, tx.now, lockEnd, bump⟩) := by
  unfold lockVesal at h
  simp only [Except.bind_eq_ok, Except.pure_eq_ok, signer_ok, load_ok, seedsWithBump_ok, seedsFound_ok, require_ok, orFail_ok,
    init_ok, Ledger.exit, Account.program, if_true] at h
  obtain ⟨-, -, s, hs, -, -, -, howner, bump, hseeds, lockEnd, -, v, ⟨hnone, rfl⟩, rfl⟩ := h
  exact ⟨s, bump, lockEnd, hs, howner, hseeds, hnone, rfl⟩

theorem createProposal_ok {i : CreateProposal K} (h : createProposal c tx i σ = .ok τ) :
    ∃ bump, findProgramAddress c .cortexToken (proposalSeeds i.proposer i.id) = some (i.proposal, bump) ∧
      σ.get i.proposal = none ∧ τ = OrdMap.set σ i.proposal (.proposal ⟨i.proposer, i.id, 0, 0, bump⟩) := by
  unfold createProposal at h
  simp only [Except.bind_eq_ok, Except.pure_eq_ok, signer_ok, seedsFound_ok, init_ok, Ledger.exit, Account.program,
    if_true] at h
  obtain ⟨-, -, bump, hseeds, p, ⟨hnone, rfl⟩, rfl⟩ := h
  exact ⟨bump, hseeds, hnone, rfl⟩

theorem vote_ok {i : Vote K} (h : vote c tx i σ = .ok τ) :
    ∃ s v p bump r p', σ.view Account.stake? i.stake = some s ∧ s.owner = i.voter ∧
      σ.view Account.veSal? i.vesal = some v ∧
      c.createProgramAddress .cortexToken (vesalSeeds i.voter i.stake) v.bump = some i.vesal ∧ v.stake = i.stake ∧
      σ.view Account.proposal? i.proposal = some p ∧
      findProgramAddress c .cortexToken (voteSeeds i.proposal i.voter) = some (i.vote_receipt, bump) ∧
      Opened σ Account.voteReceipt? i.vote_receipt ⟨c.default, c.default, 0, 0, 0⟩ r ∧ (i.side = 0 ∨ i.side = 1) ∧
      r.weight = 0 ∧ tx.now < v.lock_end ∧ p.count i.side v.amount = some p' ∧
      τ = OrdMap.set (OrdMap.set (OrdMap.set σ i.stake (.stake s)) i.proposal (.proposal p')) i.vote_receipt
        (.voteReceipt ⟨i.voter, i.proposal, v.amount, i.side, bump⟩) := by
  unfold vote at h
  simp only [Except.bind_eq_ok, Except.pure_eq_ok, signer_ok, load_ok, seedsWithBump_ok, seedsFound_ok, initIfNeeded_ok,
    require_ok, orFail_ok, Ledger.exit, Account.program, if_true] at h
  obtain ⟨-, -, s, hs, -, -, -, howner, v, hv, -, hseeds, -, hstake, p, hp, bump, hfound, r, hopen, -, hside, -, hweight, -,
    hlock, p', hp', rfl⟩ := h
  exact ⟨s, v, p, bump, r, p', hs, howner, hv, hseeds, hstake, hp, hfound, hopen, hside, hweight, hlock, hp', rfl⟩

theorem mintToTreasury_ok {i : MintToTreasury K} (h : mintToTreasury c tx i σ = .ok τ) :
    mintTo (tx.signers ++ [i.mint_authority]) .token i.mint i.treasury i.mint_authority i.amount σ = .ok τ := by
  unfold mintToTreasury at h
  obtain ⟨-, -, h⟩ := Except.bind_eq_ok.1 h
  exact h

theorem transferTokens_ok {i : TransferTokens K} (h : transferTokens c tx i σ = .ok τ) :
    transfer tx.signers i.from_ata i.to_ata i.sender i.amount σ = .ok τ := by
  unfold transferTokens at h
  simp only [Except.bind_eq_ok] at h
  obtain ⟨-, -, -, -, -, -, h⟩ := h
  exact h

end EnigmaMemory.Cortex
