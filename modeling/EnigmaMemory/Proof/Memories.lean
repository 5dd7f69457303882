import EnigmaMemory.Proof.Sessions

/-!
# Memories over runs

A memory is filed under a bump that is found, but the bump it stores is never written.

* `memories_manageable_iff`: the owners of all memories of a run can manage them exactly when the run
  creates no memory; no owner can change or delete a memory that exists.
* `creation_keeps_iff`: what a creation leaves of a memory that is there.
-/

namespace EnigmaMemory.Cortex

variable {K : Type} [DecidableEq K] {c : Runtime K} {tx : Tx c} {σ τ υ : Ledger K} {st : Step c} {k : K} {m : Memory K}

/-- The memory that an instruction creates, and its content hash. -/
def Instruction.creation? : Instruction K → Option (K × Hash)
  | .memory (.registerMemory i) | .memory (.createMemory i) => some (i.memory, i.content_hash)
  | .memory (.createMemoryWithSession i) => some (i.memory, i.content_hash)
  | _ => none

/-- A step that creates a memory, or writes one again where it stands. -/
theorem step_creation {hash : Hash} (h : step c σ st = some τ) (hi : st.instruction.creation? = some (k, hash)) :
    ∃ owner bump m, findProgramAddress c .memoryRegistry (memorySeeds owner hash) = some (k, bump) ∧
      Opened σ Account.memory? k (zeroMemory c) m ∧ τ = OrdMap.set σ k (.memory (initMemory m owner hash st.tx.now)) := by
  have h := step_ok.1 h
  rcases hst : st.instruction with i | i | i | i | i | i <;> rw [hst] at h hi <;> try cases hi
  cases i with
  | registerMemory i | createMemory i =>
    cases hi
    obtain ⟨bump, m, -, hfound, hopen, rfl⟩ := registerMemory_ok.1 h
    exact ⟨i.owner, bump, m, hfound, hopen, rfl⟩
  | createMemoryWithSession i =>
    cases hi
    obtain ⟨s, bump, m, -, hfound, hopen, rfl⟩ := createMemoryWithSession_ok.1 h
    exact ⟨i.accounts.owner, bump, m, hfound, hopen, rfl⟩
  | _ => cases hi

/-- **What a step does to the memories.** -/
theorem step_memories (h : step c σ st = some τ) :
    (∃ k hash, st.instruction.creation? = some (k, hash)) ∨ st.instruction.creation? = none ∧
      ((∀ k, τ.view Account.memory? k = σ.view Account.memory? k) ∨
        (∃ k m m', σ.view Account.memory? k = some m ∧ τ = OrdMap.set σ k (.memory m') ∧ m'.owner = m.owner ∧
          m'.bump = m.bump) ∨
        ∃ k, τ = σ.close k) := by
  have hother : ∀ {ps : List Program}, Owned ps σ τ → Program.memoryRegistry ∉ ps →
      ∀ k, τ.view Account.memory? k = σ.view Account.memory? k := fun h hp _ => h.view stores_memory fun _ => hp
  have h := step_ok.1 h
  cases hi : st.instruction with
  | memory i =>
    rw [hi] at h
    cases i with
    | registerMemory i | createMemory i => exact .inl ⟨_, _, rfl⟩
    | createMemoryWithSession i => exact .inl ⟨_, _, rfl⟩
    | updateMemory i =>
      obtain ⟨m, hm, rfl⟩ := updateMemory_ok.1 h
      exact .inr ⟨rfl, .inr (.inl ⟨_, m, _, (ownedMemory_ok.1 hm).2.1, rfl, rfl, rfl⟩)⟩
    | setShareable i =>
      obtain ⟨m, hm, rfl⟩ := setShareable_ok h
      exact .inr ⟨rfl, .inr (.inl ⟨_, m, _, (ownedMemory_ok.1 hm).2.1, rfl, rfl, rfl⟩)⟩
    | updateMemoryWithSession i =>
      obtain ⟨m, s, hm, -, rfl⟩ := updateMemoryWithSession_ok h
      exact .inr ⟨rfl, .inr (.inl ⟨_, m, _, (sessionMemory_ok.1 hm).1, rfl, rfl, rfl⟩)⟩
    | deleteMemory i =>
      obtain ⟨m, hm, rfl⟩ := deleteMemory_ok.1 h
      exact .inr ⟨rfl, .inr (.inr ⟨_, rfl⟩)⟩
    | deleteMemoryWithSession i =>
      obtain ⟨m, s, hm, -, rfl⟩ := deleteMemoryWithSession_ok h
      exact .inr ⟨rfl, .inr (.inr ⟨_, rfl⟩)⟩
  | capability i =>
    rw [hi] at h
    exact .inr ⟨rfl, .inl (hother (capability_owned h) (by decide))⟩
  | budget i =>
    rw [hi] at h
    exact .inr ⟨rfl, .inl (hother (budget_owned h) (by decide))⟩
  | royalty i =>
    rw [hi] at h
    exact .inr ⟨rfl, .inl (hother (royalty_owned h) (by decide))⟩
  | token i =>
    rw [hi] at h
    exact .inr ⟨rfl, .inl (hother (token_owned h) (by decide))⟩
  | spl i =>
    rw [hi] at h
    exact .inr ⟨rfl, .inl (hother (spl_owned h) (by decide))⟩

/-! ## Where memories are filed -/

/-- Every memory stands at an address that is found for its owner, and stores the bump zero. -/
def MemoriesFiled (c : Runtime K) (σ : Ledger K) : Prop :=
  ∀ k m, σ.view Account.memory? k = some m → m.bump = 0 ∧
    ∃ hash bump, findProgramAddress c .memoryRegistry (memorySeeds m.owner hash) = some (k, bump)

theorem step_memoriesFiled (hfiled : MemoriesFiled c σ) (h : step c σ st = some τ) : MemoriesFiled c τ := by
  intro k' m' hm'
  rcases step_memories h with ⟨k, hash, hi⟩ | ⟨-, hsame | ⟨k, m, m₁, hm, rfl, howner, hbump⟩ | ⟨k, rfl⟩⟩
  · obtain ⟨owner, bump, m, hfound, hopen, rfl⟩ := step_creation h hi
    rw [view_set] at hm'
    split at hm'
    · rename_i hk
      cases hm'
      subst hk
      refine ⟨?_, hash, bump, hfound⟩
      -- a new account is zero, and `init_memory` keeps the bump of an old one
      rcases hopen with ⟨-, rfl⟩ | hview
      · rfl
      · exact (hfiled _ _ hview).1
    · exact hfiled k' m' hm'
  · exact hfiled k' m' (hsame k' ▸ hm')
  · rw [view_set] at hm'
    split at hm'
    · rename_i hk
      cases hm'
      subst hk
      rw [howner, hbump]
      exact hfiled _ _ hm
    · exact hfiled k' m' hm'
  · rw [view_close] at hm'
    split at hm'
    · cases hm'
    · exact hfiled k' m' hm'

theorem memoriesFiled_genesis : MemoriesFiled c genesis := by
  intro k m hm
  rw [view_genesis] at hm
  cases hm

theorem run_memoriesFiled {steps : List (Step c)} (h : run c genesis steps = some σ) : MemoriesFiled c σ :=
  Run.run_invariant (fun _ _ _ hs h => step_memoriesFiled hs h) memoriesFiled_genesis h

/-! ## Managing a memory -/

/-- No address of a memory is derived with the bump it stores: the search never tries zero. -/
theorem MemoriesFiled.underived (hfiled : MemoriesFiled c σ) (hm : σ.view Account.memory? k = some m) (seeds : List (Seed K)) :
    c.createProgramAddress .memoryRegistry seeds m.bump ≠ some k := by
  intro hderived
  obtain ⟨hzero, hash, bump, hfound⟩ := hfiled k m hm
  have hbump : bump = m.bump := (findProgramAddress_seeds hfound hderived).2.2
  exact (findProgramAddress_create hfound).2 (hbump.trans hzero)

theorem MemoriesFiled.ownedMemory_ne (hfiled : MemoriesFiled c σ) {owner : K} : ownedMemory c tx owner k σ ≠ .ok m := by
  intro h
  obtain ⟨-, hm, hderived, -⟩ := ownedMemory_ok.1 h
  exact hfiled.underived hm _ hderived

/-- A memory that its owner can manage: its address is derived with the bump it stores, and its owner can update and delete it. -/
structure Manageable (c : Runtime K) (σ : Ledger K) (k : K) (m : Memory K) : Prop where
  derived : c.createProgramAddress .memoryRegistry (memorySeeds m.owner m.content_hash) m.bump = some k
  update : ∀ (tx : Tx c) hash, m.owner ∈ tx.signers → ∃ τ, updateMemory c tx ⟨m.owner, k, hash⟩ σ = .ok τ
  delete : ∀ tx : Tx c, m.owner ∈ tx.signers → ∃ τ, deleteMemory c tx ⟨m.owner, k⟩ σ = .ok τ

def AllManageable (c : Runtime K) (σ : Ledger K) : Prop := ∀ k m, σ.view Account.memory? k = some m → Manageable c σ k m

theorem allManageable_iff (hfiled : MemoriesFiled c σ) : AllManageable c σ ↔ ∀ k, σ.view Account.memory? k = none := by
  constructor
  · intro hall k
    refine Option.eq_none_iff_forall_not_mem.2 fun m hm => ?_
    exact hfiled.underived hm _ (hall k m hm).derived
  · intro hnone k m hm
    rw [hnone] at hm
    cases hm

/-- Where there is no memory, a step leaves none exactly when it creates none. -/
theorem step_manageable_iff (hfiled : MemoriesFiled c σ) (hall : AllManageable c σ) (h : step c σ st = some τ) :
    AllManageable c τ ↔ st.instruction.creation? = none := by
  rw [allManageable_iff hfiled] at hall
  rw [allManageable_iff (step_memoriesFiled hfiled h)]
  rcases step_memories h with ⟨k, hash, hi⟩ | ⟨hi, hsame | ⟨k, m, m', hm, -⟩ | ⟨k, rfl⟩⟩
  · obtain ⟨owner, bump, m, -, -, rfl⟩ := step_creation h hi
    refine iff_of_false (fun hnone => ?_) (by simp [hi])
    have hview := hnone k
    rw [view_set, if_pos rfl] at hview
    cases hview
  · exact iff_of_true (fun k => (hsame k).trans (hall k)) hi
  · rw [hall] at hm
    cases hm
  · refine iff_of_true (fun k' => ?_) hi
    rw [view_close, hall, ite_self]

/-- **Memories can be managed exactly in the runs that create none**, and the instructions of the owner fail on every memory. -/
theorem memories_manageable_iff (c : Runtime K) {steps : List (Step c)} {σ : Ledger K} (h : run c genesis steps = some σ) :
    ((∀ l τ, l <+: steps → run c genesis l = some τ → AllManageable c τ) ↔
      ∀ st ∈ steps, st.instruction.creation? = none) ∧
    ∀ k m, σ.view Account.memory? k = some m →
      c.createProgramAddress .memoryRegistry (memorySeeds m.owner m.content_hash) m.bump ≠ some k ∧
      ∀ (tx : Tx c) (τ : Ledger K), (∀ i, i.memory = k → updateMemory c tx i σ ≠ .ok τ) ∧
        (∀ i, i.memory = k → setShareable c tx i σ ≠ .ok τ) ∧ ∀ i, i.memory = k → deleteMemory c tx i σ ≠ .ok τ := by
  have hgenesis : AllManageable c genesis := (allManageable_iff memoriesFiled_genesis).2 fun k => view_genesis
  constructor
  · have hiff := Run.forall_prefix_iff (I := fun τ => MemoriesFiled c τ ∧ AllManageable c τ)
      (C := fun _ st => st.instruction.creation? = none)
      (fun σ st τ hσ hst => by
        rw [← step_manageable_iff hσ.1 hσ.2 hst]
        exact and_iff_right (step_memoriesFiled hσ.1 hst)) steps genesis σ ⟨memoriesFiled_genesis, hgenesis⟩ h
    rw [← Run.all_const h, ← hiff]
    constructor
    · exact fun hall l τ hl hτ => ⟨run_memoriesFiled hτ, hall l τ hl hτ⟩
    · exact fun hall l τ hl hτ => (hall l τ hl hτ).2
  · intro k m hm
    have hfiled := run_memoriesFiled h
    refine ⟨hfiled.underived hm _, fun tx τ => ⟨?_, ?_, ?_⟩⟩
    · rintro i rfl hi
      obtain ⟨m', hm', -⟩ := updateMemory_ok.1 hi
      exact hfiled.ownedMemory_ne hm'
    · rintro i rfl hi
      obtain ⟨m', hm', -⟩ := setShareable_ok hi
      exact hfiled.ownedMemory_ne hm'
    · rintro i rfl hi
      obtain ⟨m', hm', -⟩ := deleteMemory_ok.1 hi
      exact hfiled.ownedMemory_ne hm'

namespace ReferenceChain

/-- A content hash: seven bytes zero, two that are given, and the rest zero. -/
def contentHash (eighth ninth : UInt8) : Hash := ⟨(List.replicate 7 0 ++ [eighth, ninth] ++ List.replicate 23 0).toArray, rfl⟩

def memoryKey : Address := address .memoryRegistry (memorySeeds owner (contentHash 7 0))

/-- The owner registers a memory. -/
def register (ninth : UInt8) (now : Int64) : Step referenceChain :=
  signedBy 1 now (.memory (.registerMemory ⟨owner, memoryKey, contentHash 7 ninth⟩))

/-- The session creates a memory at the same address. -/
def sessionCreate (ninth : UInt8) (now : Int64) : Step referenceChain :=
  signedBy 2 now (.memory (.createMemoryWithSession ⟨bySession, memoryKey, contentHash 7 ninth⟩))

end ReferenceChain

open ReferenceChain in
theorem memories_manageable_none : ∃ σ, run referenceChain genesis [openSession 31 0] = some σ ∧ AllManageable referenceChain σ := by
  have hrun : (run referenceChain genesis [openSession 31 0]).isSome = true := by decide
  obtain ⟨σ, hσ⟩ := Option.isSome_iff_exists.1 hrun
  refine ⟨σ, hσ, (memories_manageable_iff referenceChain hσ).1.2 ?_ _ σ List.prefix_rfl hσ⟩
  intro st hst
  cases List.mem_singleton.1 hst
  rfl

open ReferenceChain in
/-- The owner of a new memory can neither update nor delete it. -/
theorem registered_memory_unmanageable : ¬ ∀ σ, run referenceChain genesis [register 0 1000] = some σ →
    AllManageable referenceChain σ := by
  intro hall
  have hview : ((run referenceChain genesis [register 0 1000]).bind fun σ => σ.view Account.memory? memoryKey).isSome = true := by
    decide
  obtain ⟨m, hm⟩ := Option.isSome_iff_exists.1 hview
  obtain ⟨σ, hσ, hm⟩ := Option.bind_eq_some_iff.1 hm
  exact (run_memoriesFiled hσ).underived hm _ (hall σ hσ memoryKey m hm).derived

/-! ## Creating a memory that is there -/

/-- What a creation promises to keep of a memory that is there. -/
def SameMemory (m m' : Memory K) : Prop :=
  m'.content_hash = m.content_hash ∧ m'.created_at = m.created_at ∧ m'.shareable = m.shareable ∧ m'.royalty_bps = m.royalty_bps

/-- **A creation keeps a memory that is there exactly when it writes what it held**: the same hash at the same time, not
shareable, without royalty. -/
theorem creation_keeps_iff (c : Runtime K) {σ τ : Ledger K} {st : Step c} {k : K} {hash : Hash} {m : Memory K}
    (h : step c σ st = some τ) (hi : st.instruction.creation? = some (k, hash)) (hm : σ.view Account.memory? k = some m) :
    (∃ m', τ.view Account.memory? k = some m' ∧ SameMemory m m') ↔
      hash = m.content_hash ∧ st.tx.now = m.created_at ∧ m.shareable = false ∧ m.royalty_bps = 0 := by
  obtain ⟨owner, bump, m₀, -, hopen, rfl⟩ := step_creation h hi
  have hthere : m₀ = m := by
    rcases hopen with ⟨hnone, -⟩ | hview
    · rw [view_none hnone] at hm
      cases hm
    · exact Option.some.inj (hview.symm.trans hm)
  subst hthere
  rw [view_set, if_pos rfl]
  constructor
  · rintro ⟨m', hm', hhash, hcreated, hshareable, hroyalty⟩
    cases hm'
    exact ⟨hhash, hcreated, hshareable.symm, hroyalty.symm⟩
  · rintro ⟨hhash, hcreated, hshareable, hroyalty⟩
    exact ⟨_, rfl, hhash, hcreated, hshareable.symm, hroyalty.symm⟩

open ReferenceChain in
theorem creation_keeps_same : ∃ σ τ m, run referenceChain genesis [openSession 1 0, register 0 1000] = some σ ∧
    σ.view Account.memory? memoryKey = some m ∧ step referenceChain σ (sessionCreate 0 1000) = some τ ∧
    ∃ m', τ.view Account.memory? memoryKey = some m' ∧ SameMemory m m' := by
  have hrun : ((run referenceChain genesis [openSession 1 0, register 0 1000]).bind fun σ =>
      (σ.view Account.memory? memoryKey).bind fun m => (step referenceChain σ (sessionCreate 0 1000)).map fun _ =>
        (m.content_hash, m.created_at, m.shareable, m.royalty_bps)) = some (contentHash 7 0, 1000, false, 0) := by decide
  obtain ⟨σ, hσ, h⟩ := Option.bind_eq_some_iff.1 hrun
  obtain ⟨m, hm, h⟩ := Option.bind_eq_some_iff.1 h
  obtain ⟨τ, hτ, h⟩ := Option.map_eq_some_iff.1 h
  simp only [Prod.mk.injEq] at h
  obtain ⟨hhash, hcreated, hshareable, hroyalty⟩ := h
  exact ⟨σ, τ, m, hσ, hm, hτ, (creation_keeps_iff referenceChain hτ rfl hm).2 ⟨hhash.symm, hcreated.symm, hshareable, hroyalty⟩⟩

open ReferenceChain in
/-- A session with the scope `MEMORY_CREATE` alone rewrites a memory: another hash with the same first eight bytes, a second
later. -/
theorem session_rewrites_memory : ¬ ∀ σ τ m, run referenceChain genesis [openSession memoryCreate 0, register 0 1000] = some σ →
    σ.view Account.memory? memoryKey = some m → step referenceChain σ (sessionCreate 9 1001) = some τ →
    ∃ m', τ.view Account.memory? memoryKey = some m' ∧ SameMemory m m' := by
  intro hall
  have hrun : ((run referenceChain genesis [openSession memoryCreate 0, register 0 1000]).bind fun σ =>
      (σ.view Account.memory? memoryKey).bind fun m => (step referenceChain σ (sessionCreate 9 1001)).bind fun τ =>
        (τ.view Account.memory? memoryKey).map fun m' => (m.created_at, m'.created_at)) = some (1000, 1001) := by decide
  obtain ⟨σ, hσ, h⟩ := Option.bind_eq_some_iff.1 hrun
  obtain ⟨m, hm, h⟩ := Option.bind_eq_some_iff.1 h
  obtain ⟨τ, hτ, h⟩ := Option.bind_eq_some_iff.1 h
  obtain ⟨m₁, hm₁, h⟩ := Option.map_eq_some_iff.1 h
  obtain ⟨hbefore, hafter⟩ := Prod.mk.inj h
  obtain ⟨m', hm', hsame⟩ := hall σ τ m hσ hm hτ
  cases hm₁.symm.trans hm'
  have hkept := hsame.2.1
  rw [hbefore, hafter] at hkept
  exact absurd hkept (by decide)

end EnigmaMemory.Cortex
