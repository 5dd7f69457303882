import EnigmaMemory.Lib.Run
import EnigmaMemory.Proof.Markers
import EnigmaMemory.Proof.VaultSteps

/-!
# What every call keeps

A call that throws leaves behind what it has written so far, so what holds after every
call is proved statement by statement, for both outcomes (`EStateM.Keeps`).

* `exec_grows`: no call changes the identity of the vault, removes a tombstone or makes
  anything but a memory address active.
-/

namespace EnigmaMemory

open EStateM (Keeps keeps_bind keeps_pure keeps_get keeps_modify)

variable {P : Platform}

/-- A tombstoned address, named by its tombstone. -/
def Buried (v : Vault) (a : JsString) : Prop :=
  ∃ t, v.tombstones.get a = some t ∧ addrOf (t.get (js "memory_addr")) = some a

theorem Buried.has {v : Vault} {a : JsString} (h : Buried v a) : v.tombstones.has a = true := by
  obtain ⟨t, ht, -⟩ := h
  exact OrdMap.has_eq_true.2 ⟨t, ht⟩

/-- What a vault may become. -/
structure Grows (v v' : Vault) : Prop where
  signingKeyPair : v'.signingKeyPair = v.signingKeyPair
  signer : v'.signer = v.signer
  tenant_id : v'.tenant_id = v.tenant_id
  subject_id : v'.subject_id = v.subject_id
  policy_id : v'.policy_id = v.policy_id
  created_at : v'.created_at = v.created_at
  addressKey : v'.addressKey = v.addressKey
  sequence : v.sequence ≤ v'.sequence
  active : ∀ a ∈ v'.activeAddresses, a ∈ v.activeAddresses ∨ a.all isQuiet = true
  buried : ∀ a, Buried v a → Buried v' a

namespace Grows

theorem refl (v : Vault) : Grows v v :=
  ⟨rfl, rfl, rfl, rfl, rfl, rfl, rfl, le_rfl, fun _ => Or.inl, fun _ => id⟩

theorem trans (u v w : Vault) (h : Grows u v) (h' : Grows v w) : Grows u w where
  signingKeyPair := h'.signingKeyPair.trans h.signingKeyPair
  signer := h'.signer.trans h.signer
  tenant_id := h'.tenant_id.trans h.tenant_id
  subject_id := h'.subject_id.trans h.subject_id
  policy_id := h'.policy_id.trans h.policy_id
  created_at := h'.created_at.trans h.created_at
  addressKey := h'.addressKey.trans h.addressKey
  sequence := h.sequence.trans h'.sequence
  active a ha := by
    rcases h'.active a ha with ha | ha
    · exact h.active a ha
    · exact Or.inr ha
  buried a ha := h'.buried a (h.buried a ha)

end Grows

/-! ## Statements -/

section Statements

variable {α β : Type}

theorem keeps_ofExcept (x : Except JsError α) : Keeps Grows (ofExcept x) := by
  intro v
  cases x with
  | ok a => exact Grows.refl v
  | error e => exact Grows.refl v

theorem keeps_refuse (c : Bool) (m : JsString) : Keeps Grows (refuse c m) := keeps_ofExcept _

theorem pushEntry_grows (v : Vault) (e : Entry) : Grows v (pushEntry P v e) :=
  ⟨rfl, rfl, rfl, rfl, rfl, rfl, rfl, Int.le_add_one le_rfl, fun _ => Or.inl, fun _ => id⟩

theorem keeps_appendEvent (env : Ambient) (f : EventFields) : Keeps Grows (appendEvent P env f) := by
  intro v
  unfold EStateM.after appendEvent
  cases nextEntry P env v f with
  | ok e => exact pushEntry_grows v e
  | error e => exact Grows.refl v

theorem keeps_discard {m : VaultM α} (h : Keeps Grows m) : Keeps Grows (discard m) := by
  intro v
  have hv := h v
  simp only [EStateM.after, discard, Functor.mapConst, Function.comp, EStateM.map] at hv ⊢
  cases hm : m v with
  | ok a t => rw [hm] at hv; exact hv
  | error e t => rw [hm] at hv; exact hv

/-- Statement after statement. -/
theorem keeps_seq {m : VaultM α} {k : α → VaultM β} (hm : Keeps Grows m) (hk : ∀ a, Keeps Grows (k a)) :
    Keeps Grows (m >>= k) := keeps_bind Grows.trans hm hk

theorem keeps_read {k : Vault → VaultM β} (hk : ∀ v, Keeps Grows (k v)) : Keeps Grows (get >>= k) :=
  keeps_seq (keeps_get Grows.refl) hk

end Statements

/-! ## Calls -/

theorem isQuiet_memoryAddress (v : Vault) (subjectId memoryId : Json) (contentHash : JsString) :
    (memoryAddress P v subjectId memoryId contentHash).all isQuiet = true := by
  rw [memoryAddress, List.all_append, isQuiet_of_isHash (isHash_hmacSha256Hex _ _), Bool.and_true]
  decide

/-- Writes that store records, activate addresses and add tombstones. -/
theorem grows_write {v w : Vault} (hw : w = { v with memories := w.memories, activeAddresses := w.activeAddresses, tombstones := w.tombstones })
    (hactive : ∀ a ∈ w.activeAddresses, a ∈ v.activeAddresses ∨ a.all isQuiet = true)
    (htomb : ∀ a, Buried v a → Buried w a) : Grows v w := by
  rw [hw]
  exact ⟨rfl, rfl, rfl, rfl, rfl, rfl, rfl, le_rfl, hactive, htomb⟩

/-- A tombstone that names its address buries it, and takes nothing else away. -/
theorem buried_set {v w : Vault} {addr : JsString} {t : Json} (hw : w.tombstones = v.tombstones.set addr t)
    (ht : t.get (js "memory_addr") = some (.str addr)) (a : JsString) (ha : Buried v a) : Buried w a := by
  obtain ⟨old, hold, haddr⟩ := ha
  rw [Buried, hw]
  by_cases hb : a = addr
  · -- the address is not empty: it was buried before
    refine ⟨t, by rw [OrdMap.get_set, if_pos hb], ?_⟩
    rw [ht, ← hb]
    exact addrOf_str (addrOf_eq_some.1 haddr).2
  · exact ⟨old, by rw [OrdMap.get_set, if_neg hb, hold], haddr⟩

theorem Step.supersede_buries {v v' : Vault} {old new : JsString} {oldRecord newRecord tombstone : Json} {f : EventFields}
    (h : Step P v (.supersede old new oldRecord newRecord tombstone) f v') (hne : old ≠ []) : Buried v' old := by
  obtain ⟨env, e, -, rfl⟩ := h.appended
  have htomb : IsTombstone old "update" tombstone := by
    cases h.legal with
    | supersede _ _ _ _ htomb => exact htomb
  refine ⟨tombstone, (OrdMap.get_set (m := v.tombstones)).trans (if_pos rfl), ?_⟩
  rw [htomb.addr]
  exact addrOf_str hne

theorem Step.retire_buries {v v' : Vault} {addr : JsString} {record : Option Json} {tombstone : Json} {f : EventFields}
    (h : Step P v (.retire addr record tombstone) f v') (hne : addr ≠ []) : Buried v' addr := by
  obtain ⟨env, e, -, rfl⟩ := h.appended
  have htomb : IsTombstone addr "delete" tombstone := by
    cases h.legal with
    | retire _ htomb => exact htomb
  refine ⟨tombstone, (OrdMap.get_set (m := v.tombstones)).trans (if_pos rfl), ?_⟩
  rw [htomb.addr]
  exact addrOf_str hne

theorem remember_grows (env : Ambient) (args : RememberArgs) : Keeps Grows (remember P env args) := by
  unfold remember
  refine keeps_read fun vault => keeps_seq (keeps_ofExcept _) fun plaintext => keeps_seq (keeps_ofExcept _) fun createdAt =>
    keeps_seq (keeps_refuse _ _) fun _ => keeps_seq (keeps_modify fun v => grows_write rfl ?_ fun _ => id) fun _ =>
      keeps_seq (keeps_appendEvent _ _) fun e => keeps_pure Grows.refl _
  intro a ha
  rcases OrdSet.mem_add.1 ha with rfl | ha
  · exact Or.inr (isQuiet_memoryAddress ..)
  · exact Or.inl ha

theorem recall_grows (env : Ambient) (args : RecallArgs) : Keeps Grows (recallMemory P env args) := by
  unfold recallMemory
  exact keeps_read fun vault => keeps_seq (keeps_ofExcept _) fun addr => keeps_seq (keeps_refuse _ _) fun _ =>
    keeps_seq (keeps_refuse _ _) fun _ => keeps_seq (keeps_refuse _ _) fun _ => keeps_seq (keeps_ofExcept _) fun text =>
      keeps_seq (keeps_appendEvent _ _) fun e => keeps_pure Grows.refl _

theorem updateMemory_grows (env : Ambient) (args : UpdateArgs) : Keeps Grows (updateMemory P env args) := by
  unfold updateMemory
  refine keeps_read fun vault => keeps_seq (keeps_ofExcept _) fun oldAddr => keeps_seq (keeps_ofExcept _) fun plaintext =>
    keeps_seq (keeps_refuse _ _) fun _ => keeps_seq (keeps_refuse _ _) fun _ =>
    keeps_seq (keeps_modify fun v => grows_write rfl (fun _ => Or.inl) fun _ => id) fun _ =>
    keeps_seq (keeps_ofExcept _) fun firstNow =>
    keeps_seq (keeps_modify fun v => grows_write rfl ?_ fun _ => id) fun _ =>
    keeps_seq (keeps_ofExcept _) fun updatedAt =>
    keeps_seq (keeps_modify fun v => grows_write rfl ?_ (buried_set rfl (isTombstone_updateTombstone ..).addr)) fun _ =>
    keeps_seq (keeps_appendEvent _ _) fun e => keeps_pure Grows.refl _
  · intro a ha
    exact Or.inl (OrdSet.mem_delete.1 ha).2
  · intro a ha
    rcases OrdSet.mem_add.1 ha with rfl | ha
    · exact Or.inr (isQuiet_memoryAddress ..)
    · exact Or.inl ha

theorem retireRecord_grows (time : ℤ) (now : Now) (addr : JsString) : Keeps Grows (retireRecord P time now addr) := by
  unfold retireRecord
  refine keeps_read fun vault => ?_
  cases vault.memories.get addr with
  | none => exact keeps_pure Grows.refl _
  | some record =>
    exact keeps_seq (keeps_modify fun v => grows_write rfl (fun _ => Or.inl) fun _ => id) fun _ =>
      keeps_seq (keeps_ofExcept _) fun _ => keeps_modify fun v => grows_write rfl (fun _ => Or.inl) fun _ => id

theorem deleteMemory_grows (env : Ambient) (args : DeleteArgs) : Keeps Grows (deleteMemory P env args) := by
  unfold deleteMemory
  refine keeps_read fun vault => keeps_seq (keeps_ofExcept _) fun addr => keeps_seq (keeps_refuse _ _) fun _ =>
    keeps_seq (keeps_refuse _ _) fun _ => keeps_seq (retireRecord_grows _ _ _) fun _ =>
    keeps_seq (keeps_modify fun v => grows_write rfl ?_ fun _ => id) fun _ =>
    keeps_seq (keeps_ofExcept _) fun tombstonedAt =>
    keeps_seq (keeps_modify fun v => grows_write rfl (fun _ => Or.inl)
      (buried_set rfl (isTombstone_deleteTombstone ..).addr)) fun _ =>
    keeps_seq (keeps_appendEvent _ _) fun e => keeps_pure Grows.refl _
  intro a ha
  exact Or.inl (OrdSet.mem_delete.1 ha).2

theorem packMemories_grows (args : PackArgs) (packId : Json) (addrs : List JsString) :
    ∀ env, Keeps Grows (packMemories P args packId env addrs) := by
  induction addrs with
  | nil => intro env; exact keeps_pure Grows.refl _
  | cons addr rest ih =>
    intro env
    rw [packMemories]
    exact keeps_read fun vault => keeps_seq (keeps_ofExcept _) fun content => keeps_seq (keeps_appendEvent _ _) fun _ =>
      keeps_seq (keeps_appendEvent _ _) fun _ => keeps_seq (ih _) fun _ => keeps_pure Grows.refl _

theorem compileContextPack_grows (env : Ambient) (args : PackArgs) : Keeps Grows (compileContextPack P env args) := by
  unfold compileContextPack
  exact keeps_read fun vault => keeps_seq (keeps_ofExcept _) fun passport => keeps_seq (keeps_ofExcept _) fun limit =>
    keeps_seq (keeps_ofExcept _) fun selection => keeps_seq (keeps_refuse _ _) fun _ =>
    keeps_seq (keeps_ofExcept _) fun generatedAt => keeps_seq (packMemories_grows _ _ _ _) fun packed =>
    keeps_seq (keeps_ofExcept _) fun receipts => keeps_read fun vault => keeps_pure Grows.refl _

theorem exportBundle_grows (env : Ambient) (args : ExportArgs) : Keeps Grows (exportBundle P env args) := by
  unfold exportBundle
  exact keeps_read fun before => keeps_seq (keeps_appendEvent _ _) fun e => keeps_read fun vault =>
    keeps_seq (keeps_ofExcept _) fun exportedAt => keeps_seq (keeps_ofExcept _) fun keyring => keeps_pure Grows.refl _

/-- **What no call breaks**, whether it succeeds or throws. -/
theorem exec_grows (c : Call) : Keeps Grows (c.exec P) := by
  cases c with
  | remember env args => exact keeps_discard (remember_grows env args)
  | recallMemory env args => exact keeps_discard (recall_grows env args)
  | updateMemory env args => exact keeps_discard (updateMemory_grows env args)
  | deleteMemory env args => exact keeps_discard (deleteMemory_grows env args)
  | compileContextPack env args => exact keeps_discard (compileContextPack_grows env args)
  | exportBundle env args => exact keeps_discard (exportBundle_grows env args)

/-! ## Runs -/

theorem stepCall_grows {v v' : Vault} {c : Call} (h : stepCall P v c = some v') : Grows v v' := by
  obtain ⟨u, hu⟩ := stepCall_eq_some.1 h
  have hg := exec_grows (P := P) c v
  rwa [EStateM.after, hu] at hg

theorem run_grows {v₀ v : Vault} {calls : List Call} (h : Run.run (stepCall P) v₀ calls = some v) : Grows v₀ v :=
  Run.run_invariant (fun _ _ _ hs hstep => Grows.trans _ _ _ hs (stepCall_grows hstep)) (Grows.refl v₀) h

/-- The vault after a call, whether it succeeds or throws. -/
def attempt (P : Platform) (v : Vault) (c : Call) : Vault := (c.exec P).after v

def Throws (P : Platform) (v : Vault) (c : Call) : Prop := ∃ e v', c.exec P v = .error e v'

theorem attempts_grow (calls : List Call) : ∀ v, Grows v (calls.foldl (attempt P) v) := by
  induction calls with
  | nil => exact Grows.refl
  | cons c calls ih => exact fun v => (exec_grows c v).trans _ _ _ (ih _)

end EnigmaMemory
