import EnigmaMemory.Proof.Reference

/-!
# The lifecycle invariant

In a coherent vault no active address is tombstoned, and every active address has a record
in state `active`. A step from a coherent vault ends in one exactly if it is no update to
the current or to an earlier, tombstoned address (`step_coherent_iff`): `remember` refuses
a tombstoned address, `updateMemory` does not look.

* `coherent_run_iff`: all states of a run are coherent exactly when all its updates are to
  fresh addresses.
-/

namespace EnigmaMemory

open Relation (ReflTransGen)

variable {P : Platform} {v v' : Vault} {ch : Change} {f : EventFields}

/-- The invariant. -/
structure Coherent (v : Vault) : Prop where
  disjoint : ∀ a ∈ v.activeAddresses, v.tombstones.has a = false
  recorded : ∀ a ∈ v.activeAddresses, isActive (v.memories.get a) = true

theorem Created.coherent {env : Ambient} {args : CreateArgs} (h : Created P env args v) : Coherent v := by
  refine ⟨fun a ha => ?_, fun a ha => ?_⟩
  all_goals
    rw [h.activeAddresses] at ha
    exact absurd ha (OrdSet.not_mem_empty a)

theorem apply_coherent_iff (hv : Coherent v) (h : ch.Legal v f) : Coherent (ch.apply v) ↔ ch.Fresh v := by
  cases h with
  | note => exact iff_of_true hv trivial
  | @create addr record hne hfree hrecord =>
    refine iff_of_true ⟨fun a ha => ?_, fun a ha => ?_⟩ trivial
    · rcases OrdSet.mem_add.1 ha with rfl | ha
      · exact hfree
      · exact hv.disjoint a ha
    · rw [Change.apply, OrdMap.get_set]
      by_cases haddr : a = addr
      · rw [if_pos haddr]
        exact isActive_iff.2 ⟨record, rfl, hrecord.state⟩
      · rw [if_neg haddr]
        exact hv.recorded a ((OrdSet.mem_add.1 ha).resolve_left haddr)
  | @supersede old new now record newRecord tombstone hlive hne hold hrecord =>
    constructor
    · -- the new address is active, so it must not be among the tombstones
      intro h
      have hnew := h.disjoint new (OrdSet.mem_add.2 (Or.inl rfl))
      rw [Change.apply, OrdMap.has_set, Bool.or_eq_false_iff, decide_eq_false_iff_not] at hnew
      exact ⟨fun h => hnew.1 h.symm, hnew.2⟩
    · rintro ⟨hold', hfree⟩
      refine ⟨fun a ha => ?_, fun a ha => ?_⟩
      · rw [Change.apply, OrdMap.has_set, Bool.or_eq_false_iff, decide_eq_false_iff_not]
        rcases OrdSet.mem_add.1 ha with rfl | ha
        · exact ⟨fun h => hold' h.symm, hfree⟩
        · obtain ⟨hne, ha⟩ := OrdSet.mem_delete.1 ha
          exact ⟨hne, hv.disjoint a ha⟩
      · rw [Change.apply, OrdMap.get_set, OrdMap.get_set]
        by_cases hnew : a = new
        · rw [if_pos hnew]
          exact isActive_iff.2 ⟨newRecord, rfl, hrecord.state⟩
        · obtain ⟨hne, ha⟩ := OrdSet.mem_delete.1 ((OrdSet.mem_add.1 ha).resolve_left hnew)
          rw [if_neg hnew, if_neg hne]
          exact hv.recorded a ha
  | @retire addr now tombstone hlive =>
    refine iff_of_true ⟨fun a ha => ?_, fun a ha => ?_⟩ trivial
    · obtain ⟨hne, ha⟩ := OrdSet.mem_delete.1 ha
      change (v.tombstones.set addr tombstone).has a = false
      rw [OrdMap.has_set, hv.disjoint a ha, Bool.or_false, decide_eq_false_iff_not]
      exact hne
    · obtain ⟨hne, ha⟩ := OrdSet.mem_delete.1 ha
      have hget : ((Change.retire addr ((v.memories.get addr).map fun r => retouch r "tombstoned" now) tombstone).apply
          v).memories.get a = v.memories.get a := by
        cases h : v.memories.get addr with
        | none => simp [Change.apply]
        | some r => simp [Change.apply, hne]
      rw [hget]
      exact hv.recorded a ha

/-- **One step from a coherent vault.** -/
theorem step_coherent_iff (hv : Coherent v) (h : Step P v ch f v') : Coherent v' ↔ ch.Fresh v := by
  obtain ⟨env, e, -, rfl⟩ := h.appended
  rw [← apply_coherent_iff hv h.legal]
  -- an appended event touches neither the addresses nor the records
  exact ⟨fun h => ⟨h.disjoint, h.recorded⟩, fun h => ⟨h.disjoint, h.recorded⟩⟩

theorem goodSteps_coherent (h : ReflTransGen (GoodStep P) v v') (hv : Coherent v) : Coherent v' := by
  induction h with
  | refl => exact hv
  | tail _ hstep ih =>
    obtain ⟨ch, f, hstep, hfresh, -⟩ := hstep
    exact (step_coherent_iff ih hstep).2 hfresh

theorem call_coherent_iff {c : Call} (hv : Coherent v) (h : stepCall P v c = some v') : Coherent v' ↔ c.Fresh P v := by
  rcases call_steps h with ⟨ch, f, hstep, hfresh, -⟩ | ⟨hfresh, -, hsteps⟩
  · rw [hfresh]
    exact step_coherent_iff hv hstep
  · exact iff_of_true (goodSteps_coherent hsteps hv) hfresh

/-- **All states of a run are coherent exactly when every update of the run moves its
memory to an address that is neither the current one nor tombstoned.** -/
theorem coherent_run_iff (P : Platform) (env : Ambient) (args : CreateArgs) (v₀ v : Vault) (calls : List Call)
    (hcreate : createVault P env args = .ok v₀) (hrun : Run.run (stepCall P) v₀ calls = some v) :
    (∀ l u, l <+: calls → Run.run (stepCall P) v₀ l = some u → Coherent u) ↔
      Run.All (stepCall P) (fun u c => c.Fresh P u) v₀ calls :=
  Run.forall_prefix_iff (fun _ _ _ hu h => call_coherent_iff hu h) calls v₀ v (createVault_created hcreate).coherent hrun

theorem coherent_run_iff_coffee : ∃ v₀ v addr, createVault reference referenceEnv {} = .ok v₀ ∧
    Run.run (stepCall reference) v₀ [.remember referenceEnv { content := some tea },
      .updateMemory referenceEnv { memory_addr := some addr, content := some coffee }] = some v ∧
    ((∀ l u, l <+: [.remember referenceEnv { content := some tea },
        .updateMemory referenceEnv { memory_addr := some addr, content := some coffee }] →
        Run.run (stepCall reference) v₀ l = some u → Coherent u) ↔
      Run.All (stepCall reference) (fun u c => c.Fresh reference u) v₀ [.remember referenceEnv { content := some tea },
        .updateMemory referenceEnv { memory_addr := some addr, content := some coffee }]) := by
  obtain ⟨v₀, v₁, addr, h⟩ := firstMemory
  obtain ⟨v, hv⟩ := h.update coffee_ne_null
  have hrun := (h.run _).trans hv
  exact ⟨v₀, v, addr, h.created, hrun, coherent_run_iff reference referenceEnv {} v₀ v _ h.created hrun⟩

/-- After an update to the content that it has, a memory is active and tombstoned. -/
theorem coherent_run_tea : ∃ v₀ v addr, createVault reference referenceEnv {} = .ok v₀ ∧
    Run.run (stepCall reference) v₀ [.remember referenceEnv { content := some tea },
      .updateMemory referenceEnv { memory_addr := some addr, content := some tea }] = some v ∧
    addr ∈ v.activeAddresses ∧ v.tombstones.has addr = true := by
  obtain ⟨v₀, v₁, addr, h⟩ := firstMemory
  obtain ⟨v, hv, hactive, hburied⟩ := h.again
  exact ⟨v₀, v, addr, h.created, (h.run _).trans hv, hactive, hburied.has⟩

end EnigmaMemory
