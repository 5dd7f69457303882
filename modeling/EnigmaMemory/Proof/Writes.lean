import EnigmaMemory.Proof.VaultSteps

/-!
# What each call writes

`call_steps` says which kind of change a call makes. Here the records and tombstones are
given too: `Writes` lists, for each call, the one change it makes to the store, with the
record as `remember` and `updateMemory` build it. The appended events leave the store as
it is (`SameStore`).
-/

namespace EnigmaMemory

variable {P : Platform} {v v' w : Vault}

/-- The memories, the addresses and the keys are the same. -/
structure SameStore (v w : Vault) : Prop where
  memories : w.memories = v.memories
  activeAddresses : w.activeAddresses = v.activeAddresses
  tombstones : w.tombstones = v.tombstones
  quarantineAddresses : w.quarantineAddresses = v.quarantineAddresses
  vaultKey : w.vaultKey = v.vaultKey
  addressKey : w.addressKey = v.addressKey

theorem SameStore.refl (v : Vault) : SameStore v v := ⟨rfl, rfl, rfl, rfl, rfl, rfl⟩

theorem SameStore.trans {u : Vault} (h : SameStore u v) (h' : SameStore v w) : SameStore u w :=
  ⟨h'.memories.trans h.memories, h'.activeAddresses.trans h.activeAddresses, h'.tombstones.trans h.tombstones,
    h'.quarantineAddresses.trans h.quarantineAddresses, h'.vaultKey.trans h.vaultKey, h'.addressKey.trans h.addressKey⟩

theorem sameStore_pushEntry (v : Vault) (e : Entry) : SameStore v (pushEntry P v e) := ⟨rfl, rfl, rfl, rfl, rfl, rfl⟩

/-- The record that a successful `remember` stores. -/
def rememberedRecord (P : Platform) (v : Vault) (env : Ambient) (args : RememberArgs) (content : Json)
    (createdAt : JsString) : Json :=
  memoryRecord P v (env.random 0 12) args content (withDefault args.memory_id (.str (js "mem_" ++ env.uuid 0)))
    (withDefault args.subject_id v.subject_id) createdAt (prefixedSha256 (content.toText P.toNumberFormat))
    (rememberTarget P v env args content)

/-- The change that a call makes to the store. -/
inductive Writes (P : Platform) (v : Vault) : Call → Change → Prop
  | recallMemory (env : Ambient) (args : RecallArgs) : Writes P v (.recallMemory env args) .note
  | compileContextPack (env : Ambient) (args : PackArgs) : Writes P v (.compileContextPack env args) .note
  | exportBundle (env : Ambient) (args : ExportArgs) : Writes P v (.exportBundle env args) .note
  | remember {env : Ambient} {args : RememberArgs} {content : Json} (createdAt : JsString) :
      args.content = some content → content ≠ .null → v.tombstones.has (rememberTarget P v env args content) = false →
      Writes P v (.remember env args) (.create (rememberTarget P v env args content)
        (rememberedRecord P v env args content createdAt))
  | updateMemory {env : Ambient} {args : UpdateArgs} {old : JsString} {record content : Json} (first now : JsString) :
      args.memory_addr = some old → old ≠ [] → args.content = some content → Live v old →
      v.memories.get old = some record →
      Writes P v (.updateMemory env args) (.supersede old
        (updatedAddr P v record (prefixedSha256 (content.toText P.toNumberFormat))) (retouch record "superseded" first)
        (updatedRecord P v (env.random 0 12) (retouch record "superseded" first)
          (updatedAddr P v record (prefixedSha256 (content.toText P.toNumberFormat))) (content.toText P.toNumberFormat)
          (prefixedSha256 (content.toText P.toNumberFormat)) now)
        (updateTombstone old (updatedAddr P v record (prefixedSha256 (content.toText P.toNumberFormat))) now args.reason))
  | deleteMemory {env : Ambient} {args : DeleteArgs} {addr : JsString} (first now : JsString) :
      args.memory_addr = some addr → addr ≠ [] → Live v addr →
      Writes P v (.deleteMemory env args) (.retire addr
        ((v.memories.get addr).map fun r => retouch r "tombstoned" first) (deleteTombstone addr now args.reason))

theorem remember_writes {env : Ambient} {args : RememberArgs} {r : Stored} (h : remember P env args v = .ok r v') :
    ∃ ch, Writes P v (.remember env args) ch ∧ SameStore (ch.apply v) v' ∧
      ∃ content, args.content = some content ∧ r.memory_addr = rememberTarget P v env args content := by
  unfold remember at h
  rw [get_bind, ofExcept_bind_ok] at h
  obtain ⟨content, hcontent, h⟩ := h
  simp only [ofExcept_bind_ok, refuse_bind_ok, modify_bind, append_bind_ok] at h
  obtain ⟨createdAt, -, htomb, e, -, h⟩ := h
  obtain ⟨rfl, rfl⟩ := pure_ok.1 h
  obtain ⟨hargs, hne⟩ := required_ok.1 hcontent
  exact ⟨_, .remember createdAt hargs hne htomb, ⟨rfl, rfl, rfl, rfl, rfl, rfl⟩, content, hargs, rfl⟩

theorem updatedAddr_retouch (v : Vault) (record : Json) (state : String) (now contentHash : JsString) :
    updatedAddr P v (retouch record state now) contentHash = updatedAddr P v record contentHash := by
  simp [updatedAddr, retouch]

theorem updateMemory_writes {env : Ambient} {args : UpdateArgs} {r : Updated}
    (h : updateMemory P env args v = .ok r v') :
    ∃ ch, Writes P v (.updateMemory env args) ch ∧ SameStore (ch.apply v) v' ∧
      ∃ content record, args.content = some content ∧ v.memories.get r.old_memory_addr = some record ∧
        args.memory_addr = some r.old_memory_addr ∧
        r.stored.memory_addr = updatedAddr P v record (prefixedSha256 (content.toText P.toNumberFormat)) := by
  unfold updateMemory at h
  rw [get_bind, ofExcept_bind_ok] at h
  obtain ⟨old, hold, h⟩ := h
  simp only [ofExcept_bind_ok, refuse_bind_ok, modify_bind, append_bind_ok] at h
  obtain ⟨content, hcontent, hlive, hknown, first, -, now, -, e, -, h⟩ := h
  obtain ⟨hargs, hne⟩ := requiredAddr_ok.1 hold
  rw [Bool.or_eq_false_iff, Bool.not_eq_false', OrdSet.has_iff] at hlive
  rw [Bool.not_eq_false', OrdMap.has_eq_true] at hknown
  obtain ⟨record, hrecord⟩ := hknown
  simp only [hrecord, Option.getD_some, OrdMap.set_set] at h
  obtain ⟨rfl, rfl⟩ := pure_ok.1 h
  have hargs' : args.content = some content := (required_ok.1 hcontent).1
  have haddr := updatedAddr_retouch (P := P) v record "superseded" first (prefixedSha256 (content.toText P.toNumberFormat))
  rw [retouch] at haddr
  refine ⟨_, .updateMemory first now hargs hne hargs' ⟨hlive.2, hlive.1⟩ hrecord, ?_, content, record,
    hargs', hrecord, hargs, haddr⟩
  rw [← haddr]
  exact ⟨rfl, rfl, rfl, rfl, rfl, rfl⟩

theorem deleteMemory_writes {env : Ambient} {args : DeleteArgs} {r : Deleted} (h : deleteMemory P env args v = .ok r v') :
    ∃ ch, Writes P v (.deleteMemory env args) ch ∧ SameStore (ch.apply v) v' ∧ args.memory_addr = some r.memory_addr := by
  unfold deleteMemory at h
  rw [get_bind, ofExcept_bind_ok] at h
  obtain ⟨addr, haddr, h⟩ := h
  simp only [refuse_bind_ok] at h
  obtain ⟨htomb, hactive, h⟩ := h
  obtain ⟨_, t, hretire, h⟩ := EStateM.bind_eq_ok.1 h
  obtain ⟨first, rfl⟩ := retireRecord_ok hretire
  simp only [ofExcept_bind_ok, modify_bind, append_bind_ok] at h
  obtain ⟨now, -, e, -, h⟩ := h
  obtain ⟨rfl, rfl⟩ := pure_ok.1 h
  obtain ⟨hargs, hne⟩ := requiredAddr_ok.1 haddr
  exact ⟨_, .deleteMemory first now hargs hne ⟨by simpa using hactive, htomb⟩,
    ⟨rfl, rfl, rfl, rfl, rfl, rfl⟩, hargs⟩

theorem packMemories_sameStore {args : PackArgs} {packId : Json} (addrs : List JsString) :
    ∀ (env : Ambient) (v : Vault) (packed : List Packed), packMemories P args packId env addrs v = .ok packed v' →
      SameStore v v' := by
  induction addrs with
  | nil =>
    intro env v packed h
    rw [packMemories] at h
    obtain ⟨-, rfl⟩ := pure_ok.1 h
    exact .refl v
  | cons addr rest ih =>
    intro env v packed h
    rw [packMemories, get_bind] at h
    simp only [ofExcept_bind_ok, append_bind_ok] at h
    obtain ⟨content, -, e1, -, e2, -, h⟩ := h
    obtain ⟨others, t, hrest, h⟩ := EStateM.bind_eq_ok.1 h
    obtain ⟨-, rfl⟩ := pure_ok.1 h
    exact ((sameStore_pushEntry v e1).trans (sameStore_pushEntry _ e2)).trans (ih _ _ _ hrest)

theorem compileContextPack_sameStore {env : Ambient} {args : PackArgs} {pack : ContextPack}
    (h : compileContextPack P env args v = .ok pack v') : SameStore v v' := by
  unfold compileContextPack at h
  rw [get_bind] at h
  simp only [ofExcept_bind_ok, rejectInvalid_bind_ok] at h
  obtain ⟨passport, -, limit, -, selection, -, -, now, -, h⟩ := h
  obtain ⟨packed, t, hpacked, h⟩ := EStateM.bind_eq_ok.1 h
  simp only [ofExcept_bind_ok, get_bind] at h
  obtain ⟨receipts, -, h⟩ := h
  obtain ⟨-, rfl⟩ := pure_ok.1 h
  exact packMemories_sameStore _ _ _ _ hpacked

/-- A step that changes nothing but the log keeps the store. -/
theorem Step.sameStore {f : EventFields} (h : Step P v .note f v') : SameStore v v' := by
  obtain ⟨env, e, -, rfl⟩ := h.appended
  exact sameStore_pushEntry v e

/-- **Every successful call makes one change to the store**, the one listed for it. -/
theorem call_writes {c : Call} (h : stepCall P v c = some v') : ∃ ch, Writes P v c ch ∧ SameStore (ch.apply v) v' := by
  obtain ⟨u, h⟩ := stepCall_eq_some.1 h
  cases c with
  | remember env args =>
    obtain ⟨r, h⟩ := discard_ok.1 h
    obtain ⟨ch, hw, hs, -⟩ := remember_writes h
    exact ⟨ch, hw, hs⟩
  | recallMemory env args =>
    obtain ⟨r, h⟩ := discard_ok.1 h
    obtain ⟨addr, f, hstep, -⟩ := recall_step h
    exact ⟨.note, .recallMemory env args, hstep.sameStore⟩
  | updateMemory env args =>
    obtain ⟨r, h⟩ := discard_ok.1 h
    obtain ⟨ch, hw, hs, -⟩ := updateMemory_writes h
    exact ⟨ch, hw, hs⟩
  | deleteMemory env args =>
    obtain ⟨r, h⟩ := discard_ok.1 h
    obtain ⟨ch, hw, hs, -⟩ := deleteMemory_writes h
    exact ⟨ch, hw, hs⟩
  | compileContextPack env args =>
    obtain ⟨r, h⟩ := discard_ok.1 h
    exact ⟨.note, .compileContextPack env args, compileContextPack_sameStore h⟩
  | exportBundle env args =>
    obtain ⟨r, h⟩ := discard_ok.1 h
    obtain ⟨f, hstep, -⟩ := exportBundle_step h
    exact ⟨.note, .exportBundle env args, hstep.sameStore⟩

end EnigmaMemory
