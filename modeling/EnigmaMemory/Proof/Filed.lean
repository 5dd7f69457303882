import EnigmaMemory.Proof.RoundTrip
import EnigmaMemory.Proof.Writes

/-!
# What holds of the store in every reachable vault

Active addresses are memory addresses; a record lies under the address it names, and its
state is the one that the active set and the tombstones give to the address (`Filed`).
Every call keeps this, and so does the import of an export: the import is refused unless
the receipts replay to the declared state, so each record comes back in the state it had
(`Transferred`).
-/

namespace EnigmaMemory

open Json
open Relation (ReflTransGen)

variable {P : Platform} {v v' w : Vault}

/-- The form of the addresses that `memoryAddress` gives. -/
def IsAddress (a : JsString) : Prop := ∃ d, a = js "mem:hmac-sha256:" ++ d

theorem isAddress_memoryAddress (v : Vault) (subjectId memoryId : Json) (contentHash : JsString) :
    IsAddress (memoryAddress P v subjectId memoryId contentHash) := ⟨_, rfl⟩

theorem IsAddress.ne {a : JsString} (h : IsAddress a) : a ≠ [] := by
  obtain ⟨d, rfl⟩ := h
  exact List.append_ne_nil_of_left_ne_nil (by decide) _

/-- What the active set and the tombstones say about an address. -/
inductive Standing (v : Vault) (a : JsString) : Fate → Prop
  | active : a ∈ v.activeAddresses → Standing v a .active
  | retired {fate : Fate} {op : String} {t : Json} : a ∉ v.activeAddresses → v.tombstones.get a = some t →
      fate.operation = some op → t.get (js "operation") = some (.str (js op)) → Standing v a fate

/-- A tombstone that names its address and an operation. -/
def Headstone (a : JsString) (t : Json) : Prop := a ≠ [] ∧ ∃ op, js op ≠ [] ∧ IsTombstone a op t

/-- Every record and every tombstone lies where it says. -/
structure Filed (v : Vault) : Prop where
  address : ∀ a ∈ v.activeAddresses, IsAddress a
  record : ∀ a r, v.memories.get a = some r → ∃ fate : Fate, IsRecord a fate.state r ∧ Standing v a fate
  tombstone : ∀ a t, v.tombstones.get a = some t → Headstone a t
  quarantine : v.quarantineAddresses = OrdSet.empty

theorem Created.filed {env : Ambient} {args : CreateArgs} (h : Created P env args v)
    (hq : v.quarantineAddresses = OrdSet.empty) : Filed v where
  address a ha := by simp [h.activeAddresses] at ha
  record a r hr := by simp [h.memories] at hr
  tombstone a t ht := by simp [h.tombstones] at ht
  quarantine := hq

theorem createVault_quarantine {env : Ambient} {args : CreateArgs} (h : createVault P env args = .ok v) :
    v.quarantineAddresses = OrdSet.empty := by
  unfold createVault at h
  simp only [Except.bind_eq_ok] at h
  obtain ⟨createdAt, -, ⟨vaultKey, addressKey, seed⟩, -, h⟩ := h
  rw [← Except.pure_eq_ok.1 h]
  rfl

/-! ## Calls -/

theorem Standing.congr {a : JsString} {fate : Fate} (h : Standing v a fate)
    (hactive : a ∈ w.activeAddresses ↔ a ∈ v.activeAddresses) (htomb : w.tombstones.get a = v.tombstones.get a) :
    Standing w a fate := by
  cases h with
  | active ha => exact .active (hactive.2 ha)
  | retired ha ht hop hget => exact .retired (fun h => ha (hactive.1 h)) (htomb.trans ht) hop hget

theorem Filed.congr (h : Filed v) (hs : SameStore v w) : Filed w where
  address a ha := h.address a (hs.activeAddresses ▸ ha)
  record a r hr := by
    rw [hs.memories] at hr
    obtain ⟨fate, hrecord, hstands⟩ := h.record a r hr
    exact ⟨fate, hrecord, hstands.congr (by rw [hs.activeAddresses]) (by rw [hs.tombstones])⟩
  tombstone a t ht := h.tombstone a t (hs.tombstones ▸ ht)
  quarantine := hs.quarantineAddresses.trans h.quarantine

/-- A tombstone set under its address. -/
theorem tombstone_set {addr : JsString} {tombstone : Json} (h : Filed v) (htomb : Headstone addr tombstone) (a : JsString) (t : Json)
    (ht : (v.tombstones.set addr tombstone).get a = some t) : Headstone a t := by
  rw [OrdMap.get_set] at ht
  split at ht
  · rename_i hb
    cases ht
    exact hb ▸ htomb
  · exact h.tombstone a t ht

/-- **A call keeps every record filed.** -/
theorem writes_filed {c : Call} {ch : Change} (h : Filed v) (hw : Writes P v c ch) : Filed (ch.apply v) := by
  cases hw with
  | recallMemory | compileContextPack | exportBundle => exact h
  | @remember env args content createdAt hcontent hne hfree =>
    refine ⟨fun a ha => ?_, fun a r hr => ?_, h.tombstone, h.quarantine⟩
    · rcases OrdSet.mem_add.1 ha with rfl | ha
      · exact isAddress_memoryAddress ..
      · exact h.address a ha
    · rw [Change.apply, OrdMap.get_set] at hr
      split at hr
      · rename_i hb
        cases hr
        exact ⟨.active, hb ▸ isRecord_memoryRecord .., .active (OrdSet.mem_add.2 (Or.inl hb))⟩
      · rename_i hb
        obtain ⟨fate, hrecord, hstands⟩ := h.record a r hr
        exact ⟨fate, hrecord, hstands.congr (by simp [Change.apply, hb]) rfl⟩
  | @updateMemory env args old record content first now hargs hne hcontent hlive hget =>
    refine ⟨fun a ha => ?_, fun a r hr => ?_, tombstone_set h ⟨hne, _, by decide, isTombstone_updateTombstone ..⟩, h.quarantine⟩
    · rcases OrdSet.mem_add.1 ha with rfl | ha
      · exact isAddress_memoryAddress ..
      · exact h.address a (OrdSet.mem_delete.1 ha).2
    · rw [Change.apply, OrdMap.get_set] at hr
      split at hr
      · rename_i hb
        cases hr
        exact ⟨.active, hb ▸ isRecord_updatedRecord .., .active (OrdSet.mem_add.2 (Or.inl hb))⟩
      · rename_i hb
        rw [OrdMap.get_set] at hr
        split at hr
        · -- the old record stays behind as superseded
          rename_i hold
          cases hr
          obtain ⟨fate, hrecord, -⟩ := h.record old record hget
          refine ⟨.superseded, hold ▸ isRecord_retouch hrecord _ first, ?_⟩
          refine .retired ?_ ((OrdMap.get_set (m := v.tombstones)).trans (if_pos hold)) rfl
            (isTombstone_updateTombstone ..).operation
          simpa [Change.apply, hold] using hb
        · rename_i hold
          obtain ⟨fate, hrecord, hstands⟩ := h.record a r hr
          exact ⟨fate, hrecord, hstands.congr (by simp [Change.apply, hb, hold])
            ((OrdMap.get_set (m := v.tombstones)).trans (if_neg hold))⟩
  | @deleteMemory env args addr first now hargs hne hlive =>
    refine ⟨fun a ha => h.address a (OrdSet.mem_delete.1 ha).2, fun a r hr => ?_,
      tombstone_set h ⟨hne, _, by decide, isTombstone_deleteTombstone ..⟩, h.quarantine⟩
    have hother : a ≠ addr → v.memories.get a = some r → ∃ fate : Fate, IsRecord a fate.state r ∧
        Standing (Change.apply v (.retire addr ((v.memories.get addr).map fun r => retouch r "tombstoned" first)
          (deleteTombstone addr now args.reason))) a fate := by
      intro hb hr
      obtain ⟨fate, hrecord, hstands⟩ := h.record a r hr
      exact ⟨fate, hrecord, hstands.congr (by simp [Change.apply, hb])
        ((OrdMap.get_set (m := v.tombstones)).trans (if_neg hb))⟩
    cases hget : v.memories.get addr with
    | none =>
      rw [hget] at hr
      have hr' : v.memories.get a = some r := hr
      have hb : a ≠ addr := fun hb => by simp [hb, hget] at hr'
      rw [← hget]
      exact hother hb hr'
    | some record =>
      rw [hget] at hr
      have hr' : (v.memories.set addr (retouch record "tombstoned" first)).get a = some r := hr
      rw [OrdMap.get_set] at hr'
      rw [← hget]
      split at hr'
      · rename_i hb
        cases hr'
        obtain ⟨fate, hrecord, -⟩ := h.record addr record hget
        refine ⟨.deleted, hb ▸ isRecord_retouch hrecord _ first, ?_⟩
        refine .retired ?_ ((OrdMap.get_set (m := v.tombstones)).trans (if_pos hb)) rfl
          (isTombstone_deleteTombstone ..).operation
        simp [Change.apply, hb]
      · rename_i hb
        exact hother hb hr'

theorem stepCall_filed {c : Call} (h : Filed v) (hstep : stepCall P v c = some v') : Filed v' := by
  obtain ⟨ch, hw, hs⟩ := call_writes hstep
  exact (writes_filed h hw).congr hs

/-! ## Transfers -/

/-- Every replayed tombstone is one. -/
theorem replayEvent_tombstones {s : Lifecycle} (event : Json)
    (h : ∀ a t, s.tombstones.get a = some t → Headstone a t) :
    ∀ a t, (replayEvent s event).tombstones.get a = some t → Headstone a t := by
  have hdelete : ∀ addr a t, (s.tombstones.delete addr).get a = some t → Headstone a t := by
    intro addr a t ht
    rw [OrdMap.get_delete] at ht
    split at ht
    · cases ht
    · exact h a t ht
  unfold replayEvent
  cases haddr : addrOf (event.get (js "memory_addr")) with
  | none => exact h
  | some addr =>
    obtain ⟨-, hne⟩ := addrOf_eq_some.1 haddr
    dsimp only
    split_ifs
    · exact hdelete addr
    · cases hsource : addrOf (event.get (js "source_addr")) with
      | none => exact hdelete addr
      | some source =>
        obtain ⟨-, hne'⟩ := addrOf_eq_some.1 hsource
        intro a t ht
        rw [OrdMap.get_delete] at ht
        split at ht
        · cases ht
        · rw [OrdMap.get_set] at ht
          split at ht
          · rename_i hb
            cases ht
            refine ⟨hb ▸ hne', "update", by decide, ?_, ?_, ?_⟩
            · simp [replayedUpdate, hb]
            · simp [replayedUpdate]
            · cases event.get (js "timestamp") <;> simp [replayedUpdate, Json.keys, Json.field]
          · exact h a t ht
    · intro a t ht
      rw [OrdMap.get_set] at ht
      split at ht
      · rename_i hb
        cases ht
        refine ⟨hb ▸ hne, "delete", by decide, ?_, ?_, ?_⟩
        · simp [replayedDelete, hb]
        · simp [replayedDelete]
        · cases event.get (js "timestamp") <;> simp [replayedDelete, Json.keys, Json.field]
      · exact h a t ht
    · exact h

theorem derive_tombstones {rs : List Json} {s : Lifecycle} (h : deriveReceiptLifecycle rs = .ok s) :
    ∀ a t, s.tombstones.get a = some t → Headstone a t := by
  suffices hfold : ∀ (rs : List Json) (s s' : Lifecycle),
      (∀ a t, s.tombstones.get a = some t → Headstone a t) → rs.foldlM replayReceipt s = .ok s' →
      ∀ a t, s'.tombstones.get a = some t → Headstone a t from
    hfold rs ⟨OrdSet.empty, OrdMap.empty⟩ s (fun a t ht => by simp at ht) h
  intro rs
  induction rs with
  | nil =>
    intro s s' hs h
    cases h
    exact hs
  | cons r rs ih =>
    intro s s' hs h
    rw [List.foldlM_cons] at h
    obtain ⟨t, ht, h⟩ := Except.bind_eq_ok.1 h
    refine ih t s' ?_ h
    rcases replayReceipt_ok ht with rfl | ⟨event, rfl⟩
    · exact hs
    · exact replayEvent_tombstones event hs

theorem nodup_spread {j k : Json} (h : j.keys.Nodup) : (j.spread k).keys.Nodup := by
  rw [Json.spread]
  have hfold : ∀ (fs : List (JsString × Json)) (out : Json), out.keys.Nodup →
      (fs.foldl (fun out f => out.set f.1 f.2) out).keys.Nodup := by
    intro fs
    induction fs with
    | nil => exact fun out h => h
    | cons f fs ih => exact fun out h => ih _ (Json.nodup_set h)
  refine hfold _ _ ?_
  rw [Json.keys_eq] at h
  exact h

theorem isTombstone_merged {a : JsString} {op : String} {t : Json} (h : IsTombstone a op t) (imported : Json) :
    IsTombstone a op (mergedTombstone a t imported) where
  addr := by simp [mergedTombstone]
  operation := by simp [mergedTombstone, h.operation]
  nodup := Json.nodup_set (Json.nodup_set (nodup_spread h.nodup))

theorem importedVault_quarantine {env : Ambient} {args : ImportArgs} {bundle : Bundle} {secrets : KeyringSecrets}
    (h : importedVault P env args bundle secrets = .ok w) : w.quarantineAddresses = OrdSet.empty := by
  obtain ⟨fresh, hfresh, h⟩ := Except.bind_eq_ok.1 h
  cases h
  have hq := createVault_quarantine hfresh
  exact hq

/-- What the import of a vault's own export makes of its store. -/
structure Transferred (P : Platform) (v w : Vault) : Prop where
  active : ∀ a, a ∈ w.activeAddresses ↔ a ∈ v.activeAddresses
  disjoint : ∀ a ∈ w.activeAddresses, w.tombstones.get a = none
  tombstone : ∀ a t, w.tombstones.get a = some t → Headstone a t
  operation : ∀ a, (w.tombstones.get a).map (·.get (js "operation")) = (v.tombstones.get a).map (·.get (js "operation"))
  memories : w.memories.entries = v.memories.entries.map fun e =>
    (e.1, publicRecord P.toNumberFormat (publicRecord P.toNumberFormat e.2))
  quarantine : w.quarantineAddresses = OrdSet.empty

/-- Writing what a field has changes nothing. -/
theorem set_eq_self {fs : List (JsString × Json)} {key : JsString} {x : Json} (h : (Json.obj fs).get key = some x) :
    (Json.obj fs).set key x = .obj fs := by
  rw [Json.set, Json.fields]
  congr 1
  induction fs with
  | nil => cases h
  | cons f fs ih =>
    obtain ⟨k, y⟩ := f
    rw [get_obj_cons] at h
    rw [setField]
    split
    · rename_i hk
      simp only at hk
      rw [if_pos hk.symm] at h
      cases h
      rw [hk]
    · rename_i hk
      rw [if_neg (fun he => hk he.symm)] at h
      rw [ih h]

/-- A record whose state is the replayed one comes back as it is. -/
theorem reconciledRecord_self {s : Lifecycle} {a : JsString} {fate : Fate} {r : Json} (hstate : IsRecord a fate.state r)
    (hs : (a ∈ s.active ∧ fate = .active) ∨ a ∉ s.active ∧ ∃ op t, fate.operation = some op ∧ s.tombstones.get a = some t ∧
      t.get (js "operation") = some (.str (js op))) : reconciledRecord s a r = some r := by
  obtain ⟨fs, rfl⟩ : ∃ fs, r = .obj fs := by
    cases r with
    | obj fs => exact ⟨fs, rfl⟩
    | _ => exact absurd hstate.addr (by simp [Json.get])
  have hself := set_eq_self hstate.state
  unfold reconciledRecord
  rcases hs with ⟨ha, rfl⟩ | ⟨ha, op, t, hop, ht, hget⟩
  · rw [if_pos (OrdSet.has_iff.2 ha)]
    exact congrArg some hself
  · rw [if_neg (by simpa using ha)]
    simp only [ht, hget]
    cases fate with
    | active => cases hop
    | superseded =>
      cases hop
      rw [if_pos (by simp)]
      exact congrArg some hself
    | deleted =>
      cases hop
      rw [if_neg (by simp)]
      exact congrArg some hself

/-- A record keeps its address and its state through two sanitizings. -/
theorem isRecord_public {a : JsString} {state : String} {r : Json} (h : IsRecord a state r) :
    IsRecord a state (publicRecord P.toNumberFormat (publicRecord P.toNumberFormat r)) where
  addr := publicRecord_twice (by decide) h.nodup h.addr
  state := publicRecord_twice (by decide) h.nodup h.state
  nodup := nodup_publicRecord _ _

theorem entries_importedRecords (h : ∀ a r, v.memories.get a = some r →
    r.get (js "memory_addr") = some (.str a) ∧ r.keys.Nodup) :
    (importedRecords P (v.memories.values.map (publicRecord P.toNumberFormat))).entries =
      v.memories.entries.map fun e => (e.1, publicRecord P.toNumberFormat (publicRecord P.toNumberFormat e.2)) := by
  rw [importedRecords, List.foldl_map]
  refine OrdMap.entries_rebuild fun a r hr => ?_
  obtain ⟨haddr, hn⟩ := h a r hr
  rw [get_publicRecord (by decide) hn, haddr, map_sanitize_eq_str.2 rfl]
  rfl

/-- Records that are in the replayed states come back as they are. -/
theorem reconcileRecords_self {s : Lifecycle} {records out : OrdMap JsString Json}
    (h : reconcileRecords s records = .ok out) (hs : ∀ e ∈ records.entries, reconciledRecord s e.1 e.2 = some e.2) :
    out.entries = records.entries := by
  unfold reconcileRecords at h
  split at h
  · cases h
  · cases h
    rw [OrdMap.mapValues]
    refine (List.map_congr_left fun e he => ?_).trans (List.map_id _)
    rw [hs e he]
    rfl

/-- **The import of an export keeps the store**, up to the sanitizing of the records. -/
theorem transfer_transferred {env env' : Ambient} {args : ExportArgs} {args' : ImportArgs} {bundle : Bundle}
    {imported : Imported} (h : Filed v) (hexport : exportBundle P env args v = .ok bundle v')
    (himport : importBundle P env' args' bundle = .ok imported) : Transferred P v imported.vault := by
  obtain ⟨⟨e, rfl⟩, hb⟩ := exportBundle_exports hexport
  obtain ⟨secrets, restored, entry, -, hrestored, -, rfl⟩ := importBundle_ok.1 himport
  obtain ⟨created, receipts, lifecycle, memories, hcreated, -, hlifecycle, hmemories, rfl⟩ := restoreVault_ok.1 hrestored
  obtain ⟨derived, hderived, hdeclares, rfl⟩ := reconcileLifecycle_ok.1 hlifecycle
  have hactive : ∀ a, a ∈ derived.active ↔ a ∈ v.activeAddresses := by
    intro a
    rw [← hdeclares.active, hb.active_memory_addresses, sortStrings, (List.perm_insertionSort _ _).mem_iff]
    exact Iff.rfl
  -- the declared tombstones are those of the vault
  have himported := importedTombstones_sorted (P := P) (v := pushEntry P v e) fun a t ht => by
    obtain ⟨hne, op, -, htomb⟩ := h.tombstone a t ht
    rw [htomb.addr]
    exact addrOf_str hne
  have htombs := derive_tombstones hderived
  have hop : ∀ a, ((derived.tombstones.get a).map (·.get (js "operation"))) =
      (v.tombstones.get a).map (·.get (js "operation")) := by
    intro a
    have hhas := hdeclares.tombstones a
    rw [hb.tombstones, OrdMap.has, himported, Option.isSome_map] at hhas
    change (v.tombstones.get a).isSome = _ at hhas
    cases hd : derived.tombstones.get a with
    | none =>
      rw [OrdMap.has, hd, Option.isSome_none, Option.isSome_eq_false_iff, Option.isNone_iff_eq_none] at hhas
      rw [hhas]
    | some t =>
      rw [OrdMap.has, hd, Option.isSome_some, Option.isSome_iff_exists] at hhas
      obtain ⟨t', ht'⟩ := hhas
      obtain ⟨-, op, hop, htomb⟩ := h.tombstone a t' ht'
      obtain ⟨-, op', -, htomb'⟩ := htombs a t hd
      have hclash := hdeclares.operations a t hd
      have hget : (pushEntry P v e).tombstones.get a = some t' := ht'
      rw [hb.tombstones, himported, hget, Option.map_some] at hclash
      rw [ht', Option.map_some, Option.map_some, htomb.operation, htomb'.operation]
      simp only [operationClash, Option.bind_some, ← publicRecord.eq_def,
        get_publicRecord (by decide : isPublicField (js "operation") = true) htomb.nodup, htomb.operation, Option.map_some,
        sanitizePublicValue, htomb'.operation, Json.isStr, Bool.and_eq_false_iff, bne_eq_false_iff_eq, Bool.not_eq_false',
        beq_iff_eq] at hclash
      rw [hclash.resolve_left hop]
  have hfiled : ∀ a r, v.memories.get a = some r → r.get (js "memory_addr") = some (.str a) ∧ r.keys.Nodup := by
    intro a r hr
    obtain ⟨fate, hrecord, -⟩ := h.record a r hr
    exact ⟨hrecord.addr, hrecord.nodup⟩
  have hoperation : ∀ a, ((reconciled P bundle derived).tombstones.get a).map (·.get (js "operation")) =
      (v.tombstones.get a).map (·.get (js "operation")) := by
    intro a
    rw [← hop a, reconciled, OrdMap.get_mapValues, Option.map_map]
    cases hd : derived.tombstones.get a with
    | none => rfl
    | some t =>
      obtain ⟨-, op, -, htomb⟩ := htombs a t hd
      simp [htomb.operation, (isTombstone_merged htomb _).operation]
  have hentries := entries_importedRecords (P := P) hfiled
  have hobjects : bundle.memory_objects = v.memories.values.map (publicRecord P.toNumberFormat) := hb.memory_objects
  rw [← hobjects] at hentries
  have hrecords : memories.entries = (importedRecords P bundle.memory_objects).entries := by
    refine reconcileRecords_self hmemories fun e he => ?_
    rw [hentries, List.mem_map] at he
    obtain ⟨⟨a, r⟩, hr, rfl⟩ := he
    obtain ⟨fate, hrecord, hstands⟩ := h.record a r (OrdMap.get_eq_some_iff.2 hr)
    refine reconciledRecord_self (isRecord_public hrecord) ?_
    cases hstands with
    | active ha => exact Or.inl ⟨(hactive a).2 ha, rfl⟩
    | @retired _ op t ha ht hop hget =>
      have hsame := hoperation a
      rw [ht, Option.map_some, hget, Option.map_eq_some_iff] at hsame
      obtain ⟨t', ht', hget'⟩ := hsame
      exact Or.inr ⟨fun hd => ha ((hactive a).1 hd), op, t', hop, ht', hget'⟩
  refine ⟨hactive, fun a ha => ?_, fun a t ht => ?_, hoperation, hrecords.trans hentries, ?_⟩
  · change (reconciled P bundle derived).tombstones.get a = none
    rw [reconciled, OrdMap.get_mapValues, derive_disjoint hderived a ha]
    rfl
  · change (reconciled P bundle derived).tombstones.get a = some t at ht
    rw [reconciled, OrdMap.get_mapValues, Option.map_eq_some_iff] at ht
    obtain ⟨d, hd, rfl⟩ := ht
    obtain ⟨hne, op, hop, htomb⟩ := htombs a d hd
    exact ⟨hne, op, hop, isTombstone_merged htomb _⟩
  · have hq := importedVault_quarantine hcreated
    exact hq

theorem transfer_filed (h : Filed v) (ht : Transferred P v w) : Filed w where
  address a ha := h.address a ((ht.active a).1 ha)
  record a r hr := by
    rw [OrdMap.get_eq_some_iff, ht.memories, List.mem_map] at hr
    obtain ⟨⟨b, r₀⟩, hr₀, he⟩ := hr
    obtain ⟨rfl, rfl⟩ := Prod.mk.inj he
    obtain ⟨fate, hrecord, hstands⟩ := h.record b r₀ (OrdMap.get_eq_some_iff.2 hr₀)
    refine ⟨fate, isRecord_public hrecord, ?_⟩
    cases hstands with
    | active ha => exact .active ((ht.active b).2 ha)
    | retired ha hget hop hget' =>
      have hsame := ht.operation b
      rw [hget, Option.map_some, hget', Option.map_eq_some_iff] at hsame
      obtain ⟨t', ht', hget''⟩ := hsame
      exact .retired (fun hw => ha ((ht.active b).1 hw)) ht' hop hget''
  tombstone := ht.tombstone
  quarantine := ht.quarantine

/-! ## Reachable vaults -/

theorem move_filed (h : Filed v) (hm : Move P v w) : Filed w := by
  cases hm with
  | call hstep => exact stepCall_filed h hstep
  | transfer hexport himport => exact transfer_filed h (transfer_transferred h hexport himport)

/-- **Every record of a reachable vault is filed.** -/
theorem Reachable.filed (h : Reachable P v) : Filed v := by
  obtain ⟨env, args, v₀, hcreated, hmoves⟩ := h
  induction hmoves with
  | refl => exact (createVault_created hcreated).filed (createVault_quarantine hcreated)
  | tail _ hmove ih => exact move_filed ih hmove

end EnigmaMemory
