import EnigmaMemory.Proof.Replay

/-!
# Imports

What `importBundle` reads survives its sanitizing: addresses, operations and states are
strings under public keys. So the receipts of a bundle replay as they did before they were
exported (`importReceipts`), and the declared tombstones and records are found under their
addresses again.

* `reconcileLifecycle_ok`: when the declared state of a bundle is accepted.
* `derive_disjoint`: no replay leaves an address active and tombstoned.
-/

namespace EnigmaMemory

open Json

variable {P : Platform}

/-! ## Sanitized fields -/

section Sanitize

variable {F : NumberFormat} {key : JsString}

/-- A key that sanitizing leaves where it is. -/
def isPublicField (key : JsString) : Bool :=
  !isPlaintextLikeKey key && decide (key ∉ [js "metadata", js "source_refs", js "sourceRefs"])

theorem get_sanitizePublicFields (hk : isPublicField key = true) (fs : List (JsString × Json)) : ∀ out : Json,
    (fs.map Prod.fst).Nodup → (sanitizePublicFields F out fs).get key =
      (((Json.obj fs).get key).map (sanitizePublicValue F)).or (out.get key) := by
  simp only [isPublicField, Bool.and_eq_true, Bool.not_eq_true', decide_eq_true_eq, List.mem_cons, List.not_mem_nil,
    or_false, not_or] at hk
  obtain ⟨hplain, hmeta, hrefs, hrefs'⟩ := hk
  induction fs with
  | nil =>
    intro out _
    rw [sanitizePublicFields]
    rfl
  | cons f fs ih =>
    obtain ⟨k, item⟩ := f
    intro out hn
    rw [List.map_cons, List.nodup_cons] at hn
    rw [sanitizePublicFields, get_obj_cons]
    -- the three special kinds of keys are not the key that is read
    split
    · rename_i h
      have hne : key ≠ k := fun he => by rw [he, h] at hplain; exact Bool.noConfusion hplain
      rw [ih out hn.2, if_neg hne]
    · split
      · rename_i h
        rw [ih _ hn.2, get_set, if_neg hmeta, if_neg (fun he => hmeta (he.trans h))]
      · split
        · rename_i h
          have hne : key ≠ k := fun he => h.elim (fun h => hrefs (he.trans h)) (fun h => hrefs' (he.trans h))
          rw [ih _ hn.2, get_set, if_neg hrefs, if_neg hne]
        · rw [ih _ hn.2, get_set]
          by_cases he : key = k
          · have hnone : (Json.obj fs).get key = none := by
              rw [he]
              exact List.lookup_eq_none_iff.2 fun p hp =>
                bne_iff_ne.2 fun h => hn.1 (List.mem_map.2 ⟨p, hp, h.symm⟩)
            rw [if_pos he, if_pos he, hnone]
            rfl
          · rw [if_neg he, if_neg he]

/-- A public field of a sanitized value is the sanitized field. -/
theorem get_publicRecord (hk : isPublicField key = true) {j : Json} (hn : j.keys.Nodup) :
    (publicRecord F j).get key = (j.get key).map (sanitizePublicValue F) := by
  cases j with
  | obj fs =>
    rw [publicRecord, sanitizePublicValue, get_sanitizePublicFields hk fs _ hn]
    exact Option.or_none
  | _ => rfl

theorem isPlainRecord_sanitizePublicFields (fs : List (JsString × Json)) : ∀ out : Json,
    out.isPlainRecord = true → (sanitizePublicFields F out fs).isPlainRecord = true := by
  induction fs with
  | nil =>
    intro out h
    rwa [sanitizePublicFields]
  | cons f fs ih =>
    obtain ⟨k, item⟩ := f
    intro out h
    rw [sanitizePublicFields]
    split_ifs
    · exact ih _ h
    · exact ih _ rfl
    · exact ih _ rfl
    · exact ih _ rfl

theorem sanitizePublicValue_eq_str {j : Json} {s : JsString} : sanitizePublicValue F j = .str s ↔ j = .str s := by
  cases j with
  | obj fs =>
    have h := isPlainRecord_sanitizePublicFields (F := F) fs (.obj []) rfl
    rw [sanitizePublicValue]
    refine iff_of_false (fun hs => ?_) (by simp)
    rw [hs] at h
    cases h
  | _ => simp [sanitizePublicValue]

theorem map_sanitize_eq_str {x : Option Json} {s : JsString} :
    x.map (sanitizePublicValue F) = some (.str s) ↔ x = some (.str s) := by
  cases x <;> simp [sanitizePublicValue_eq_str]

theorem addrOf_sanitize (x : Option Json) : addrOf (x.map (sanitizePublicValue F)) = addrOf x := by
  refine Option.ext fun a => ?_
  rw [addrOf_eq_some, addrOf_eq_some, map_sanitize_eq_str]

theorem isStr_sanitize (x : Option Json) (s : JsString) : Json.isStr (x.map (sanitizePublicValue F)) s = Json.isStr x s := by
  rw [Bool.eq_iff_iff, Json.isStr_iff, Json.isStr_iff, map_sanitize_eq_str]

theorem isPublicField_fields : ∀ k ∈ [js "memory_addr", js "operation", js "source_addr", js "timestamp", js "event",
    js "active_set_root", js "state"], isPublicField k = true := by decide

end Sanitize

/-! ## Imported receipts -/

section Receipts

variable (b : ReceiptBody) (signature : JsString)

theorem nodup_signed : (b.signed P signature).keys.Nodup := (keys_orderReceiptFields _).nodup (by decide)

theorem get_spreadPublic {F : NumberFormat} {out : Json} {k key : JsString} {value : Option Json} (h : key ≠ k) :
    (spreadPublic F out k value).get key = out.get key := by
  cases value with
  | none => rw [spreadPublic, get_without, if_neg h]
  | some x => rw [spreadPublic, get_set, if_neg h]

theorem isPlainRecord_spreadPublic {F : NumberFormat} {out : Json} {k : JsString} {value : Option Json} :
    (spreadPublic F out k value).isPlainRecord = true := by
  cases value <;> rfl

theorem get_spreadCopy {F : NumberFormat} {j : Json} (h : j.isPlainRecord = true) (key : JsString) :
    (spreadCopy F j).get key = j.get key := by
  cases j with
  | obj fs => rfl
  | _ => cases h

/-- A receipt as an import keeps it. -/
theorem importedReceipt_signed : ∃ r, importedReceipt P (b.signed P signature) = .ok r ∧ r.isPlainRecord = true ∧
    ∀ key, isPublicField key = true → key ≠ js "signer" → key ≠ js "signature" →
      r.get key = ((b.signed P signature).get key).map (sanitizePublicValue P.toNumberFormat) := by
  have hplain : (sanitizePublicValue P.toNumberFormat (b.signed P signature)).isPlainRecord = true := by
    obtain ⟨fs, hfs⟩ : ∃ fs, b.signed P signature = .obj fs := ⟨_, rfl⟩
    rw [hfs, sanitizePublicValue]
    exact isPlainRecord_sanitizePublicFields fs _ rfl
  refine ⟨_, rfl, ?_, fun key hk hsigner hsignature => ?_⟩
  · exact isPlainRecord_spreadPublic
  · rw [get_spreadPublic hsignature, get_spreadPublic hsigner, get_spreadCopy hplain]
    exact get_publicRecord hk (nodup_signed b signature)

/-- **Sanitizing a receipt does not change its replay.** -/
theorem replayReceipt_imported {r : Json} (h : importedReceipt P (b.signed P signature) = .ok r) (s : Lifecycle) :
    replayReceipt s r = replayReceipt s (b.signed P signature) := by
  obtain ⟨r', hr', hplain, hget⟩ := importedReceipt_signed (P := P) b signature
  obtain rfl : r' = r := Except.ok.inj (hr'.symm.trans h)
  have hreads := reads_signed (P := P) b signature
  have hfield : ∀ k ∈ [js "memory_addr", js "operation", js "source_addr", js "timestamp", js "event",
      js "active_set_root"], r'.get k = ((b.signed P signature).get k).map (sanitizePublicValue P.toNumberFormat) := by
    intro k hk
    refine hget k ?_ ?_ ?_
    all_goals
      revert k
      decide
  have hevent : receiptEvent r' = some r' := by
    have hnone : r'.get (js "event") = none := by
      rw [hfield _ (by decide), get_signed, if_neg (by simp), get_unsigned, if_neg (by decide)]
      rfl
    obtain ⟨fs, rfl⟩ : ∃ fs, r' = .obj fs := by
      cases r' with
      | obj fs => exact ⟨fs, rfl⟩
      | _ => cases hplain
    simp only [receiptEvent, hnone]
  have hreplay : replayEvent s r' = replayEvent s (b.signed P signature) := by
    unfold replayEvent
    rw [hfield _ (by decide : js "memory_addr" ∈ _), hfield _ (by decide : js "operation" ∈ _),
      hfield _ (by decide : js "source_addr" ∈ _), hfield _ (by decide : js "timestamp" ∈ _), addrOf_sanitize,
      addrOf_sanitize, isStr_sanitize, isStr_sanitize, isStr_sanitize, hreads.timestamp, map_sanitize_eq_str.2 rfl]
  rw [replayReceipt, replayReceipt, hevent, receiptEvent_signed]
  simp only [hreplay]
  rw [hfield _ (by decide : js "active_set_root" ∈ _), hreads.active_set_root, map_sanitize_eq_str.2 rfl]

end Receipts

/-- The receipts of a vault survive the import, with the replay they have. -/
theorem importReceipts {rs : List Json} (h : ∀ r ∈ rs, ∃ b signature, r = ReceiptBody.signed P b signature) :
    ∃ rs', rs.mapM (importedReceipt P) = .ok rs' ∧ rs'.length = rs.length ∧
      ∀ s, rs'.foldlM replayReceipt s = rs.foldlM replayReceipt s := by
  induction rs with
  | nil => exact ⟨[], rfl, rfl, fun _ => rfl⟩
  | cons r rs ih =>
    obtain ⟨b, signature, rfl⟩ := h r (by simp)
    obtain ⟨rs', hmap, hlength, hreplay⟩ := ih fun r hr => h r (by simp [hr])
    obtain ⟨r', hr', -⟩ := importedReceipt_signed (P := P) b signature
    refine ⟨r' :: rs', ?_, by simp [hlength], fun s => ?_⟩
    · rw [List.mapM_cons, hr', hmap]
      rfl
    · rw [List.foldlM_cons, List.foldlM_cons, replayReceipt_imported b signature hr']
      congr 1
      funext t
      exact hreplay t

/-! ## Any replay -/

/-- No event makes an address active and tombstoned. -/
theorem replayEvent_disjoint {s : Lifecycle} (h : ∀ a ∈ s.active, s.tombstones.get a = none) (event : Json) :
    ∀ a ∈ (replayEvent s event).active, (replayEvent s event).tombstones.get a = none := by
  unfold replayEvent
  cases addrOf (event.get (js "memory_addr")) with
  | none => exact h
  | some addr =>
    -- an address that becomes active loses its tombstone
    have hadd : ∀ a ∈ s.active.add addr, (s.tombstones.delete addr).get a = none := by
      intro a ha
      rw [OrdMap.get_delete]
      split
      · rfl
      · rename_i hb
        exact h a ((OrdSet.mem_add.1 ha).resolve_left hb)
    dsimp only
    split_ifs
    · exact hadd
    · cases addrOf (event.get (js "source_addr")) with
      | none => exact hadd
      | some source =>
        intro a ha
        rw [OrdMap.get_delete]
        split
        · rfl
        · rename_i hb
          obtain ⟨hne, ha⟩ := OrdSet.mem_delete.1 ((OrdSet.mem_add.1 ha).resolve_left hb)
          rw [OrdMap.get_set, if_neg hne]
          exact h a ha
    · intro a ha
      obtain ⟨hne, ha⟩ := OrdSet.mem_delete.1 ha
      rw [OrdMap.get_set, if_neg hne]
      exact h a ha
    · exact h

theorem replayReceipt_ok {s s' : Lifecycle} {r : Json} (h : replayReceipt s r = .ok s') :
    s' = s ∨ ∃ event, s' = replayEvent s event := by
  unfold replayReceipt at h
  split at h
  · cases h
    exact Or.inl rfl
  · split at h
    · split at h
      · cases h
        exact Or.inr ⟨_, rfl⟩
      · cases h
    · cases h
      exact Or.inr ⟨_, rfl⟩

theorem replay_disjoint (rs : List Json) : ∀ s s' : Lifecycle, (∀ a ∈ s.active, s.tombstones.get a = none) →
    rs.foldlM replayReceipt s = .ok s' → ∀ a ∈ s'.active, s'.tombstones.get a = none := by
  induction rs with
  | nil =>
    intro s s' hs h
    cases h
    exact hs
  | cons r rs ih =>
    intro s s' hs h
    rw [List.foldlM_cons] at h
    obtain ⟨t, ht, h⟩ := Except.bind_eq_ok.1 h
    refine ih t s' ?_ h
    rcases replayReceipt_ok ht with rfl | ⟨event, rfl⟩
    · exact hs
    · exact replayEvent_disjoint hs event

/-- **A replay never leaves an address active and tombstoned**, whatever the receipts. -/
theorem derive_disjoint {rs : List Json} {s : Lifecycle} (h : deriveReceiptLifecycle rs = .ok s) :
    ∀ a ∈ s.active, s.tombstones.get a = none :=
  replay_disjoint rs _ s (fun _ _ => rfl) h

/-! ## The declared state -/

theorem sameStringSet_iff {l r : List JsString} (hl : l.Nodup) (hr : r.Nodup) :
    sameStringSet l r = true ↔ ∀ a, a ∈ l ↔ a ∈ r := by
  rw [sameStringSet, decide_eq_true_eq, sortStrings, sortStrings]
  constructor
  · intro h a
    rw [← (List.perm_insertionSort (· ≤ ·) l).mem_iff, h, (List.perm_insertionSort (· ≤ ·) r).mem_iff]
  · intro h
    exact OrdSet.sort_congr (s := ⟨l, hl⟩) (t := ⟨r, hr⟩) h

/-- A bundle declares the state that its receipts replay to. -/
structure Declares (P : Platform) (bundle : Bundle) (derived : Lifecycle) : Prop where
  active : ∀ a, a ∈ bundle.active_memory_addresses ↔ a ∈ derived.active
  root : rootClash (bundle.vault.get (js "active_set_root")) (computeSetRoot derived.active.elems) = false
  tombstones : ∀ a, (importedTombstonesByAddress P bundle.tombstones).has a = derived.tombstones.has a
  operations : ∀ a t, derived.tombstones.get a = some t →
    operationClash t ((importedTombstonesByAddress P bundle.tombstones).get a) = false

/-- The state of the imported vault. -/
def reconciled (P : Platform) (bundle : Bundle) (derived : Lifecycle) : Lifecycle :=
  ⟨derived.active, derived.tombstones.mapValues fun addr t =>
    mergedTombstone addr t (((importedTombstonesByAddress P bundle.tombstones).get addr).getD (.obj []))⟩

theorem reconcileLifecycle_ok {bundle : Bundle} {rs : List Json} {s : Lifecycle} :
    reconcileLifecycle P bundle rs = .ok s ↔
      ∃ derived, deriveReceiptLifecycle rs = .ok derived ∧ Declares P bundle derived ∧ s = reconciled P bundle derived := by
  unfold reconcileLifecycle
  rw [Except.bind_eq_ok]
  refine exists_congr fun derived => and_congr_right fun _ => ?_
  have hactive : sameStringSet (OrdSet.ofList bundle.active_memory_addresses).elems derived.active.elems = true ↔
      ∀ a, a ∈ bundle.active_memory_addresses ↔ a ∈ derived.active := by
    rw [sameStringSet_iff (OrdSet.nodup _) derived.active.nodup]
    exact forall_congr' fun a => iff_congr OrdSet.mem_ofList Iff.rfl
  have htombs : sameStringSet (importedTombstonesByAddress P bundle.tombstones).keys derived.tombstones.keys = true ↔
      ∀ a, (importedTombstonesByAddress P bundle.tombstones).has a = derived.tombstones.has a := by
    rw [sameStringSet_iff (OrdMap.nodup_keys _) (OrdMap.nodup_keys _)]
    exact forall_congr' fun a => (iff_congr OrdMap.mem_keys OrdMap.mem_keys).trans Bool.eq_iff_iff.symm
  have hops : (derived.tombstones.entries.any fun e =>
      operationClash e.2 ((importedTombstonesByAddress P bundle.tombstones).get e.1)) = false ↔
      ∀ a t, derived.tombstones.get a = some t →
        operationClash t ((importedTombstonesByAddress P bundle.tombstones).get a) = false := by
    rw [List.any_eq_false]
    constructor
    · intro h a t ht
      exact eq_false_of_ne_true (h (a, t) (OrdMap.get_eq_some_iff.1 ht))
    · rintro h ⟨a, t⟩ he
      exact ne_true_of_eq_false (h a t (OrdMap.get_eq_some_iff.2 he))
  dsimp only
  constructor
  · intro h
    split_ifs at h with h1 h2 h3 h4
    refine ⟨⟨hactive.1 (by simpa using h1), by simpa using h2, htombs.1 (by simpa using h3),
      hops.1 (by simpa using h4)⟩, ?_⟩
    exact (Except.ok.inj h).symm
  · rintro ⟨h, rfl⟩
    rw [hactive.2 h.active, h.root, htombs.2 h.tombstones, hops.2 h.operations]
    rfl

/-- A tombstone that names its address is imported under it. -/
theorem has_importedTombstones {l : List Json} {t : Json} {a : JsString} (ht : t ∈ l)
    (ha : addrOf (t.get (js "memory_addr")) = some a) : (importedTombstonesByAddress P l).has a = true := by
  unfold importedTombstonesByAddress
  have h : t ∈ l ∨ (OrdMap.empty : OrdMap JsString Json).has a = true := Or.inl ht
  generalize (OrdMap.empty : OrdMap JsString Json) = out at h ⊢
  clear ht
  induction l generalizing out with
  | nil => simpa using h
  | cons x l ih =>
    rw [List.foldl_cons]
    refine ih _ ?_
    rcases h with h | h
    · rcases List.mem_cons.1 h with rfl | h
      · exact Or.inr (by simp [ha])
      · exact Or.inl h
    · -- nothing removes what is set
      refine Or.inr ?_
      cases addrOf (x.get (js "memory_addr")) with
      | none => exact h
      | some addr => simp [h]

/-! ## The state of a vault in its bundle -/

variable {v : Vault}

theorem importedTombstones_sorted (h : ∀ a t, v.tombstones.get a = some t → addrOf (t.get (js "memory_addr")) = some a)
    (a : JsString) : (importedTombstonesByAddress P (sortedTombstones P v)).get a =
      (v.tombstones.get a).map (sanitizePublicValue P.toNumberFormat) := by
  have hperm : (sortedTombstones P v).Perm v.tombstones.values := List.perm_insertionSort _ _
  have hkey : ∀ a t, v.tombstones.get a = some t → text (t.get (js "memory_addr")) = a := by
    intro a t ht
    rw [(addrOf_eq_some.1 (h a t ht)).1]
    rfl
  rw [← OrdMap.get_rebuild hperm hkey, importedTombstonesByAddress]
  congr 1
  refine List.foldl_ext _ _ _ fun out t ht => ?_
  obtain ⟨b, hb⟩ := OrdMap.mem_values.1 (hperm.mem_iff.1 ht)
  rw [h b t hb, hkey b t hb]

theorem importedRecords_values (h : ∀ a r, v.memories.get a = some r → r.get (js "memory_addr") = some (.str a) ∧ r.keys.Nodup)
    (a : JsString) : (importedRecords P (v.memories.values.map (publicRecord P.toNumberFormat))).get a =
      (v.memories.get a).map fun r => publicRecord P.toNumberFormat (publicRecord P.toNumberFormat r) := by
  have hkey : ∀ a r, v.memories.get a = some r → text ((publicRecord P.toNumberFormat r).get (js "memory_addr")) = a := by
    intro a r hr
    obtain ⟨haddr, hn⟩ := h a r hr
    rw [get_publicRecord (by decide) hn, haddr, map_sanitize_eq_str.2 rfl]
    rfl
  rw [← OrdMap.get_rebuild (List.Perm.refl _) hkey, importedRecords, List.foldl_map]

/-- A string field of a record survives two sanitizings. -/
theorem publicRecord_twice {r : Json} {key s : JsString} (hk : isPublicField key = true) (hn : r.keys.Nodup)
    (hr : r.get key = some (.str s)) :
    (publicRecord P.toNumberFormat (publicRecord P.toNumberFormat r)).get key = some (.str s) := by
  rw [get_publicRecord hk (nodup_publicRecord _ _), get_publicRecord hk hn, hr, map_sanitize_eq_str.2 rfl,
    map_sanitize_eq_str.2 rfl]

/-- The replayed state of a record is the one it had. -/
theorem reconciledRecord_ok {s : Lifecycle} {m : Fates} (hs : Represents s.active s.tombstones m) {a : JsString}
    {fate : Fate} (hm : m a = some fate) (r : Json) : ∃ r', reconciledRecord s a r = some r' ∧
      r'.get (js "state") = some (.str (js fate.state)) := by
  have hop := hs.tombstones a
  unfold reconciledRecord
  by_cases hactive : a ∈ s.active
  · obtain rfl : fate = .active := Option.some.inj (hm.symm.trans ((hs.active a).1 hactive))
    rw [if_pos (OrdSet.has_iff.2 hactive)]
    exact ⟨_, rfl, by simp [Fate.state]⟩
  · rw [if_neg (by simpa using hactive)]
    rw [hm] at hop
    cases fate with
    | active => exact absurd ((hs.active a).2 hm) hactive
    | superseded =>
      obtain ⟨t, ht, hop⟩ := Option.map_eq_some_iff.1 hop
      simp only [ht, hop]
      exact ⟨_, rfl, by simp [Fate.state]⟩
    | deleted =>
      obtain ⟨t, ht, hop⟩ := Option.map_eq_some_iff.1 hop
      simp only [ht, hop]
      exact ⟨_, rfl, by simp [Fate.state]⟩

theorem reconcileRecords_ok {s : Lifecycle} {m : Fates} (hs : Represents s.active s.tombstones m)
    {records : OrdMap JsString Json} (h : ∀ a r, records.get a = some r → ∃ fate, m a = some fate) :
    ∃ out, reconcileRecords s records = .ok out ∧
      ∀ a, out.get a = (records.get a).map fun r => (reconciledRecord s a r).getD r := by
  have hall : (records.entries.any fun e => (reconciledRecord s e.1 e.2).isNone) = false := by
    rw [List.any_eq_false]
    rintro ⟨a, r⟩ he
    obtain ⟨fate, hm⟩ := h a r (OrdMap.get_eq_some_iff.2 he)
    obtain ⟨r', hr', -⟩ := reconciledRecord_ok hs hm r
    simp [hr']
  unfold reconcileRecords
  rw [hall]
  exact ⟨_, rfl, fun a => OrdMap.get_mapValues _⟩

/-! ## The calls -/

theorem restoreVault_ok {env : Ambient} {args : ImportArgs} {bundle : Bundle} {secrets : KeyringSecrets} {restored : Vault} :
    restoreVault P env args bundle secrets = .ok restored ↔ ∃ created receipts lifecycle memories,
      importedVault P env args bundle secrets = .ok created ∧ bundle.receipts.mapM (importedReceipt P) = .ok receipts ∧
      reconcileLifecycle P bundle receipts = .ok lifecycle ∧
      reconcileRecords lifecycle (importedRecords P bundle.memory_objects) = .ok memories ∧
      restored = applyLifecycleRoots P { created with
        events := bundle.events.map (sanitizeImportedEventEntry P)
        receipts, memories
        activeAddresses := lifecycle.active
        tombstones := lifecycle.tombstones } := by
  unfold restoreVault
  simp only [Except.bind_eq_ok, Except.pure_eq_ok]
  constructor
  · rintro ⟨created, hcreated, receipts, hreceipts, lifecycle, hlifecycle, memories, hmemories, rfl⟩
    exact ⟨created, receipts, lifecycle, memories, hcreated, hreceipts, hlifecycle, hmemories, rfl⟩
  · rintro ⟨created, receipts, lifecycle, memories, hcreated, hreceipts, hlifecycle, hmemories, rfl⟩
    exact ⟨created, hcreated, receipts, hreceipts, lifecycle, hlifecycle, memories, hmemories, rfl⟩

theorem importBundle_ok {env : Ambient} {args : ImportArgs} {bundle : Bundle} {imported : Imported} :
    importBundle P env args bundle = .ok imported ↔ ∃ secrets restored e,
      keyringSecrets P bundle.keyring args.passphrase = .ok secrets ∧
      restoreVault P env args bundle secrets = .ok restored ∧
      nextEntry P (env.drop 3) restored (importEvent args restored) = .ok e ∧
      imported = ⟨pushEntry P restored e, sortStrings (pushEntry P restored e).activeAddresses.elems,
        (pushEntry P restored e).tombstones.values, secrets.warnings⟩ := by
  unfold importBundle
  simp only [Except.bind_eq_ok, Except.pure_eq_ok]
  constructor
  · rintro ⟨secrets, hsecrets, restored, hrestored, e, he, rfl⟩
    exact ⟨secrets, restored, e, hsecrets, hrestored, he, rfl⟩
  · rintro ⟨secrets, restored, e, hsecrets, hrestored, he, rfl⟩
    exact ⟨secrets, hsecrets, restored, hrestored, e, he, rfl⟩

/-- An imported vault has the replayed state. -/
theorem importBundle_reconciled {env : Ambient} {args : ImportArgs} {bundle : Bundle} {imported : Imported}
    (h : importBundle P env args bundle = .ok imported) : ∃ rs derived, deriveReceiptLifecycle rs = .ok derived ∧
      Declares P bundle derived ∧ imported.vault.activeAddresses = derived.active ∧
      imported.vault.tombstones = (reconciled P bundle derived).tombstones := by
  obtain ⟨secrets, restored, e, -, hrestored, -, rfl⟩ := importBundle_ok.1 h
  obtain ⟨created, receipts, lifecycle, memories, -, -, hlifecycle, -, rfl⟩ := restoreVault_ok.1 hrestored
  obtain ⟨derived, hderived, hdeclares, rfl⟩ := reconcileLifecycle_ok.1 hlifecycle
  exact ⟨receipts, derived, hderived, hdeclares, rfl, rfl⟩

end EnigmaMemory
