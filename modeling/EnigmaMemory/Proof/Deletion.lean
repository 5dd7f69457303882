import EnigmaMemory.Proof.RoundTrip

/-!
# Deletion is permanent

A buried address stays buried, whatever is called and whether it succeeds or throws
(`exec_grows`), and also when the vault goes through its own bundle: an import is only
accepted with the tombstones that were declared (`transfer_buried`). A buried address is
not recalled, not stored under and not packed.

* `deletion_permanent`: so much for every later state of a vault.
* `deletion_tea`: the content of a deleted memory may come back under another address.
-/

namespace EnigmaMemory

open Json
open Relation (ReflTransGen)

variable {P : Platform} {v v' w : Vault} {a : JsString}

/-! ## Later states -/

/-- What may happen to a vault next: a call, which may throw, or the import of its export. -/
inductive Next (P : Platform) : Vault → Vault → Prop
  | call (v : Vault) (c : Call) : Next P v (attempt P v c)
  | transfer {v v' : Vault} {env env' : Ambient} {args : ExportArgs} {args' : ImportArgs} {bundle : Bundle}
      {imported : Imported} : exportBundle P env args v = .ok bundle v' →
      importBundle P env' args' bundle = .ok imported → Next P v imported.vault

abbrev Later (P : Platform) : Vault → Vault → Prop := ReflTransGen (Next P)

theorem transfer_buried {env env' : Ambient} {args : ExportArgs} {args' : ImportArgs} {bundle : Bundle}
    {imported : Imported} (hexport : exportBundle P env args v = .ok bundle v')
    (himport : importBundle P env' args' bundle = .ok imported) (h : Buried v a) : Buried imported.vault a := by
  obtain ⟨⟨e, rfl⟩, hb⟩ := exportBundle_exports hexport
  obtain ⟨rs, derived, -, hdeclares, -, htombs⟩ := importBundle_reconciled himport
  obtain ⟨t, ht, haddr⟩ := h
  have hmem : t ∈ bundle.tombstones := by
    rw [hb.tombstones, sortedTombstones, (List.perm_insertionSort _ _).mem_iff]
    exact OrdMap.mem_values.2 ⟨a, ht⟩
  -- the tombstone was declared, so the receipts have it too
  have hhas := hdeclares.tombstones a
  rw [has_importedTombstones hmem haddr] at hhas
  obtain ⟨t', ht'⟩ := OrdMap.has_eq_true.1 hhas.symm
  refine ⟨_, by rw [htombs, reconciled, OrdMap.get_mapValues, ht']; rfl, ?_⟩
  simp only [mergedTombstone, get_set]
  exact addrOf_str (addrOf_eq_some.1 haddr).2

/-- **A buried address stays buried.** -/
theorem next_buried (h : Next P v v') (hv : Buried v a) : Buried v' a := by
  cases h with
  | call c => exact (exec_grows c v).buried a hv
  | transfer hexport himport => exact transfer_buried hexport himport hv

theorem later_buried (h : Later P v w) (hv : Buried v a) : Buried w a := by
  induction h with
  | refl => exact hv
  | tail _ hstep ih => exact next_buried hstep ih

/-! ## Packs -/

/-- The memory that a pack lists for an address is the record there, with the content
decrypted from it. -/
def Packs (P : Platform) (v : Vault) (addr : JsString) (memory : Json) : Prop :=
  ∃ record content, v.memories.get addr = some record ∧ decryptContent P v record = .ok content ∧
    memory = publicMemory P record content

theorem packMemories_packs {args : PackArgs} {packId : Json} (addrs : List JsString) :
    ∀ (env : Ambient) (v : Vault) (packed : List Packed), (∀ a ∈ addrs, isActive (v.memories.get a) = true) →
      packMemories P args packId env addrs v = .ok packed v' →
      List.Forall₂ (Packs P v) addrs (packed.map Packed.memory) := by
  induction addrs with
  | nil =>
    intro env v packed _ h
    rw [packMemories] at h
    obtain ⟨rfl, -⟩ := pure_ok.1 h
    exact .nil
  | cons addr rest ih =>
    intro env v packed hactive h
    rw [packMemories, get_bind] at h
    simp only [ofExcept_bind_ok, append_bind_ok] at h
    obtain ⟨content, hcontent, e1, -, e2, -, h⟩ := h
    obtain ⟨others, t, hrest, h⟩ := EStateM.bind_eq_ok.1 h
    obtain ⟨rfl, rfl⟩ := pure_ok.1 h
    obtain ⟨record, hget, -⟩ := isActive_iff.1 (hactive addr (by simp))
    simp only [hget, Option.getD_some] at hcontent
    refine .cons ⟨record, content, hget, hcontent, by simp only [hget, Option.getD_some]⟩ ?_
    -- the two events leave the records and the key as they are
    exact ih _ (pushEntry P (pushEntry P v e1) e2) _ (fun a ha => hactive a (by simp [ha])) hrest

theorem compileContextPack_packs {env : Ambient} {args : PackArgs} {pack : ContextPack}
    (h : compileContextPack P env args v = .ok pack v') :
    List.Forall₂ (Packs P v) pack.memory_addresses pack.memories := by
  have hlive := (compileContextPack_steps h).2
  unfold compileContextPack at h
  rw [get_bind] at h
  simp only [ofExcept_bind_ok, rejectInvalid_bind_ok] at h
  obtain ⟨passport, -, limit, -, selection, -, -, now, -, h⟩ := h
  obtain ⟨packed, t, hpacked, h⟩ := EStateM.bind_eq_ok.1 h
  simp only [ofExcept_bind_ok, get_bind] at h
  obtain ⟨receipts, -, h⟩ := h
  obtain ⟨rfl, -⟩ := pure_ok.1 h
  exact packMemories_packs _ _ _ _ (fun a ha => (hlive a ha).2) hpacked

/-! ## Buried addresses -/

/-- A deletion of `a`, or an update that moves the memory at `a` to another address. -/
def Retires (P : Platform) (a : JsString) (v v' : Vault) : Prop :=
  (∃ env args r, args.memory_addr = some a ∧ deleteMemory P env args v = .ok r v') ∨
    ∃ env args r, updateMemory P env args v = .ok r v' ∧ r.old_memory_addr = a ∧ r.stored.memory_addr ≠ a

theorem Retires.buried (h : Retires P a v v') : Buried v' a := by
  rcases h with ⟨env, args, r, haddr, h⟩ | ⟨env, args, r, h, hold, -⟩
  · obtain ⟨addr, f, record, tombstone, hstep, hargs, -, hne⟩ := deleteMemory_step h
    obtain rfl : a = addr := Option.some.inj (haddr.symm.trans hargs)
    exact hstep.retire_buries hne
  · obtain ⟨old, new, f, oldRecord, newRecord, tombstone, hstep, -, -, hr, -, hne⟩ := updateMemory_step h
    obtain rfl : old = a := hr.symm.trans hold
    exact hstep.supersede_buries hne

theorem Live.not_buried (h : Live v a) : ¬ Buried v a := by
  intro hb
  have hfree := h.free
  rw [hb.has] at hfree
  exact Bool.noConfusion hfree

theorem Buried.recall_throws (h : Buried v a) (env : Ambient) {args : RecallArgs} (haddr : args.memory_addr = some a) :
    ∃ e u, recallMemory P env args v = .error e u := by
  cases hr : recallMemory P env args v with
  | error e u => exact ⟨e, u, rfl⟩
  | ok r u =>
    obtain ⟨addr, f, -, hargs, hlive, -⟩ := recall_step hr
    obtain rfl : a = addr := Option.some.inj (haddr.symm.trans hargs)
    exact absurd h hlive.not_buried

theorem Buried.remember_elsewhere (h : Buried v a) {env : Ambient} {args : RememberArgs} {r : Stored}
    (hr : remember P env args v = .ok r v') : r.memory_addr ≠ a := by
  obtain ⟨content, record, f, -, hstep, haddr, -⟩ := remember_step hr
  cases hstep.legal with
  | create _ hfree =>
    rintro rfl
    rw [← haddr, h.has] at hfree
    exact Bool.noConfusion hfree

theorem Buried.not_packed (h : Buried v a) {env : Ambient} {args : PackArgs} {pack : ContextPack}
    (hr : compileContextPack P env args v = .ok pack v') : a ∉ pack.memory_addresses :=
  fun ha => ((compileContextPack_steps hr).2 a ha).1.not_buried h

/-- **Deletion is permanent.** Once `a` has been deleted or superseded, in every later
state no recall of `a` succeeds, `remember` stores under other addresses only, and no
pack lists `a`: every memory of a pack is read from the record at a listed address. -/
theorem deletion_permanent (P : Platform) (a : JsString) (v v' w : Vault) (hretires : Retires P a v v')
    (hlater : Later P v' w) :
    (∀ env args, args.memory_addr = some a → ∃ e u, recallMemory P env args w = .error e u) ∧
    (∀ env args r u, remember P env args w = .ok r u → r.memory_addr ≠ a) ∧
    ∀ env args pack u, compileContextPack P env args w = .ok pack u →
      a ∉ pack.memory_addresses ∧ List.Forall₂ (Packs P w) pack.memory_addresses pack.memories := by
  have hburied : Buried w a := later_buried hlater hretires.buried
  refine ⟨fun env args haddr => hburied.recall_throws env haddr, fun env args r u hr => hburied.remember_elsewhere hr, ?_⟩
  intro env args pack u hpack
  exact ⟨hburied.not_packed hpack, compileContextPack_packs hpack⟩

/-- The first memory is deleted; then its content is remembered again under its address,
which throws. -/
theorem deletion_permanent_tea : ∃ v₀ v v' addr, createVault reference referenceEnv {} = .ok v₀ ∧
    Run.run (stepCall reference) v₀ [.remember referenceEnv { content := some tea }] = some v ∧
    Retires reference addr v v' ∧
    (∀ env args, args.memory_addr = some addr → ∃ e u, recallMemory reference env args
      (attempt reference v' (.remember referenceEnv { content := some tea })) = .error e u) ∧
    (∀ env args r u, remember reference env args
      (attempt reference v' (.remember referenceEnv { content := some tea })) = .ok r u → r.memory_addr ≠ addr) ∧
    ∀ env args pack u, compileContextPack reference env args
      (attempt reference v' (.remember referenceEnv { content := some tea })) = .ok pack u →
        addr ∉ pack.memory_addresses ∧ List.Forall₂ (Packs reference
          (attempt reference v' (.remember referenceEnv { content := some tea }))) pack.memory_addresses pack.memories := by
  obtain ⟨v₀, v, addr, h⟩ := firstMemory
  obtain ⟨v', hv⟩ := h.delete
  obtain ⟨u, hexec⟩ := stepCall_eq_some.1 hv
  obtain ⟨r, hr⟩ := discard_ok.1 hexec
  have hretires : Retires reference addr v v' := Or.inl ⟨referenceEnv, { memory_addr := some addr }, r, rfl, hr⟩
  exact ⟨v₀, v, v', addr, h.created, h.run_one, hretires, deletion_permanent reference addr v v' _ hretires
    (.single (.call v' _))⟩

/-! ## The content of a deleted memory -/

/-- The arguments that store the first content under another identifier. -/
def teaAgain : RememberArgs := { content := some tea, memory_id := some (.str (js "tea again")) }

theorem addressKey_reference (h : createVault reference referenceEnv {} = .ok v) : v.addressKey.1 = List.replicate 32 0 := by
  obtain ⟨vaultKey, addressKey, seed, hkeys, -, hv, -⟩ := (createVault_created h).keys
  have hok : vaultKeys reference referenceEnv {} = .ok (⟨List.replicate 32 0, by simp⟩, ⟨List.replicate 32 0, by simp⟩, none) := rfl
  rw [hok] at hkeys
  cases hkeys
  rw [hv]

/-- The two addresses differ. -/
theorem teaAgain_ne (hkey : v.addressKey.1 = List.replicate 32 0) (hkey' : w.addressKey.1 = List.replicate 32 0)
    (hsub : v.subject_id = .str (js "local-subject")) (hsub' : w.subject_id = .str (js "local-subject")) :
    rememberTarget reference w referenceEnv teaAgain tea ≠
      rememberTarget reference v referenceEnv { content := some tea } tea := by
  rw [rememberTarget, rememberTarget, memoryAddress, memoryAddress, hkey, hkey', hsub, hsub']
  decide +kernel

/-- What was encrypted for a record is decrypted from it. -/
theorem decryptContent_reference {record : Json} {iv : Bytes} {addr s : JsString}
    (h : record.get (js "content_ciphertext") = some (encryptContent reference v iv addr s)) :
    decryptContent reference w record = .ok (reference.ofUtf8 (utf8 s)) := by
  have hdec : reference.decrypt w.vaultKey iv (utf8 addr) (reference.encrypt v.vaultKey iv (utf8 addr) (utf8 s)).1
      (reference.encrypt v.vaultKey iv (utf8 addr) (utf8 s)).2 = .ok (utf8 s) := Reference.decrypt_encrypt _ _
  unfold decryptContent
  rw [h]
  simp [encryptContent, bufferField, orElse, bind, Except.bind, pure, Except.pure, reference.ofBase64_base64, hdec]

theorem packLimit_reference {args : PackArgs} (h : args.limit = none) : packLimit reference args = .ok 12 := by
  simp [packLimit, h, withDefault, orElse, reference, Json.natural?]

/-- A vault that has remembered a text can compile it into a pack. -/
theorem remembered_packed {sk s : JsString} {args : RememberArgs} {r : Stored} (hs : Signer reference sk v)
    (hw : Writable reference v none .absent) (hcontent : args.content = some (.str s))
    (hr : remember reference referenceEnv args v = .ok r w) :
    ∃ record pack u, w.memories.get r.memory_addr = some record ∧
      decryptContent reference w record = .ok (reference.ofUtf8 (utf8 s)) ∧ Live w r.memory_addr ∧
      compileContextPack reference referenceEnv { memory_addresses := some [r.memory_addr] } w = .ok pack u ∧
      pack.memory_addresses = [r.memory_addr] := by
  have hgrows : Grows v w := stepCall_grows (c := .remember referenceEnv args)
    (stepCall_eq_some.2 ⟨(), discard_ok.2 ⟨r, hr⟩⟩)
  have hquiet := isQuiet_memoryAddress (P := reference) v (withDefault args.subject_id v.subject_id)
    (withDefault args.memory_id (.str (js "mem_" ++ referenceEnv.uuid 0))) (prefixedSha256 ((Json.str s).toText reference.toNumberFormat))
  obtain ⟨content, record, f, hargs, hstep, haddr, -, -, hcipher⟩ := remember_step hr
  cases hcontent.symm.trans hargs
  change (rememberTarget reference v referenceEnv args (.str s)).all isQuiet = true at hquiet
  rw [← haddr] at hstep hquiet
  have hcreate : IsRecord r.memory_addr "active" record ∧ v.tombstones.has r.memory_addr = false := by
    cases hstep.legal with
    | create _ hfree hrecord => exact ⟨hrecord, hfree⟩
  obtain ⟨hrecord, hfree⟩ := hcreate
  obtain ⟨env, e, -, hpush⟩ := hstep.appended
  have hget : w.memories.get r.memory_addr = some record := by
    rw [hpush]
    exact (OrdMap.get_set (m := v.memories)).trans (if_pos rfl)
  have hlive : Live w r.memory_addr := by
    rw [hpush]
    exact ⟨OrdSet.mem_add.2 (Or.inl rfl), hfree⟩
  have hdecrypt : decryptContent reference w record = .ok (reference.ofUtf8 (utf8 s)) := decryptContent_reference hcipher
  have hpack : Succeeds (compileContextPack reference referenceEnv { memory_addresses := some [r.memory_addr] }) w := by
    refine compileContextPack_ok (hgrows.signer_ok hs) rfl rfl (packLimit_reference rfl) (hw.of_grows hgrows)
      harmless_none harmless_none ?_ ?_
    all_goals
      intro a ha
      obtain rfl : a = r.memory_addr := by simpa using ha
    · exact ⟨hlive, isActive_iff.2 ⟨record, hget, hrecord.state⟩⟩
    · exact ⟨hquiet, _, by rw [hget, Option.getD_some, hdecrypt]⟩
  obtain ⟨pack, u, hpack⟩ := hpack
  obtain ⟨limit, hlimit, hselection⟩ := compileContextPack_selection hpack
  refine ⟨record, pack, u, hget, hdecrypt, hlive, hpack, ?_⟩
  cases (packLimit_reference rfl).symm.trans hlimit
  exact (congrArg Prod.fst (Except.ok.inj hselection)).symm

/-- **A content comes back**: deleted under one address and remembered again under another,
it is listed in a pack. -/
theorem deletion_tea : ∃ v₀ v v₁ v₂ v₃ addr addr' pack memory, createVault reference referenceEnv {} = .ok v₀ ∧
    Run.run (stepCall reference) v₀ [.remember referenceEnv { content := some tea }] = some v ∧
    addr = rememberTarget reference v₀ referenceEnv { content := some tea } tea ∧
    stepCall reference v (.deleteMemory referenceEnv { memory_addr := some addr }) = some v₁ ∧
    stepCall reference v₁ (.remember referenceEnv teaAgain) = some v₂ ∧
    compileContextPack reference referenceEnv { memory_addresses := some [addr'] } v₂ = .ok pack v₃ ∧
    memory ∈ pack.memories ∧ memory.get (js "content") = some tea := by
  obtain ⟨v₀, v, addr, h⟩ := firstMemory
  obtain ⟨v₁, hv₁⟩ := h.delete
  have hg₁ : Grows v₀ v₁ := (stepCall_grows h.remembered).trans _ _ _ (stepCall_grows hv₁)
  have hsub₀ : v₀.subject_id = .str (js "local-subject") := (createVault_created h.created).subject_id
  -- the second address is free
  have hne := teaAgain_ne (addressKey_reference h.created) (hg₁.addressKey ▸ addressKey_reference h.created) hsub₀
    (hg₁.subject_id.trans hsub₀)
  rw [← h.address] at hne
  set addr' := rememberTarget reference v₁ referenceEnv teaAgain tea with haddr'
  have hfree : v₁.tombstones.has addr' = false := by
    obtain ⟨u, hexec⟩ := stepCall_eq_some.1 hv₁
    obtain ⟨r, hr⟩ := discard_ok.1 hexec
    obtain ⟨old, f, record, tombstone, hstep, hargs, -, -⟩ := deleteMemory_step hr
    obtain rfl : addr = old := Option.some.inj hargs
    obtain ⟨env, e, -, rfl⟩ := hstep.appended
    exact OrdMap.has_set.trans (by rw [h.free, Bool.or_false, decide_eq_false hne])
  have hw₁ : Writable reference v₁ none .absent := h.writable.of_grows hg₁
  have hok : Succeeds (remember reference referenceEnv teaAgain) v₁ :=
    remember_ok (hg₁.signer_ok h.signer₀) rfl tea_ne_null trivial hfree hw₁.subject_id hw₁.policy_id
  obtain ⟨r, v₂, hr⟩ := hok
  have hv₂ : stepCall reference v₁ (.remember referenceEnv teaAgain) = some v₂ :=
    stepCall_eq_some.2 ⟨(), discard_ok.2 ⟨r, hr⟩⟩
  have hg₂ : Grows v₀ v₂ := hg₁.trans _ _ _ (stepCall_grows hv₂)
  obtain ⟨record, pack, v₃, hget, hdecrypt, -, hpack, hlist⟩ := remembered_packed (hg₁.signer_ok h.signer₀) hw₁ rfl hr
  have haddr : r.memory_addr = addr' := by
    obtain ⟨content, -, -, hcontent, -, haddr, -⟩ := remember_step hr
    cases hcontent
    exact haddr
  rw [haddr] at hget hpack hlist
  rw [show reference.ofUtf8 (utf8 (js "prefers tea")) = js "prefers tea" by decide] at hdecrypt
  have hpacks := compileContextPack_packs hpack
  rw [hlist] at hpacks
  obtain ⟨memory, rest, ⟨record', content, hget', hcontent, hmemory⟩, -, hmems⟩ := List.forall₂_cons_left_iff.1 hpacks
  obtain rfl : record = record' := Option.some.inj (hget.symm.trans hget')
  refine ⟨v₀, v, v₁, v₂, v₃, addr, addr', pack, memory, h.created, h.run_one, h.address, hv₁, hv₂, hpack,
    by rw [hmems]; simp, ?_⟩
  obtain rfl : js "prefers tea" = content := Except.ok.inj (hdecrypt.symm.trans hcontent)
  rw [hmemory]
  simp [publicMemory, get_obj_append, tea]

end EnigmaMemory
