import EnigmaMemory.Proof.Import
import EnigmaMemory.Proof.Reference

/-!
# Export and import

A vault that tracks its fates exports a bundle that every import accepts: the receipts
replay to the declared state (`declares_export`), the identity comes back from the
keyring, and the restored vault can sign the event of its own import.

* `round_trip`: importing the export of a vault gives the vault back, after every run of
  fresh and plain calls.
* `export_refused`: the bundle of a vault that is active and tombstoned at one address is
  never imported.
-/

namespace EnigmaMemory

open Json

variable {P : Platform} {v v' : Vault} {sk : JsString} {m : Fates} {bundle : Bundle}

/-! ## Bundles -/

/-- What a bundle has of its vault. -/
structure Exports (P : Platform) (env : Ambient) (passphrase : Option JsString) (v : Vault) (bundle : Bundle) : Prop where
  vault : bundle.vault = bundleVault P v
  keyring : buildKeyring P env v passphrase = .ok bundle.keyring
  memory_objects : bundle.memory_objects = v.memories.values.map (publicRecord P.toNumberFormat)
  active_memory_addresses : bundle.active_memory_addresses = sortStrings v.activeAddresses.elems
  tombstones : bundle.tombstones = sortedTombstones P v
  receipts : bundle.receipts = v.receipts

theorem exportBundle_exports {env : Ambient} {args : ExportArgs} (h : exportBundle P env args v = .ok bundle v') :
    (∃ e, v' = pushEntry P v e) ∧ Exports P env args.passphrase v' bundle := by
  unfold exportBundle at h
  simp only [get_bind, append_bind_ok, ofExcept_bind_ok] at h
  obtain ⟨e, he, now, -, keyring, hkeyring, h⟩ := h
  obtain ⟨rfl, rfl⟩ := pure_ok.1 h
  exact ⟨⟨e, rfl⟩, rfl, hkeyring, rfl, rfl, rfl, rfl⟩

section Declared

variable {env : Ambient} {passphrase : Option JsString}

/-- **The receipts of a vault replay to what its bundle declares.** -/
theorem declares_export (h : Tracks P v m) (hb : Exports P env passphrase v bundle) {s : Lifecycle}
    (hs : Represents s.active s.tombstones m) : Declares P bundle s := by
  have hactive : ∀ a, a ∈ v.activeAddresses ↔ a ∈ s.active := fun a => (h.live.active a).trans (hs.active a).symm
  have himported := importedTombstones_sorted (P := P) (v := v) fun a t ht => by
    obtain ⟨op, hop⟩ := h.tombstone a t ht
    have hm : m a ≠ none := by
      intro hm
      rw [h.live.get_eq_none.2 (by rw [hm]; rfl)] at ht
      cases ht
    rw [hop.addr]
    exact addrOf_str (h.ne a hm)
  have hop : ∀ a, (v.tombstones.get a).map (·.get (js "operation")) = (s.tombstones.get a).map (·.get (js "operation")) :=
    fun a => (h.live.tombstones a).trans (hs.tombstones a).symm
  refine ⟨fun a => ?_, ?_, fun a => ?_, fun a t ht => ?_⟩
  · rw [hb.active_memory_addresses, sortStrings, (List.perm_insertionSort _ _).mem_iff]
    exact hactive a
  · have hroot : bundle.vault.get (js "active_set_root") = some (.str (computeSetRoot v.activeAddresses.elems)) := by
      rw [hb.vault]
      simp [bundleVault, lifecycleRoots]
    rw [hroot, rootClash, computeSetRoot_congr hactive]
    simp [Json.isStr]
  · have hsome := congrArg Option.isSome (hop a)
    rw [Option.isSome_map, Option.isSome_map] at hsome
    rw [hb.tombstones, OrdMap.has, himported, Option.isSome_map, hsome]
    rfl
  · rw [hb.tombstones, himported]
    have ha := hop a
    rw [ht] at ha
    obtain ⟨t', ht', heq⟩ := Option.map_eq_some_iff.1 ha
    obtain ⟨op, htomb⟩ := h.tombstone a t' ht'
    rw [htomb.operation] at heq
    simp [operationClash, ht', ← publicRecord.eq_def, get_publicRecord (by decide : isPublicField (js "operation") = true)
      htomb.nodup, htomb.operation, sanitizePublicValue, ← heq, Json.isStr]

/-- The merged tombstones keep the replayed operations. -/
theorem represents_reconciled {s : Lifecycle} (hs : Represents s.active s.tombstones m) (bundle : Bundle) :
    Represents (reconciled P bundle s).active (reconciled P bundle s).tombstones m := by
  refine ⟨hs.active, fun a => ?_⟩
  rw [← hs.tombstones a, reconciled, OrdMap.get_mapValues, Option.map_map]
  cases ht : s.tombstones.get a with
  | none => rfl
  | some t =>
    have h := hs.tombstones a
    rw [ht, Option.map_some] at h
    obtain ⟨op, -, hop⟩ := Option.map_eq_some_iff.1 h.symm
    simp [mergedTombstone, ← hop]

end Declared

/-! ## The restored identity -/

theorem withDefault_some {x : Json} (h : x ≠ .null) (d : Json) : withDefault (some x) d = x := by
  cases x with
  | null => exact absurd rfl h
  | _ => rfl

theorem withDefault_ne_null {d : Json} (h : d ≠ .null) (x : Option Json) : withDefault x d ≠ .null := by
  rcases x with - | j
  · exact h
  · cases j with
    | null => exact h
    | _ => simp [withDefault, orElse]

theorem Named.ne_null {x : Json} (h : Named P (some x)) : x ≠ .null := by
  obtain ⟨s, hs, -⟩ := h
  cases hs
  simp

/-- What a vault needs to find itself again in its keyring. -/
structure Portable (P : Platform) (v : Vault) : Prop where
  created_at : ∃ t, v.created_at = .str (P.isoText t)
  signer : v.signer ≠ .null
  policy_id : v.policy_id ≠ .null

theorem Created.portable {env : Ambient} {args : CreateArgs} (h : Created P env args v) : Portable P v where
  created_at := h.created_at
  signer := h.signer ▸ withDefault_ne_null (by simp [signerFor]) _
  policy_id := h.policy_id ▸ withDefault_ne_null (by simp) _

theorem Grows.portable (h : Grows v v') (hv : Portable P v) : Portable P v' :=
  ⟨h.created_at ▸ hv.created_at, h.signer ▸ hv.signer, h.policy_id ▸ hv.policy_id⟩

theorem keyBytes_base64 (random key : Key) (label : String) :
    keyBytes P random (keyArg (some (.str (P.base64 key.1)))) label = .ok key := by
  have hlen : (P.ofBase64 (P.base64 key.1)).length = 32 := by rw [P.ofBase64_base64, key.2]
  rw [keyArg, keyBytes, dif_pos hlen]
  exact congrArg _ (Subtype.ext (P.ofBase64_base64 key.1))

/-- What an import reads from a plain keyring. -/
structure KeyringReads (P : Platform) (v : Vault) (keyring : Json) : Prop where
  type : keyring.get (js "type") = some (.str (js "local_secret"))
  vault_key : keyring.get (js "vault_key_b64") = some (.str (P.base64 v.vaultKey.1))
  address_key : keyring.get (js "address_key_b64") = some (.str (P.base64 v.addressKey.1))
  privateKey : keyring.get (js "privateKey") = v.signingKeyPair.privateKey.map .str
  signer : keyring.get (js "signer") = some v.signer

theorem keyringReads {env : Ambient} {keyring : Json} (h : buildKeyring P env v none = .ok keyring) :
    KeyringReads P v keyring := by
  simp only [buildKeyring, nonEmpty, Except.pure_eq_ok] at h
  subst h
  constructor
  all_goals simp [get_obj_append]

theorem createVault_ok {env : Ambient} {args : CreateArgs} (hnow : args.now.Valid P)
    (hkeys : ∃ keys, vaultKeys P env args = .ok keys) : ∃ v, createVault P env args = .ok v := by
  obtain ⟨ts, hts⟩ := (nowIso_ok_iff (env.clock 0)).2 hnow
  obtain ⟨keys, hkeys⟩ := hkeys
  unfold createVault
  rw [hts, hkeys]
  exact ⟨_, rfl⟩

/-- A vault with the identity and the position of another. -/
structure Restores (v w : Vault) : Prop where
  privateKey : w.signingKeyPair.privateKey = v.signingKeyPair.privateKey
  tenant_id : w.tenant_id = v.tenant_id
  subject_id : w.subject_id = v.subject_id
  policy_id : w.policy_id = v.policy_id
  signer : w.signer = v.signer
  sequence : w.sequence = v.sequence

/-- A restored vault can append the event of its import. -/
theorem Restores.accepts {w : Vault} {args : ImportArgs} (env : Ambient) (h : Restores v w) (hs : Signer P sk v)
    (hw : Writable P v args.policy_id args.now) : ∃ e, nextEntry P env w (importEvent args w) = .ok e := by
  have hs' : Signer P sk w := ⟨h.privateKey ▸ hs.key, hs.signs, h.tenant_id ▸ hs.tenant_id, h.signer ▸ hs.signer,
    h.sequence ▸ hs.sequence⟩
  refine hs'.accepts ⟨rfl, rfl, rfl, rfl⟩ (named_js (by decide) (by decide)) rfl ?_ ?_ ?_ ?_ ?_ ?_ hw.now
  · rw [h.subject_id]
    exact hw.subject_id
  · exact harmless_none
  · exact harmless_none
  · exact harmless_none
  · exact harmless_none
  · rw [h.policy_id]
    exact hw.policy_id

/-- **The vault behind a plain keyring comes back.** -/
theorem importedVault_ok {env : Ambient} (env' : Ambient) (args : ImportArgs) (hb : Exports P env none v bundle) (hs : Signer P sk v)
    (hsk : sk ≠ []) (hsubject : Named P (some v.subject_id)) (hv : Portable P v) : ∃ secrets created,
      keyringSecrets P bundle.keyring args.passphrase = .ok secrets ∧
      importedVault P env' args bundle secrets = .ok created ∧ Restores v created := by
  have hk := keyringReads hb.keyring
  obtain ⟨t, ht⟩ := hv.created_at
  -- the identity in the bundle
  have hvault : bundle.vault.get (js "tenant_id") = some v.tenant_id ∧
      bundle.vault.get (js "subject_id") = some v.subject_id ∧ bundle.vault.get (js "policy_id") = some v.policy_id ∧
      bundle.vault.get (js "created_at") = some v.created_at ∧
      bundle.vault.get (js "sequence") = some (.num v.sequence) := by
    rw [hb.vault]
    simp [bundleVault]
  obtain ⟨htenant, hsubj, hpolicy, hcreated, hseq⟩ := hvault
  have hsecrets : ∃ w, keyringSecrets P bundle.keyring args.passphrase =
      .ok ⟨some (.str (P.base64 v.vaultKey.1)), some (.str (P.base64 v.addressKey.1)), some (.str sk), w⟩ := by
    rw [keyringSecrets, if_neg (by simp [hk.type]), hk.vault_key, hk.address_key, hk.privateKey, hs.key]
    exact ⟨_, rfl⟩
  obtain ⟨w, hsecrets⟩ := hsecrets
  have hpair : ∃ pair, restoredSigningKeyPair bundle.keyring (some (.str sk)) = some pair ∧ pair.privateKey = some sk := by
    rw [restoredSigningKeyPair, addrOf_str hsk]
    exact ⟨_, rfl, rfl⟩
  obtain ⟨pair, hpair, hkey⟩ := hpair
  set secrets : KeyringSecrets := ⟨some (.str (P.base64 v.vaultKey.1)), some (.str (P.base64 v.addressKey.1)),
    some (.str sk), w⟩ with hdef
  set cargs := importCreateArgs args bundle secrets with hcargs
  have hnow : cargs.now.Valid P := by
    change (nowArg (bundle.vault.get (js "created_at"))).Valid P
    rw [hcreated, ht, nowArg, Now.Valid, P.isoText_parse]
    rfl
  have hkeys : ∃ keys, vaultKeys P env' cargs = .ok keys := by
    have hpass : cargs.passphrase = none := rfl
    have h1 : cargs.vault_key = keyArg (some (.str (P.base64 v.vaultKey.1))) := rfl
    have h2 : cargs.address_key = keyArg (some (.str (P.base64 v.addressKey.1))) := rfl
    simp only [vaultKeys, hpass, h1, h2, keyBytes_base64]
    exact ⟨_, rfl⟩
  obtain ⟨created, hcreate⟩ := createVault_ok hnow hkeys
  have hnew := createVault_created hcreate
  -- every field of the identity is in the bundle, so no default is used
  have htenant' : cargs.tenant_id = some v.tenant_id := htenant
  have hsubject' : cargs.subject_id = some v.subject_id := hsubj
  have hpolicy' : cargs.policy_id = some v.policy_id := hpolicy
  have hsigner' : cargs.signer = some v.signer := hk.signer
  have hpair' : cargs.signingKeyPair = some pair := hpair
  refine ⟨secrets, _, hsecrets, Except.bind_eq_ok.2 ⟨created, hcreate, rfl⟩, ?_, ?_, ?_, ?_, ?_, ?_⟩
  · obtain ⟨vk, ak, seed, -, -, -, hsign⟩ := hnew.keys
    change created.signingKeyPair.privateKey = _
    rw [hsign, hpair', Option.getD_some, hkey, hs.key]
  · change created.tenant_id = _
    rw [hnew.tenant_id, htenant', withDefault_some hs.tenant_id.ne_null]
  · change created.subject_id = _
    rw [hnew.subject_id, hsubject', withDefault_some hsubject.ne_null]
  · change created.policy_id = _
    rw [hnew.policy_id, hpolicy', withDefault_some hv.policy_id]
  · change created.signer = _
    rw [hnew.signer, hsigner', withDefault_some hv.signer]
  · change integerOr0 (bundle.vault.get (js "sequence")) = _
    rw [hseq, integerOr0]
    simp

/-! ## The round trip -/

/-- Two vaults with the same active addresses, the same operations at the same tombstones
and the same states of the same records. -/
structure SameLifecycle (v w : Vault) : Prop where
  active : ∀ a, a ∈ w.activeAddresses ↔ a ∈ v.activeAddresses
  tombstones : ∀ a, (w.tombstones.get a).map (·.get (js "operation")) = (v.tombstones.get a).map (·.get (js "operation"))
  records : ∀ a, (w.memories.get a).map (·.get (js "state")) = (v.memories.get a).map (·.get (js "state"))

/-- What the import of a bundle makes of its objects, `s` being the replayed state. -/
structure Adopts (P : Platform) (objects : List Json) (s : Lifecycle) (w : Vault) : Prop where
  active : w.activeAddresses = s.active
  tombstones : w.tombstones = s.tombstones
  memories : ∀ a, w.memories.get a = ((importedRecords P objects).get a).map fun r => (reconciledRecord s a r).getD r

/-- **The bundle of a vault that tracks its fates is imported**, whatever its objects are, as
long as they lie under known addresses. -/
theorem importBundle_objects {env : Ambient} (env' : Ambient) (args : ImportArgs) (h : Tracks P v m)
    (hb : Exports P env none v bundle) (hs : Signer P sk v) (hsk : sk ≠ []) (hv : Portable P v)
    (hw : Writable P v args.policy_id args.now) (objects : List Json)
    (hobjects : ∀ a r, (importedRecords P objects).get a = some r → ∃ fate, m a = some fate) :
    ∃ imported s, importBundle P env' args { bundle with memory_objects := objects } = .ok imported ∧
      Represents s.active s.tombstones m ∧ Adopts P objects s imported.vault ∧
      imported.vault.sequence = imported.vault.receipts.length ∧
      Signer P sk imported.vault ∧ Writable P imported.vault args.policy_id args.now := by
  obtain ⟨secrets, created, hsecrets, hcreated, hid⟩ := importedVault_ok env' args hb hs hsk hw.subject_id hv
  obtain ⟨receipts, hreceipts, hlength, hreplay⟩ := importReceipts (P := P) h.signed
  obtain ⟨s, hs', hrep⟩ := h.replay
  have hderived : deriveReceiptLifecycle receipts = .ok s := (hreplay _).trans hs'
  obtain ⟨edited, hedited⟩ : ∃ edited : Bundle, edited = { bundle with memory_objects := objects } := ⟨_, rfl⟩
  have hdeclares : Declares P edited s := by
    have hd := declares_export h hb hrep
    rw [hedited]
    exact ⟨hd.active, hd.root, hd.tombstones, hd.operations⟩
  have hlifecycle := (reconcileLifecycle_ok (P := P)).2 ⟨s, hderived, hdeclares, rfl⟩
  have hrep' := represents_reconciled (P := P) hrep edited
  obtain ⟨memories, hmemories, hget⟩ := reconcileRecords_ok hrep' hobjects
  obtain ⟨restored, hrestored⟩ : ∃ restored, restored = applyLifecycleRoots P { created with
      events := edited.events.map (sanitizeImportedEventEntry P)
      receipts, memories
      activeAddresses := (reconciled P edited s).active
      tombstones := (reconciled P edited s).tombstones } := ⟨_, rfl⟩
  have hrestore : restoreVault P env' args edited secrets = .ok restored := by
    refine restoreVault_ok.2 ⟨created, receipts, _, memories, ?_, ?_, hlifecycle, ?_, hrestored⟩
    · rw [hedited]
      exact hcreated
    · rw [hedited]
      exact hb.receipts ▸ hreceipts
    · rw [hedited]
      rw [hedited] at hmemories
      exact hmemories
  have hident : Restores v restored := by
    rw [hrestored]
    exact ⟨hid.privateKey, hid.tenant_id, hid.subject_id, hid.policy_id, hid.signer, hid.sequence⟩
  obtain ⟨e, he⟩ := hident.accepts (env'.drop 3) hs hw
  have himport := importBundle_ok.2 ⟨secrets, restored, e, by rw [hedited]; exact hsecrets, hrestore, he, rfl⟩
  refine ⟨_, _, hedited ▸ himport, hrep', ⟨?_, ?_, fun a => ?_⟩, ?_, ?_, ?_⟩
  · rw [hrestored]
    rfl
  · rw [hrestored]
    rfl
  · have hv' : (pushEntry P restored e).memories = memories := by rw [hrestored]; rfl
    rw [hv', hget a]
  · have hlog : (pushEntry P restored e).receipts = receipts ++ [e.receipt] := by rw [hrestored]; rfl
    change restored.sequence + 1 = _
    rw [hlog, List.length_append, List.length_singleton, hlength, hident.sequence, h.sequence]
    push_cast
    rfl
  · have hseq : (0 : ℤ) ≤ restored.sequence + 1 := by
      rw [hident.sequence]
      have hnonneg := hs.sequence
      omega
    exact ⟨hident.privateKey.trans hs.key, hs.signs, hident.tenant_id ▸ hs.tenant_id, hident.signer ▸ hs.signer, hseq⟩
  · exact ⟨hw.now, hident.subject_id ▸ hw.subject_id, hident.policy_id ▸ hw.policy_id⟩

/-- **The bundle of a vault that tracks its fates gives the vault back.** -/
theorem importBundle_export {env : Ambient} (env' : Ambient) (args : ImportArgs) (h : Tracks P v m)
    (hb : Exports P env none v bundle) (hs : Signer P sk v) (hsk : sk ≠ []) (hv : Portable P v)
    (hw : Writable P v args.policy_id args.now) : ∃ imported, importBundle P env' args bundle = .ok imported ∧
      SameLifecycle v imported.vault ∧ imported.vault.sequence = imported.vault.receipts.length ∧
      Signer P sk imported.vault ∧ Writable P imported.vault args.policy_id args.now := by
  -- the records are found under their addresses, in the states they had
  have hrecords := importedRecords_values (P := P) (v := v) fun a r hr => by
    obtain ⟨fate, -, hr⟩ := h.record a r hr
    exact ⟨hr.addr, hr.nodup⟩
  have hstates : ∀ a r, (importedRecords P bundle.memory_objects).get a = some r → ∃ fate, m a = some fate ∧
      r.get (js "state") = some (.str (js fate.state)) := by
    intro a r hr
    rw [hb.memory_objects, hrecords] at hr
    obtain ⟨r₀, hr₀, rfl⟩ := Option.map_eq_some_iff.1 hr
    obtain ⟨fate, hm, hrec⟩ := h.record a r₀ hr₀
    exact ⟨fate, hm, publicRecord_twice (by decide) hrec.nodup hrec.state⟩
  obtain ⟨imported, s, himport, hrep, hadopts, hrest⟩ := importBundle_objects env' args h hb hs hsk hv hw bundle.memory_objects
    fun a r hr => (hstates a r hr).imp fun _ hf => hf.1
  refine ⟨imported, himport, ⟨fun a => ?_, fun a => ?_, fun a => ?_⟩, hrest⟩
  · rw [hadopts.active]
    exact (hrep.active a).trans (h.live.active a).symm
  · rw [hadopts.tombstones]
    exact (hrep.tombstones a).trans (h.live.tombstones a).symm
  · rw [hadopts.memories]
    cases hr : (importedRecords P bundle.memory_objects).get a with
    | none =>
      rw [hb.memory_objects, hrecords, Option.map_eq_none_iff] at hr
      rw [hr]
      rfl
    | some r =>
      obtain ⟨fate, hm, hstate⟩ := hstates a r hr
      obtain ⟨r', hr', hstate'⟩ := reconciledRecord_ok hrep hm r
      rw [hb.memory_objects, hrecords] at hr
      obtain ⟨r₀, hr₀, -⟩ := Option.map_eq_some_iff.1 hr
      obtain ⟨fate₀, hm₀, hrec⟩ := h.record a r₀ hr₀
      obtain rfl : fate = fate₀ := Option.some.inj (hm.symm.trans hm₀)
      simp only [Option.map_some, hr', Option.getD_some, hstate', hr₀, hrec.state]

theorem Writable.of_grows {policy : Option Json} {now : Now} (h : Writable P v policy now) (hg : Grows v v') :
    Writable P v' policy now :=
  ⟨h.now, hg.subject_id ▸ h.subject_id, hg.policy_id ▸ h.policy_id⟩

/-- The event of an export changes nothing that is tracked. -/
theorem export_tracks {env : Ambient} {args : ExportArgs} (h : Tracks P v m)
    (hexport : exportBundle P env args v = .ok bundle v') : Tracks P v' m := by
  obtain ⟨f, hstep, hop⟩ := exportBundle_step hexport
  exact step_tracks h hstep trivial (by simp [Change.Plain, hop])

/-- **Importing the export of a vault gives the vault back**, after every run of calls in
which every update is to a fresh address and no recall calls itself a deletion. The
receipts alone determine the active addresses and the tombstones. -/
theorem round_trip (P : Platform) (env exportEnv importEnv : Ambient) (args : CreateArgs) (v₀ v : Vault) (sk : JsString)
    (calls : List Call) (exportArgs : ExportArgs) (importArgs : ImportArgs)
    (hcreate : createVault P env args = .ok v₀) (hsigner : Signer P sk v₀) (hsk : sk ≠ [])
    (hrun : Run.run (stepCall P) v₀ calls = some v)
    (hall : Run.All (stepCall P) (fun u c => c.Fresh P u ∧ c.Plain) v₀ calls)
    (hexport : Writable P v₀ exportArgs.policy_id exportArgs.now) (hpass : exportArgs.passphrase = none)
    (himport : Writable P v₀ importArgs.policy_id importArgs.now) :
    (∃ bundle v₁ imported, exportBundle P exportEnv exportArgs v = .ok bundle v₁ ∧
      importBundle P importEnv importArgs bundle = .ok imported ∧ SameLifecycle v imported.vault ∧
      imported.vault.sequence = imported.vault.receipts.length) ∧
    ∃ s, deriveReceiptLifecycle v.receipts = .ok s ∧ (∀ a, a ∈ s.active ↔ a ∈ v.activeAddresses) ∧
      ∀ a, (s.tombstones.get a).map (·.get (js "operation")) = (v.tombstones.get a).map (·.get (js "operation")) := by
  have hnew := createVault_created hcreate
  have hgrows := run_grows hrun
  obtain ⟨m, htracks⟩ := run_tracks ⟨_, hnew.tracks⟩ hrun hall
  constructor
  · have hok : Succeeds (exportBundle P exportEnv exportArgs) v :=
      exportBundle_ok (hgrows.signer_ok hsigner) (hexport.of_grows hgrows)
    obtain ⟨bundle, v₁, hb⟩ := hok
    obtain ⟨⟨e, hv₁⟩, hexports⟩ := exportBundle_exports hb
    rw [hpass] at hexports
    have hgrows₁ : Grows v₀ v₁ := by
      have h := exportBundle_grows (P := P) exportEnv exportArgs v
      rw [EStateM.after, hb] at h
      exact hgrows.trans _ _ _ h
    obtain ⟨imported, himp, hsame, hseq, -⟩ := importBundle_export importEnv importArgs (export_tracks htracks hb) hexports
      (hgrows₁.signer_ok hsigner) hsk (hgrows₁.portable hnew.portable) (himport.of_grows hgrows₁)
    refine ⟨bundle, v₁, imported, hb, himp, ?_, hseq⟩
    rw [hv₁] at hsame
    exact ⟨hsame.active, hsame.tombstones, hsame.records⟩
  · obtain ⟨s, hs, hrep⟩ := htracks.replay
    exact ⟨s, hs, fun a => (hrep.active a).trans (htracks.live.active a).symm,
      fun a => (hrep.tombstones a).trans (htracks.live.tombstones a).symm⟩

theorem FirstMemory.writable {v₀ v : Vault} {addr : JsString} (h : FirstMemory v₀ v addr) :
    Writable reference v₀ none .absent := by
  have hg := stepCall_grows h.remembered
  exact ⟨trivial, hg.subject_id ▸ h.subject_id, hg.policy_id ▸ h.policy_id⟩

theorem round_trip_delete : ∃ v₀ v addr, createVault reference referenceEnv {} = .ok v₀ ∧
    Run.run (stepCall reference) v₀ [.remember referenceEnv { content := some tea },
      .deleteMemory referenceEnv { memory_addr := some addr }] = some v ∧
    (∃ bundle v₁ imported, exportBundle reference referenceEnv {} v = .ok bundle v₁ ∧
      importBundle reference referenceEnv {} bundle = .ok imported ∧ SameLifecycle v imported.vault ∧
      imported.vault.sequence = imported.vault.receipts.length) ∧
    ∃ s, deriveReceiptLifecycle v.receipts = .ok s ∧ (∀ a, a ∈ s.active ↔ a ∈ v.activeAddresses) ∧
      ∀ a, (s.tombstones.get a).map (·.get (js "operation")) = (v.tombstones.get a).map (·.get (js "operation")) := by
  obtain ⟨v₀, v₁, addr, h⟩ := firstMemory
  obtain ⟨v, hv⟩ := h.delete
  have hrun := (h.run _).trans hv
  refine ⟨v₀, v, addr, h.created, hrun, round_trip reference referenceEnv referenceEnv referenceEnv {} v₀ v
    Reference.privateKey _ {} {} h.created h.signer₀ (by decide +kernel) hrun ?_ h.writable rfl h.writable⟩
  rw [Run.all_cons h.remembered, Run.all_cons hv]
  exact ⟨⟨trivial, trivial⟩, ⟨trivial, trivial⟩, Run.All.nil _ _⟩

/-! ## Bundles that no import accepts -/

/-- **A vault that keeps an active address tombstoned exports a bundle that is refused**,
whatever the arguments of the import. -/
theorem export_refused {env : Ambient} {passphrase : Option JsString} (env' : Ambient) (args : ImportArgs) {a : JsString}
    (hb : Exports P env passphrase v bundle) (hactive : a ∈ v.activeAddresses) (hburied : Buried v a) :
    ∃ e, importBundle P env' args bundle = .error e := by
  cases h : importBundle P env' args bundle with
  | error e => exact ⟨e, rfl⟩
  | ok imported =>
    exfalso
    obtain ⟨rs, derived, hderived, hdeclares, -⟩ := importBundle_reconciled h
    have ha : a ∈ derived.active := by
      rw [← hdeclares.active, hb.active_memory_addresses, sortStrings, (List.perm_insertionSort _ _).mem_iff]
      exact hactive
    obtain ⟨t, ht, haddr⟩ := hburied
    have hmem : t ∈ bundle.tombstones := by
      rw [hb.tombstones, sortedTombstones, (List.perm_insertionSort _ _).mem_iff]
      exact OrdMap.mem_values.2 ⟨a, ht⟩
    have hhas := hdeclares.tombstones a
    rw [has_importedTombstones hmem haddr, OrdMap.has, derive_disjoint hderived a ha] at hhas
    exact Bool.noConfusion hhas

/-- After an update to the content that a memory has, the vault exports a bundle that
cannot be imported. -/
theorem round_trip_tea : ∃ v₀ v addr bundle v₁ e, createVault reference referenceEnv {} = .ok v₀ ∧
    Run.run (stepCall reference) v₀ [.remember referenceEnv { content := some tea },
      .updateMemory referenceEnv { memory_addr := some addr, content := some tea }] = some v ∧
    exportBundle reference referenceEnv {} v = .ok bundle v₁ ∧
    importBundle reference referenceEnv {} bundle = .error e := by
  obtain ⟨v₀, v₁, addr, h⟩ := firstMemory
  obtain ⟨v, hv, hactive, hburied⟩ := h.again
  have hrun := (h.run _).trans hv
  have hg := run_grows hrun
  have hok : Succeeds (exportBundle reference referenceEnv {}) v :=
    exportBundle_ok (hg.signer_ok h.signer₀) (h.writable.of_grows hg)
  obtain ⟨bundle, v₂, hb⟩ := hok
  obtain ⟨⟨entry, rfl⟩, hexports⟩ := exportBundle_exports hb
  obtain ⟨e, he⟩ := export_refused referenceEnv {} hexports hactive hburied
  exact ⟨v₀, v, addr, bundle, _, e, h.created, hrun, hb, he⟩

end EnigmaMemory
