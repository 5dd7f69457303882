import EnigmaMemory.Proof.Filed
import EnigmaMemory.Proof.PlaintextCache

/-!
# Recalled contents

Every record holds the ciphertext of a content that `remember` or `updateMemory` was given
when it produced the address of the record, sealed under the key that the vault still has
(`Sealed`): the ciphertext object survives every sanitizing, and an import restores the keys,
whether the keyring was encrypted or not. The address commits to the content, so what a
recall decrypts is the content of every call that produced the address (`recall_fidelity`).
-/

namespace EnigmaMemory

open Json

variable {P : Platform} {v v' w : Vault}

/-! ## Keys -/

/-- The secret part of a keyring. -/
def keyringFields (P : Platform) (v : Vault) : List (JsString × JsString) :=
  [(js "vault_key_b64", P.base64 v.vaultKey.1), (js "address_key_b64", P.base64 v.addressKey.1)]
    ++ (v.signingKeyPair.privateKey.map fun sk => (js "privateKey", sk)).toList

theorem stringObject_keyringFields (P : Platform) (v : Vault) : Json.obj ([(js "vault_key_b64", .str (P.base64 v.vaultKey.1)),
    (js "address_key_b64", .str (P.base64 v.addressKey.1))] ++ Json.field (js "privateKey")
      (v.signingKeyPair.privateKey.map .str)) = stringObject (keyringFields P v) := by
  unfold stringObject keyringFields
  cases v.signingKeyPair.privateKey <;> rfl

theorem map_fst_keyringFields (P : Platform) (v : Vault) :
    (keyringFields P v).map Prod.fst <+: [js "vault_key_b64", js "address_key_b64", js "privateKey"] := by
  unfold keyringFields
  cases v.signingKeyPair.privateKey with
  | none => exact ⟨[js "privateKey"], rfl⟩
  | some sk => exact ⟨[], rfl⟩

theorem parseJson_keyring (hP : P.Lawful) (v : Vault) : P.parseJson ((stringObject (keyringFields P v)).stringify P.toNumberFormat) =
    .ok (stringObject (keyringFields P v)) := by
  have hkeys := map_fst_keyringFields P v
  refine hP.parseJson_strings _ (hkeys.sublist.nodup (by decide)) fun f hf => ?_
  have hall : ∀ k ∈ [js "vault_key_b64", js "address_key_b64", js "privateKey"],
      (k.any fun c => !decide (48 ≤ c ∧ c ≤ 57)) = true := by decide
  obtain ⟨c, hc, hdigit⟩ := List.any_eq_true.1 (hall f.1 (hkeys.subset (List.mem_map_of_mem hf)))
  rw [Bool.not_eq_true', decide_eq_false_iff_not] at hdigit
  exact ⟨c, hc, hdigit⟩

/-- **A keyring gives its keys back**, whatever the passphrase that opens it. -/
theorem keyringSecrets_keys (hP : P.Lawful) {env : Ambient} {passphrase passphrase' : Option JsString} {keyring : Json}
    {secrets : KeyringSecrets} (hbuild : buildKeyring P env v passphrase = .ok keyring)
    (hopen : keyringSecrets P keyring passphrase' = .ok secrets) :
    secrets.vault_key = some (.str (P.base64 v.vaultKey.1)) ∧
      secrets.address_key = some (.str (P.base64 v.addressKey.1)) := by
  unfold buildKeyring at hbuild
  cases hpass : nonEmpty passphrase with
  | none =>
    rw [hpass] at hbuild
    have hk : KeyringReads P v keyring := @keyringReads P v env keyring hbuild
    rw [keyringSecrets, if_neg (by simp [hk.type]), hk.vault_key, hk.address_key] at hopen
    cases hopen
    exact ⟨rfl, rfl⟩
  | some word =>
    simp only [hpass, Except.bind_eq_ok, Except.pure_eq_ok, stringObject_keyringFields] at hbuild
    obtain ⟨derived, -, rfl⟩ := hbuild
    unfold keyringSecrets at hopen
    rw [if_pos (by simp)] at hopen
    split at hopen
    · cases hopen
    · rename_i word' _
      simp only [Except.bind_eq_ok, Except.pure_eq_ok] at hopen
      obtain ⟨opened, hopened, rfl⟩ := hopen
      suffices hobject : opened = stringObject (keyringFields P v) by
        rw [hobject, ← stringObject_keyringFields]
        simp
      simp only [decryptKeyring, Except.bind_eq_ok, get_obj_append] at hopened
      simp only [get_obj_cons, js_inj, String.reduceEq, if_false, if_true, Option.some_or, bufferField, Except.ok.injEq,
        exists_eq_left', P.ofBase64_base64] at hopened
      obtain ⟨kek, -, plaintext, hdecrypt, hparse⟩ := hopened
      rw [hP.authentic _ _ _ _ _ _ hdecrypt, hP.ofUtf8_utf8 _ (wellFormed_stringObject _ _), parseJson_keyring hP] at hparse
      exact (Except.ok.inj hparse).symm

theorem importedVault_keys {env : Ambient} {args : ImportArgs} {bundle : Bundle} {secrets : KeyringSecrets} {key address : Key}
    (h : importedVault P env args bundle secrets = .ok w) (hkey : secrets.vault_key = some (.str (P.base64 key.1)))
    (haddress : secrets.address_key = some (.str (P.base64 address.1))) : w.vaultKey = key ∧ w.addressKey = address := by
  obtain ⟨fresh, hfresh, h⟩ := Except.bind_eq_ok.1 h
  cases h
  obtain ⟨vk, ak, seed, hkeys, hvk, hak, -⟩ := (createVault_created hfresh).keys
  have hpass : (importCreateArgs args bundle secrets).passphrase = none := rfl
  have h1 : (importCreateArgs args bundle secrets).vault_key = keyArg (some (.str (P.base64 key.1))) := congrArg keyArg hkey
  have h2 : (importCreateArgs args bundle secrets).address_key = keyArg (some (.str (P.base64 address.1))) :=
    congrArg keyArg haddress
  simp only [vaultKeys, hpass, h1, h2, keyBytes_base64] at hkeys
  cases hkeys
  exact ⟨hvk, hak⟩

/-- An import takes its keys from the keyring. -/
theorem importBundle_keys (hP : P.Lawful) {env env' : Ambient} {passphrase : Option JsString} {args : ImportArgs} {bundle : Bundle}
    {imported : Imported} (himport : importBundle P env' args bundle = .ok imported)
    (hbuild : buildKeyring P env v passphrase = .ok bundle.keyring) :
    imported.vault.vaultKey = v.vaultKey ∧ imported.vault.addressKey = v.addressKey := by
  obtain ⟨secrets, restored, entry, hsecrets, hrestored, -, rfl⟩ := importBundle_ok.1 himport
  obtain ⟨created, receipts, lifecycle, memories, hcreated, -, -, -, rfl⟩ := restoreVault_ok.1 hrestored
  obtain ⟨hkey, haddress⟩ := keyringSecrets_keys hP hbuild hsecrets
  have hkeys := importedVault_keys hcreated hkey haddress
  exact hkeys

/-- An import restores the keys of the exported vault. -/
theorem transfer_keys (hP : P.Lawful) {env env' : Ambient} {args : ExportArgs} {args' : ImportArgs} {bundle : Bundle}
    {imported : Imported} (hexport : exportBundle P env args v = .ok bundle v')
    (himport : importBundle P env' args' bundle = .ok imported) :
    imported.vault.vaultKey = v.vaultKey ∧ imported.vault.addressKey = v.addressKey := by
  obtain ⟨⟨e, rfl⟩, hb⟩ := exportBundle_exports hexport
  have hkeys := importBundle_keys hP himport hb.keyring
  exact hkeys

/-! ## Sealed records -/

theorem memoryAddress_congr (h : w.addressKey = v.addressKey) (subjectId memoryId : Json) (contentHash : JsString) :
    memoryAddress P w subjectId memoryId contentHash = memoryAddress P v subjectId memoryId contentHash := by
  unfold memoryAddress
  rw [h]

theorem encryptContent_congr (h : w.vaultKey = v.vaultKey) (iv : Bytes) (addr plaintext : JsString) :
    encryptContent P w iv addr plaintext = encryptContent P v iv addr plaintext := by
  unfold encryptContent
  rw [h]

/-- Sanitizing leaves a ciphertext as it is. -/
theorem sanitize_encryptContent (iv : Bytes) (addr plaintext : JsString) :
    sanitizePublicValue P.toNumberFormat (encryptContent P v iv addr plaintext) = encryptContent P v iv addr plaintext := by
  have hplain : ∀ k ∈ [js "alg", js "iv", js "aad", js "ciphertext", js "tag"], isPlaintextLikeKey k = false ∧
      k ≠ js "metadata" ∧ ¬ (k = js "source_refs" ∨ k = js "sourceRefs") := by decide
  simp only [List.forall_mem_cons, List.not_mem_nil, false_imp_iff, implies_true, and_true] at hplain
  obtain ⟨⟨h1, h1', h1''⟩, ⟨h2, h2', h2''⟩, ⟨h3, h3', h3''⟩, ⟨h4, h4', h4''⟩, h5, h5', h5''⟩ := hplain
  rw [encryptContent, sanitizePublicValue]
  simp only [sanitizePublicFields, h1, h2, h3, h4, h5, Bool.false_eq_true, if_neg h1', if_neg h1'', if_neg h2', if_neg h2'',
    if_neg h3', if_neg h3'', if_neg h4', if_neg h4'', if_neg h5', if_neg h5'', if_false, sanitizePublicValue]
  rfl

/-- A record whose ciphertext seals the content of a production of its address. -/
def SealedRecord (P : Platform) (v : Vault) (log : List Production) (a : JsString) (r : Json) : Prop :=
  ∃ iv, ∃ p ∈ log, p.memory_addr = a ∧ r.get (js "content_ciphertext") = some (encryptContent P v iv a (p.text P))

/-- **Every record is sealed**, and every production has the address of its content. -/
structure Sealed (P : Platform) (v : Vault) (log : List Production) : Prop where
  record : ∀ a r, v.memories.get a = some r → SealedRecord P v log a r
  address : ∀ p ∈ log, p.memory_addr = memoryAddress P v p.subject_id p.memory_id (prefixedSha256 (p.text P))

theorem SealedRecord.mono {log log' : List Production} {a : JsString} {r r' : Json} (h : SealedRecord P v log a r)
    (hlog : ∀ p ∈ log, p ∈ log') (hkey : w.vaultKey = v.vaultKey)
    (hr : r'.get (js "content_ciphertext") = r.get (js "content_ciphertext")) : SealedRecord P w log' a r' := by
  obtain ⟨iv, p, hp, hpa, hc⟩ := h
  exact ⟨iv, p, hlog p hp, hpa, by rw [hr, hc, encryptContent_congr hkey]⟩

theorem Created.sealed {env : Ambient} {args : CreateArgs} (h : Created P env args v) : Sealed P v [] where
  record a r hr := by simp [h.memories] at hr
  address p hp := by cases hp

theorem Sealed.congr {log : List Production} (h : Sealed P v log) (hs : SameStore v w) : Sealed P w log where
  record a r hr := by
    rw [hs.memories] at hr
    exact (h.record a r hr).mono (fun p hp => hp) hs.vaultKey rfl
  address p hp := by rw [h.address p hp, memoryAddress_congr hs.addressKey]

theorem get_memoryRecord_ciphertext (iv : Bytes) (args : RememberArgs) (plaintext memoryId subjectId : Json)
    (createdAt contentHash addr : JsString) :
    (memoryRecord P v iv args plaintext memoryId subjectId createdAt contentHash addr).get (js "content_ciphertext") =
      some (encryptContent P v iv addr (plaintext.toText P.toNumberFormat)) := by
  simp [memoryRecord]

theorem get_spread_ciphertext (j : Json) (addr hash commitment state now : Json) (cipher : Json) :
    (j.spread (.obj [(js "memory_addr", addr), (js "content_ciphertext", cipher), (js "content_hash", hash),
      (js "content_commitment", commitment), (js "state", state), (js "updated_at", now)])).get (js "content_ciphertext") =
      some cipher := by
  simp [Json.spread, Json.fields]

/-- **A call seals what it stores.** -/
theorem writes_sealed {c : Call} {ch : Change} {log : List Production} (h : Sealed P v log) (hw : Writes P v c ch) :
    Sealed P (ch.apply v) (log ++ productions P v c) := by
  have hold : ∀ {a r r'}, SealedRecord P v log a r → r'.get (js "content_ciphertext") = r.get (js "content_ciphertext") →
      SealedRecord P v (log ++ productions P v c) a r' :=
    fun hr he => hr.mono (fun p hp => List.mem_append_left _ hp) rfl he
  cases hw with
  | recallMemory | compileContextPack | exportBundle =>
    simp only [productions, List.append_nil]
    exact h
  | @remember env args content createdAt hcontent hne hfree =>
    have hlog : productions P v (.remember env args) = [⟨rememberTarget P v env args content,
        withDefault args.subject_id v.subject_id, withDefault args.memory_id (.str (js "mem_" ++ env.uuid 0)), content⟩] := by
      simp only [productions, hcontent]
    refine ⟨fun a r hr => ?_, fun p hp => ?_⟩
    · rw [Change.apply, OrdMap.get_set] at hr
      split at hr
      · rename_i hb
        cases hr
        refine ⟨env.random 0 12, _, List.mem_append_right _ (by rw [hlog]; exact List.mem_singleton_self _), hb.symm, ?_⟩
        rw [hb, rememberedRecord, get_memoryRecord_ciphertext]
        rfl
      · exact hold (h.record a r hr) rfl
    · rcases List.mem_append.1 hp with hp | hp
      · exact h.address p hp
      · rw [hlog, List.mem_singleton] at hp
        subst hp
        rfl
  | @updateMemory env args old record content first now hargs hne hcontent hlive hget =>
    have hlog : productions P v (.updateMemory env args) = [⟨updatedAddr P v record
        (prefixedSha256 (content.toText P.toNumberFormat)), (record.get (js "subject_id")).getD .null,
        (record.get (js "memory_id")).getD .null, content⟩] := by
      simp only [productions, hargs, hcontent, Option.bind_some, hget]
    refine ⟨fun a r hr => ?_, fun p hp => ?_⟩
    · rw [Change.apply, OrdMap.get_set] at hr
      split at hr
      · rename_i hb
        cases hr
        refine ⟨env.random 0 12, _, List.mem_append_right _ (by rw [hlog]; exact List.mem_singleton_self _), hb.symm, ?_⟩
        rw [hb, updatedRecord, get_spread_ciphertext]
        rfl
      · rw [OrdMap.get_set] at hr
        split at hr
        · rename_i hb
          cases hr
          exact hold (hb ▸ h.record old record hget) (get_retouch (by decide) (by decide))
        · exact hold (h.record a r hr) rfl
    · rcases List.mem_append.1 hp with hp | hp
      · exact h.address p hp
      · rw [hlog, List.mem_singleton] at hp
        subst hp
        rfl
  | @deleteMemory env args addr first now hargs hne hlive =>
    have hlog : productions P v (.deleteMemory env args) = [] := rfl
    refine ⟨fun a r hr => ?_, fun p hp => ?_⟩
    · cases hget : v.memories.get addr with
      | none =>
        simp only [Change.apply, hget, Option.map_none] at hr
        exact hold (h.record a r hr) rfl
      | some record =>
        simp only [Change.apply, hget, Option.map_some] at hr
        rw [OrdMap.get_set] at hr
        split at hr
        · rename_i hb
          cases hr
          exact hold (hb ▸ h.record addr record hget) (get_retouch (by decide) (by decide))
        · exact hold (h.record a r hr) rfl
    · rw [hlog, List.append_nil] at hp
      exact h.address p hp

theorem transfer_sealed {log : List Production} (h : Sealed P v log) (hf : Filed v) (ht : Transferred P v w)
    (hkeys : w.vaultKey = v.vaultKey ∧ w.addressKey = v.addressKey) : Sealed P w log where
  record a r hr := by
    rw [OrdMap.get_eq_some_iff, ht.memories, List.mem_map] at hr
    obtain ⟨⟨b, r₀⟩, hr₀, he⟩ := hr
    obtain ⟨rfl, rfl⟩ := Prod.mk.inj he
    have hget := OrdMap.get_eq_some_iff.2 hr₀
    obtain ⟨fate, hrecord, -⟩ := hf.record b r₀ hget
    obtain ⟨iv, p, hp, hpa, hc⟩ := h.record b r₀ hget
    refine ⟨iv, p, hp, hpa, ?_⟩
    have hpublic : isPublicField (js "content_ciphertext") = true := by decide
    rw [get_publicRecord hpublic (nodup_publicRecord _ _), get_publicRecord hpublic hrecord.nodup, hc, Option.map_some,
      Option.map_some, sanitize_encryptContent, sanitize_encryptContent, encryptContent_congr hkeys.1]
  address p hp := by rw [h.address p hp, memoryAddress_congr hkeys.2]

/-- What holds of every history. -/
structure HistoryOk (P : Platform) (s : CachedVault) (log : List Production) : Prop where
  filed : Filed s.vault
  sealed : Sealed P s.vault log
  cache : CacheOk P s

theorem History.ok (hP : P.Lawful) {s : CachedVault} {log : List Production} (h : History P s log) : HistoryOk P s log := by
  induction h with
  | create hcreated =>
    have hnew := createVault_created hcreated
    exact ⟨hnew.filed (createVault_quarantine hcreated), hnew.sealed, cacheOk_empty _⟩
  | call _ hstep ih =>
    obtain ⟨hcall, hcache⟩ := stepCached_ok ih.cache hstep
    obtain ⟨ch, hw, hs⟩ := call_writes hcall
    exact ⟨stepCall_filed ih.filed hcall, (writes_sealed ih.sealed hw).congr hs, hcache⟩
  | transfer _ hexport himport ih =>
    have ht := transfer_transferred ih.filed hexport himport
    exact ⟨transfer_filed ih.filed ht, transfer_sealed ih.sealed ih.filed ht (transfer_keys hP hexport himport),
      cacheOk_empty _⟩

/-! ## Recalls -/

/-- A sealed record opens to the bytes that were sealed. -/
theorem decryptContent_sealed (hP : P.Lawful) {r : Json} {iv : Bytes} {a text : JsString}
    (h : r.get (js "content_ciphertext") = some (encryptContent P v iv a text)) :
    decryptContent P v r = .ok (P.ofUtf8 (utf8 text)) := by
  have hopen := hP.decrypt_encrypt v.vaultKey iv (utf8 a) (utf8 text)
  unfold decryptContent
  rw [h]
  simp [encryptContent, bufferField, orElse, bind, Except.bind, pure, Except.pure, P.ofBase64_base64, hopen]

/-- A recall returns what the record at its address decrypts to. -/
theorem recall_reads {env : Ambient} {args : RecallArgs} {r : Recalled} (h : recallMemory P env args v = .ok r v') :
    ∃ a record, args.memory_addr = some a ∧ v.memories.get a = some record ∧ decryptContent P v record = .ok r.content := by
  unfold recallMemory at h
  rw [get_bind] at h
  simp only [ofExcept_bind_ok, refuse_bind_ok, append_bind_ok] at h
  obtain ⟨a, haddr, -, -, hstate, plaintext, hplain, e, -, h⟩ := h
  obtain ⟨rfl, rfl⟩ := pure_ok.1 h
  rw [Bool.not_eq_false'] at hstate
  obtain ⟨record, hrecord, -⟩ := isActive_iff.1 hstate
  rw [hrecord] at hplain
  exact ⟨a, record, (requiredAddr_ok.1 haddr).1, hrecord, hplain⟩

/-- The text under the HMAC of a memory address. -/
def addressText (P : Platform) (subjectId memoryId : Json) (contentHash : JsString) : JsString :=
  (Json.obj [(js "namespace", .str (js "memory")), (js "tenant_id", .null), (js "subject_id", subjectId),
    (js "value", .str ((Json.obj [(js "domain", .str (js "enigma.memory.v1")), (js "subject_id", subjectId),
      (js "memory_id", memoryId), (js "content_hash", .str contentHash)]).canonicalize P.toNumberFormat))]).canonicalize
    P.toNumberFormat

def Production.addressText (P : Platform) (p : Production) : JsString :=
  EnigmaMemory.addressText P p.subject_id p.memory_id (prefixedSha256 (p.text P))

theorem memoryAddress_eq (v : Vault) (subjectId memoryId : Json) (contentHash : JsString) :
    memoryAddress P v subjectId memoryId contentHash =
      js "mem:hmac-sha256:" ++ hmacSha256Hex v.addressKey.1 (addressText P subjectId memoryId contentHash) := rfl

/-- The text determines the content hash. -/
theorem addressText_inj {subjectId memoryId subjectId' memoryId' : Json} {contentHash contentHash' : JsString}
    (h : addressText P subjectId memoryId contentHash = addressText P subjectId' memoryId' contentHash') :
    contentHash = contentHash' := by
  have hvalue := @Same.get_str _ _ (canonicalize_inj h) (js "value") _ (by
    simp only [get_obj_cons, js_inj, String.reduceEq, if_false, if_true]
    rfl)
  simp only [get_obj_cons, js_inj, String.reduceEq, if_false, if_true, Option.some.injEq, Json.str.injEq] at hvalue
  have hhash := @Same.get_str _ _ (canonicalize_inj hvalue.symm) (js "content_hash") contentHash (by simp)
  simpa using hhash.symm

/-- **A recall returns what was remembered.** In every history of successful operations the
content that a recall of an address returns is the content of every call that produced the
address, if it is well-formed; and such a call there was. -/
theorem recall_fidelity (P : Platform) (hP : P.Lawful) (s s' : CachedVault) (log : List Production) (h : History P s log)
    (hmac : Set.InjOn (hmacSha256Hex s.vault.addressKey.1) { t | ∃ p ∈ log, t = p.addressText P })
    (hsha : ∀ p ∈ log, ∀ q ∈ log, sha256Hex (p.text P) = sha256Hex (q.text P) → utf8 (p.text P) = utf8 (q.text P))
    (env : Ambient) (args : RecallArgs) (a : JsString) (r : Recalled) (ha : args.memory_addr = some a)
    (hr : recallCached P env args s = .ok r s') : (∃ p ∈ log, p.memory_addr = a) ∧
      ∀ p ∈ log, p.memory_addr = a → isWellFormed (p.text P) = true → r.content = p.text P := by
  obtain ⟨-, hsealed, hcache⟩ := h.ok hP
  obtain ⟨hrecall, -⟩ := recallCached_ok hcache hr
  obtain ⟨b, record, hb, hrecord, hcontent⟩ := recall_reads hrecall
  obtain rfl : a = b := Option.some.inj (ha.symm.trans hb)
  obtain ⟨iv, p, hp, hpa, hcipher⟩ := hsealed.record a record hrecord
  rw [decryptContent_sealed hP hcipher] at hcontent
  refine ⟨⟨p, hp, hpa⟩, fun q hq hqa hwell => ?_⟩
  -- both productions have one address, so one content hash, so one byte string
  have haddress : p.memory_addr = q.memory_addr := hpa.trans hqa.symm
  rw [hsealed.address p hp, hsealed.address q hq, memoryAddress_eq, memoryAddress_eq] at haddress
  have htext := hmac ⟨p, hp, rfl⟩ ⟨q, hq, rfl⟩ (List.append_cancel_left haddress)
  have hbytes := hsha p hp q hq (List.append_cancel_left (addressText_inj htext))
  rw [← Except.ok.inj hcontent, hbytes, hP.ofUtf8_utf8 _ hwell]

/-- The first memory is recalled. -/
theorem recall_fidelity_tea : ∃ s s' log a r, History reference s log ∧ log.map (·.content) = [tea] ∧
    recallCached reference referenceEnv { memory_addr := some a } s = .ok r s' ∧ r.content = js "prefers tea" := by
  obtain ⟨v₀, v, a, hfirst⟩ := firstMemory
  -- the history of one call
  obtain ⟨u, hexec⟩ := stepCall_eq_some.1 hfirst.remembered
  obtain ⟨stored, hstored⟩ := discard_ok.1 hexec
  obtain ⟨s, hs, rfl⟩ : ∃ s, stepCached reference ⟨v₀, OrdMap.empty⟩ (.remember referenceEnv { content := some tea }) = some s ∧
      s.vault = v :=
    ⟨⟨v, _⟩, stepCached_eq_some.2 ⟨(), onVault_bind_ok.2 ⟨stored, v, hstored, rfl⟩⟩, rfl⟩
  have hhistory := (History.create hfirst.created).call hs
  obtain ⟨p, hlog, hpa, hp⟩ : ∃ p, productions reference v₀ (.remember referenceEnv { content := some tea }) = [p] ∧
      p.memory_addr = a ∧ p.content = tea := ⟨_, rfl, hfirst.address.symm, rfl⟩
  rw [hlog, List.nil_append] at hhistory
  have htext : p.text reference = js "prefers tea" := by rw [Production.text, hp]; rfl
  obtain ⟨-, hsealed, hcache⟩ := hhistory.ok reference_lawful
  -- it is active, and its ciphertext opens
  obtain ⟨record, hrecord, -⟩ := isActive_iff.1 hfirst.active
  obtain ⟨iv, q, -, -, hcipher⟩ := hsealed.record a record hrecord
  have hcontent := decryptContent_sealed reference_lawful hcipher
  rw [← Option.getD_some (a := record) (b := .null), ← hrecord] at hcontent
  have hok : Succeeds (recallMemory reference referenceEnv { memory_addr := some a }) s.vault :=
    recall_ok hfirst.signer rfl hfirst.ne hfirst.quiet rfl hfirst.live hfirst.active hcontent harmless_none harmless_none
      ⟨trivial, hfirst.subject_id, hfirst.policy_id⟩
  obtain ⟨r, v', hr⟩ := hok
  obtain ⟨s', hr', -⟩ := recallCached_of_recall hcache hr
  have hfidelity := recall_fidelity reference reference_lawful s s' [p] hhistory
    (by rintro t ⟨q, hq, rfl⟩ t' ⟨q', hq', rfl⟩ -; rw [List.mem_singleton.1 hq, List.mem_singleton.1 hq'])
    (by intro q hq q' hq' _; rw [List.mem_singleton.1 hq, List.mem_singleton.1 hq'])
    referenceEnv { memory_addr := some a } a r rfl hr'
  refine ⟨s, s', [p], a, r, hhistory, by rw [List.map_singleton, hp], hr', ?_⟩
  rw [hfidelity.2 p (List.mem_singleton_self p) hpa (by rw [htext]; decide), htext]

end EnigmaMemory
