import EnigmaMemory.Proof.Fidelity

/-!
# What ties a ciphertext to its address

A content is sealed with the address of its memory as additional data, so that AES-256-GCM
opens it under that address only. `decryptContent` takes the address from the ciphertext
object itself and not from the record that holds it, and nobody compares the two: a
ciphertext that is moved to another record of a bundle still opens. What the recall
returns then is the content that the ciphertext names (`recall_names`), and it belongs to
the recalled address exactly when both addresses commit to one content
(`recall_bound_iff`).
-/

namespace EnigmaMemory

open Json

variable {P : Platform} {v : Vault}

/-- A content that the holders of a vault key have sealed, with the address key and the
identity of its memory. -/
structure Sealing where
  addressKey : Key
  subject_id : Json
  memory_id : Json
  plaintext : JsString

def Sealing.addressText (P : Platform) (s : Sealing) : JsString :=
  EnigmaMemory.addressText P s.subject_id s.memory_id (prefixedSha256 s.plaintext)

/-- The address of the memory, which goes into the ciphertext as additional data. -/
def Sealing.address (P : Platform) (s : Sealing) : JsString :=
  js "mem:hmac-sha256:" ++ hmacSha256Hex s.addressKey.1 (s.addressText P)

/-- The additional data that the ciphertext of a record is opened with. -/
def openedWith (record : Json) : Option Json :=
  orElse (((record.get (js "content_ciphertext")).getD .null).get (js "aad")) (record.get (js "memory_addr"))

/-- The ciphertext of a record names an address. -/
def Names (record : Json) (addr : JsString) : Prop := ∃ aad, openedWith record = some (.str aad) ∧ utf8 aad = utf8 addr

/-- AES-256-GCM authenticates the ciphertexts of a vault: one that opens under the vault key
has been sealed, with the additional data and the plaintext that it opens with. -/
def Authenticated (P : Platform) (v : Vault) (log : List Sealing) : Prop :=
  ∀ a record iv aad tag ciphertext plaintext, v.memories.get a = some record →
    ((record.get (js "content_ciphertext")).getD .null).get (js "iv") = some (.str iv) →
    openedWith record = some (.str aad) →
    ((record.get (js "content_ciphertext")).getD .null).get (js "tag") = some (.str tag) →
    ((record.get (js "content_ciphertext")).getD .null).get (js "ciphertext") = some (.str ciphertext) →
    P.decrypt v.vaultKey (P.ofBase64 iv) (utf8 aad) (P.ofBase64 ciphertext) (P.ofBase64 tag) = .ok plaintext →
    ∃ s ∈ log, utf8 aad = utf8 (s.address P) ∧ plaintext = utf8 s.plaintext

/-! ## Addresses commit to contents -/

theorem isBasicUnit_hex {c : CodeUnit} (h : isHexDigit c = true) : isBasicUnit c = true := by
  rw [isHexDigit, decide_eq_true_eq] at h
  simp only [isBasicUnit, isHighSurrogate, isLowSurrogate, Bool.and_eq_true, Bool.not_eq_true', decide_eq_false_iff_not]
  simp only [Fin.le_def] at h ⊢
  omega

theorem wellFormed_address (s : Sealing) : isWellFormed (s.address P) = true := by
  have hlabel : (js "mem:hmac-sha256:").all isBasicUnit = true := by decide
  have hhash := isHash_hmacSha256Hex s.addressKey.1 (s.addressText P)
  rw [isHash, Bool.and_eq_true, List.all_eq_true] at hhash
  exact wellFormed_append (wellFormed_of_basic (List.all_eq_true.1 hlabel)) (wellFormed_of_basic fun c hc => isBasicUnit_hex (hhash.2 c hc))

/-- The hash of a text that has gone through UTF-8. -/
theorem prefixedSha256_ofUtf8 (hP : P.Lawful) (s : JsString) : prefixedSha256 (P.ofUtf8 (utf8 s)) = prefixedSha256 s := by
  obtain ⟨t, ht, hutf⟩ := exists_wellFormed s
  rw [← hutf, hP.ofUtf8_utf8 t ht]
  unfold prefixedSha256 sha256Hex
  rw [hutf]

/-- **Two sealings under one address have one content hash.** -/
theorem address_commits {log : List Sealing}
    (hmac : Set.InjOn (fun x : Bytes × JsString => hmacSha256Hex x.1 x.2) { x | ∃ s ∈ log, x = (s.addressKey.1, s.addressText P) })
    {s t : Sealing} (hs : s ∈ log) (ht : t ∈ log) (h : utf8 (s.address P) = utf8 (t.address P)) :
    prefixedSha256 s.plaintext = prefixedSha256 t.plaintext := by
  have haddr : s.address P = t.address P := by
    rw [← ofUtf8_utf8 (wellFormed_address s), h, ofUtf8_utf8 (wellFormed_address t)]
  have hpair := hmac ⟨s, hs, rfl⟩ ⟨t, ht, rfl⟩ (List.append_cancel_left haddr)
  exact addressText_inj (Prod.mk.inj hpair).2

/-! ## Recalls -/

theorem bufferField_ok {x : Option Json} {s : JsString} : bufferField x = .ok s ↔ x = some (.str s) := by
  unfold bufferField
  split
  · simp
  · rename_i h
    exact iff_of_false (by simp) fun hx => h s hx

/-- **A record decrypts to the content that its ciphertext names.** -/
theorem decryptContent_names (hP : P.Lawful) {log : List Sealing} (h : Authenticated P v log) {a : JsString} {record : Json}
    (hrecord : v.memories.get a = some record) {content : JsString} (hcontent : decryptContent P v record = .ok content) :
    ∃ s ∈ log, Names record (s.address P) ∧ prefixedSha256 content = prefixedSha256 s.plaintext := by
  unfold decryptContent at hcontent
  simp only [Except.bind_eq_ok, Except.pure_eq_ok] at hcontent
  obtain ⟨iv, hiv, aad, haad, tag, htag, ciphertext, hcipher, plaintext, hopen, rfl⟩ := hcontent
  obtain ⟨s, hs, hname, rfl⟩ := h a record iv aad tag ciphertext plaintext hrecord (bufferField_ok.1 hiv) (bufferField_ok.1 haad)
    (bufferField_ok.1 htag) (bufferField_ok.1 hcipher) hopen
  exact ⟨s, hs, ⟨aad, bufferField_ok.1 haad, hname⟩, prefixedSha256_ofUtf8 hP s.plaintext⟩

/-- The memories of the reference vault have one identity; they differ in their contents. -/
def sealing (text : String) : Sealing :=
  ⟨Reference.zeroKey, .str (js "local-subject"), .str (js "mem_" ++ referenceEnv.uuid 0), js text⟩

theorem sealing_address_ne : (sealing "prefers tea").address reference ≠ (sealing "prefers coffee").address reference := by
  decide +kernel

/-- The vault has the keys and the subject of the reference vault. -/
structure Local (v : Vault) : Prop where
  addressKey : v.addressKey = Reference.zeroKey
  subject_id : v.subject_id = .str (js "local-subject")

theorem memoryAddress_sealing (h : v.addressKey = Reference.zeroKey) (text : String) :
    memoryAddress reference v (.str (js "local-subject")) (.str (js "mem_" ++ referenceEnv.uuid 0)) (prefixedSha256 (js text)) =
      (sealing text).address reference := by
  rw [memoryAddress_eq, h]
  rfl

/-- The record of a remembered text. -/
structure Remembered (v : Vault) (text : String) (r : Json) : Prop where
  record : v.memories.get ((sealing text).address reference) = some r
  isRecord : IsRecord ((sealing text).address reference) "active" r
  subject_id : r.get (js "subject_id") = some (.str (js "local-subject"))
  memory_id : r.get (js "memory_id") = some (.str (js "mem_" ++ referenceEnv.uuid 0))
  cipher : r.get (js "content_ciphertext") = some (encryptContent reference v (referenceEnv.random 0 12)
    ((sealing text).address reference) (js text))

theorem remember_remembered {v v' : Vault} (text : String) {stored : Stored} (h : Local v)
    (hr : remember reference referenceEnv { content := some (.str (js text)) } v = .ok stored v') :
    Local v' ∧ v'.vaultKey = v.vaultKey ∧ (∃ r, Remembered v' text r) ∧
      ∀ a, a ≠ (sealing text).address reference → v'.memories.get a = v.memories.get a := by
  obtain ⟨content, record, f, hcontent, hstep, -, hsubject, hmemory, hcipher⟩ := remember_step hr
  obtain rfl : Json.str (js text) = content := Option.some.inj hcontent
  have htarget : rememberTarget reference v referenceEnv { content := some (.str (js text)) } (.str (js text)) =
      (sealing text).address reference := by
    rw [← memoryAddress_sealing h.addressKey, rememberTarget, h.subject_id]
    rfl
  have hrecord : IsRecord ((sealing text).address reference) "active" record := by
    rw [htarget] at hstep
    cases hstep.legal with
    | create _ _ hrecord => exact hrecord
  obtain ⟨env, e, -, hv⟩ := hstep.appended
  rw [htarget] at hv hcipher
  rw [hv]
  refine ⟨⟨h.addressKey, h.subject_id⟩, rfl, ⟨record, ?_, hrecord, ?_, hmemory, hcipher⟩, fun a ha => ?_⟩
  · exact (OrdMap.get_set (m := v.memories)).trans (if_pos rfl)
  · rw [hsubject, h.subject_id]
    rfl
  · exact (OrdMap.get_set (m := v.memories)).trans (if_neg ha)

/-- A vault with both memories, and what it exports. -/
structure TwoMemories (v₀ v : Vault) (r₁ r₂ : Json) : Prop where
  created : createVault reference referenceEnv {} = .ok v₀
  run : Run.run (stepCall reference) v₀ [.remember referenceEnv { content := some tea },
    .remember referenceEnv { content := some coffee }] = some v
  isLocal : Local v
  tea : Remembered v "prefers tea" r₁
  coffee : Remembered v "prefers coffee" r₂

theorem twoMemories : ∃ v₀ v r₁ r₂, TwoMemories v₀ v r₁ r₂ := by
  obtain ⟨v₀, v₁, addr, hfirst⟩ := firstMemory
  have hnew := createVault_created hfirst.created
  have hlocal : Local v₀ := by
    refine ⟨?_, hnew.subject_id⟩
    obtain ⟨vk, ak, seed, hkeys, -, hak, -⟩ := hnew.keys
    rw [hak]
    cases hkeys
    rfl
  obtain ⟨u, hexec⟩ := stepCall_eq_some.1 hfirst.remembered
  obtain ⟨stored, hstored⟩ := discard_ok.1 hexec
  obtain ⟨hlocal₁, hkey₁, ⟨r₁, hr₁⟩, -⟩ := remember_remembered "prefers tea" hlocal hstored
  have hok : Succeeds (remember reference referenceEnv { content := some coffee }) v₁ :=
    remember_ok hfirst.signer rfl coffee_ne_null trivial (hfirst.free _) hfirst.subject_id hfirst.policy_id
  obtain ⟨stored', v, hstored'⟩ := hok
  obtain ⟨hlocal₂, hkey₂, ⟨r₂, hr₂⟩, hother⟩ := remember_remembered "prefers coffee" hlocal₁ hstored'
  refine ⟨v₀, v, r₁, r₂, hfirst.created, ?_, hlocal₂, ⟨?_, hr₁.isRecord, hr₁.subject_id, hr₁.memory_id, ?_⟩, hr₂⟩
  · exact (hfirst.run _).trans (stepCall_eq_some.2 ⟨(), discard_ok.2 ⟨stored', hstored'⟩⟩)
  · rw [hother _ sealing_address_ne]
    exact hr₁.record
  · rw [encryptContent_congr hkey₂]
    exact hr₁.cipher

/-- The ciphertext of a text. -/
def ciphertextOf (v : Vault) (text : String) : Json :=
  encryptContent reference v (referenceEnv.random 0 12) ((sealing text).address reference) (js text)

/-- An exported record with the ciphertext of a text. -/
def withCiphertext (v : Vault) (r : Json) (text : String) : Json :=
  (publicRecord reference.toNumberFormat r).set (js "content_ciphertext") (ciphertextOf v text)

/-- The imported record: the fields of the original, and the ciphertext. -/
structure Carries (v : Vault) (content : String) (record : Json) : Prop where
  state : record.get (js "state") = some (.str (js "active"))
  subject_id : record.get (js "subject_id") = some (.str (js "local-subject"))
  memory_id : record.get (js "memory_id") = some (.str (js "mem_" ++ referenceEnv.uuid 0))
  cipher : record.get (js "content_ciphertext") = some (ciphertextOf v content)

theorem carries_imported {r : Json} {text : String} (h : Remembered v text r) (content : String) :
    (withCiphertext v r content).get (js "memory_addr") = some (.str ((sealing text).address reference)) ∧
      Carries v content ((publicRecord reference.toNumberFormat (withCiphertext v r content)).set (js "state")
        (.str (js "active"))) := by
  have hn : (withCiphertext v r content).keys.Nodup := Json.nodup_set (nodup_publicRecord _ _)
  have hstr : ∀ {key s : JsString}, isPublicField key = true → key ≠ js "content_ciphertext" → r.get key = some (.str s) →
      (withCiphertext v r content).get key = some (.str s) := by
    intro key s hk hne hget
    rw [withCiphertext, get_set, if_neg hne, get_publicRecord hk h.isRecord.nodup, hget]
    rfl
  have hkept : ∀ {key s : JsString}, isPublicField key = true → key ≠ js "content_ciphertext" → key ≠ js "state" →
      r.get key = some (.str s) → ((publicRecord reference.toNumberFormat (withCiphertext v r content)).set (js "state")
        (.str (js "active"))).get key = some (.str s) := by
    intro key s hk hne hstate hget
    rw [get_set, if_neg hstate, get_publicRecord hk hn, hstr hk hne hget]
    rfl
  refine ⟨hstr (by decide) (by simp) h.isRecord.addr, ?_, hkept (by decide) (by simp) (by simp) h.subject_id,
    hkept (by decide) (by simp) (by simp) h.memory_id, ?_⟩
  · rw [get_set, if_pos rfl]
  · rw [get_set, if_neg (by simp), get_publicRecord (by decide) hn, withCiphertext, get_set, if_pos rfl, Option.map_some,
      ciphertextOf, sanitize_encryptContent]

theorem get_importedRecords_pair {o₁ o₂ : Json} {a₁ a₂ : JsString} (h₁ : o₁.get (js "memory_addr") = some (.str a₁))
    (h₂ : o₂.get (js "memory_addr") = some (.str a₂)) (a : JsString) : (importedRecords P [o₁, o₂]).get a =
      if a = a₂ then some (publicRecord P.toNumberFormat o₂)
      else if a = a₁ then some (publicRecord P.toNumberFormat o₁) else none := by
  have hrecords : importedRecords P [o₁, o₂] =
      (OrdMap.empty.set a₁ (publicRecord P.toNumberFormat o₁)).set a₂ (publicRecord P.toNumberFormat o₂) := by
    simp only [importedRecords, List.foldl_cons, List.foldl_nil, h₁, h₂, text]
  rw [hrecords, OrdMap.get_set, OrdMap.get_set]
  rfl

/-- **A bundle is imported whatever ciphertexts its records carry.** -/
theorem TwoMemories.importBundle {v₀ : Vault} {r₁ r₂ : Json} (h : TwoMemories v₀ v r₁ r₂) (t₁ t₂ : String) : ∃ b v' imported,
    exportBundle reference referenceEnv {} v = .ok b v' ∧
    EnigmaMemory.importBundle reference referenceEnv {}
      { b with memory_objects := [withCiphertext v r₁ t₁, withCiphertext v r₂ t₂] } = .ok imported ∧
    imported.vault.vaultKey = v.vaultKey ∧ imported.vault.addressKey = v.addressKey ∧
    Signer reference Reference.privateKey imported.vault ∧ Writable reference imported.vault none .absent ∧
    Live imported.vault ((sealing "prefers tea").address reference) ∧
    (∃ record, imported.vault.memories.get ((sealing "prefers tea").address reference) = some record ∧ Carries v t₁ record) ∧
    ∀ a record, imported.vault.memories.get a = some record → Carries v t₁ record ∨ Carries v t₂ record := by
  obtain ⟨w₀, v₁, addr, hfirst⟩ := firstMemory
  obtain rfl : v₀ = w₀ := Except.ok.inj (h.created.symm.trans hfirst.created)
  have hnew := createVault_created h.created
  have hgrows := run_grows h.run
  have hsecond := (hfirst.run _).symm.trans h.run
  obtain ⟨m, htracks⟩ := run_tracks ⟨_, hnew.tracks⟩ h.run (by
    rw [Run.all_cons hfirst.remembered, Run.all_cons hsecond]
    exact ⟨⟨trivial, trivial⟩, ⟨trivial, trivial⟩, Run.All.nil _ _⟩)
  have hexport : Succeeds (exportBundle reference referenceEnv {}) v :=
    exportBundle_ok (hgrows.signer_ok hfirst.signer₀) (hfirst.writable.of_grows hgrows)
  obtain ⟨b, v', hb⟩ := hexport
  obtain ⟨⟨e, hv'⟩, hexports⟩ := exportBundle_exports hb
  have hgrows' : Grows v₀ v' := by
    have hg := exportBundle_grows (P := reference) referenceEnv {} v
    rw [EStateM.after, hb] at hg
    exact hgrows.trans _ _ _ hg
  -- the objects of the edited bundle and the fates of their addresses
  obtain ⟨haddr₁, hcarries₁⟩ := carries_imported h.tea t₁
  obtain ⟨haddr₂, hcarries₂⟩ := carries_imported h.coffee t₂
  have hfate : ∀ {text r}, Remembered v text r → m ((sealing text).address reference) = some .active := by
    intro text r hr
    obtain ⟨fate, hm, hrecord⟩ := htracks.record _ r hr.record
    have hstate := Option.some.inj (hrecord.state.symm.trans hr.isRecord.state)
    cases fate with
    | active => exact hm
    | superseded => simp [Fate.state] at hstate
    | deleted => simp [Fate.state] at hstate
  have hget := get_importedRecords_pair (P := reference) haddr₁ haddr₂
  obtain ⟨imported, s, himport, hrep, hadopts, -, hsigner, hwritable⟩ := importBundle_objects referenceEnv {}
    (export_tracks htracks hb) hexports (hgrows'.signer_ok hfirst.signer₀) (by decide +kernel) (hgrows'.portable hnew.portable)
    (hfirst.writable.of_grows hgrows') [withCiphertext v r₁ t₁, withCiphertext v r₂ t₂] (by
      intro a r hr
      rw [hget] at hr
      split_ifs at hr with h₂ h₁
      · exact ⟨_, h₂ ▸ hfate h.coffee⟩
      · exact ⟨_, h₁ ▸ hfate h.tea⟩)
  have hkeys := importBundle_keys reference_lawful himport hexports.keyring
  have hstore : SameStore v v' := by
    rw [hv']
    exact sameStore_pushEntry v e
  rw [hstore.vaultKey, hstore.addressKey] at hkeys
  -- both addresses are active
  have hactive : ∀ {text r}, Remembered v text r → s.active.has ((sealing text).address reference) = true :=
    fun hr => OrdSet.has_iff.2 ((hrep.active _).2 (hfate hr))
  have hmemories : ∀ a, imported.vault.memories.get a = if a = (sealing "prefers coffee").address reference then
        some ((publicRecord reference.toNumberFormat (withCiphertext v r₂ t₂)).set (js "state") (.str (js "active")))
      else if a = (sealing "prefers tea").address reference then
        some ((publicRecord reference.toNumberFormat (withCiphertext v r₁ t₁)).set (js "state") (.str (js "active")))
      else none := by
    intro a
    rw [hadopts.memories, hget]
    by_cases h₂ : a = (sealing "prefers coffee").address reference
    · rw [if_pos h₂, if_pos h₂, Option.map_some, h₂, reconciledRecord, if_pos (hactive h.coffee), Option.getD_some]
    · rw [if_neg h₂, if_neg h₂]
      by_cases h₁ : a = (sealing "prefers tea").address reference
      · rw [if_pos h₁, if_pos h₁, Option.map_some, h₁, reconciledRecord, if_pos (hactive h.tea), Option.getD_some]
      · rw [if_neg h₁, if_neg h₁, Option.map_none]
  refine ⟨b, v', imported, hb, himport, hkeys.1, hkeys.2, hsigner, hwritable, ⟨?_, ?_⟩, ⟨_, ?_, hcarries₁⟩, fun a record hr => ?_⟩
  · rw [hadopts.active]
    exact OrdSet.has_iff.1 (hactive h.tea)
  · have htomb := hrep.tombstones ((sealing "prefers tea").address reference)
    rw [hfate h.tea] at htomb
    rw [hadopts.tombstones, OrdMap.has]
    simpa [Fate.operation] using htomb
  · rw [hmemories, if_neg sealing_address_ne, if_pos rfl]
  · rw [hmemories] at hr
    split_ifs at hr with h₂ h₁
    · exact Or.inr (Option.some.inj hr ▸ hcarries₂)
    · exact Or.inl (Option.some.inj hr ▸ hcarries₁)

theorem openedWith_sealed {record : Json} {w : Vault} {iv : Bytes} {a text : JsString}
    (h : record.get (js "content_ciphertext") = some (encryptContent P w iv a text)) : openedWith record = some (.str a) := by
  simp [openedWith, h, encryptContent, orElse]

/-- What has been sealed by the code is authenticated. -/
theorem carries_authenticated {w : Vault} {t₁ t₂ : String}
    (h : ∀ a record, w.memories.get a = some record → Carries v t₁ record ∨ Carries v t₂ record) :
    Authenticated reference w [sealing t₁, sealing t₂] := by
  intro a record iv aad tag ciphertext plaintext hrecord hiv haad htag hcipher hopen
  have hsealed : ∀ t, Carries v t record → utf8 aad = utf8 ((sealing t).address reference) ∧ plaintext = utf8 (js t) := by
    intro t hc
    have hname := openedWith_sealed hc.cipher
    obtain rfl : aad = (sealing t).address reference := Json.str.inj (Option.some.inj (haad.symm.trans hname))
    have hdecrypt := reference_lawful.decrypt_encrypt v.vaultKey (referenceEnv.random 0 12)
      (utf8 ((sealing t).address reference)) (utf8 (js t))
    simp only [hc.cipher, ciphertextOf, encryptContent, Option.getD_some, get_obj_cons, js_inj, String.reduceEq, if_false, if_true,
      Option.some.injEq, Json.str.injEq] at hiv htag hcipher
    rw [← hiv, ← htag, ← hcipher, reference.ofBase64_base64, reference.ofBase64_base64, reference.ofBase64_base64] at hopen
    exact ⟨rfl, Except.ok.inj (hopen.symm.trans hdecrypt)⟩
  rcases h a record hrecord with hc | hc
  · exact ⟨sealing t₁, by simp, hsealed t₁ hc⟩
  · exact ⟨sealing t₂, by simp, hsealed t₂ hc⟩

/-- **A recall returns the content of the ciphertext that its record carries.** -/
theorem TwoMemories.recalled {v₀ : Vault} {r₁ r₂ : Json} (h : TwoMemories v₀ v r₁ r₂) (t₁ t₂ : String)
    (ht : isWellFormed (js t₁) = true) : ∃ b v' imported record r s',
    exportBundle reference referenceEnv {} v = .ok b v' ∧
    EnigmaMemory.importBundle reference referenceEnv {}
      { b with memory_objects := [withCiphertext v r₁ t₁, withCiphertext v r₂ t₂] } = .ok imported ∧
    Authenticated reference imported.vault [sealing t₁, sealing t₂] ∧
    imported.vault.addressKey = Reference.zeroKey ∧
    imported.vault.memories.get ((sealing "prefers tea").address reference) = some record ∧ Carries v t₁ record ∧
    recallCached reference referenceEnv { memory_addr := some ((sealing "prefers tea").address reference) }
      ⟨imported.vault, OrdMap.empty⟩ = .ok r s' ∧ r.content = js t₁ := by
  obtain ⟨b, v', imported, hb, himport, hvault, haddress, hsigner, hwritable, hlive, ⟨record, hrecord, hcarries⟩, hall⟩ :=
    h.importBundle t₁ t₂
  have hcipher := hcarries.cipher
  rw [ciphertextOf, ← encryptContent_congr hvault] at hcipher
  have hcontent := decryptContent_sealed reference_lawful hcipher
  rw [reference_lawful.ofUtf8_utf8 _ ht, ← Option.getD_some (a := record) (b := .null), ← hrecord] at hcontent
  have hok : Succeeds (recallMemory reference referenceEnv { memory_addr := some ((sealing "prefers tea").address reference) })
      imported.vault := by
    refine recall_ok hsigner rfl ?_ ?_ rfl hlive (isActive_iff.2 ⟨record, hrecord, hcarries.state⟩) hcontent harmless_none
      harmless_none hwritable
    · rw [← memoryAddress_sealing h.isLocal.addressKey]
      exact memoryAddress_ne _ _ _ _
    · rw [← memoryAddress_sealing h.isLocal.addressKey]
      exact isQuiet_memoryAddress ..
  obtain ⟨r, w, hr⟩ := hok
  obtain ⟨s', hr', -⟩ := recallCached_of_recall (cacheOk_empty _) hr
  obtain ⟨a, record', ha, hrecord', hread⟩ := recall_reads hr
  obtain rfl : (sealing "prefers tea").address reference = a := Option.some.inj ha
  rw [hrecord', Option.getD_some, hread] at hcontent
  exact ⟨b, v', imported, record, r, s', hb, himport, carries_authenticated hall, haddress.trans h.isLocal.addressKey, hrecord,
    hcarries, hr', Except.ok.inj hcontent⟩

theorem hmac_injOn_sealings : Set.InjOn (fun x : Bytes × JsString => hmacSha256Hex x.1 x.2)
    { x | ∃ s ∈ [sealing "prefers tea", sealing "prefers coffee"], x = (s.addressKey.1, s.addressText reference) } := by
  have hne : ∀ {s t : Sealing}, s.address reference ≠ t.address reference →
      hmacSha256Hex s.addressKey.1 (s.addressText reference) ≠ hmacSha256Hex t.addressKey.1 (t.addressText reference) :=
    fun h he => h (congrArg (js "mem:hmac-sha256:" ++ ·) he)
  rintro x ⟨s, hs, rfl⟩ y ⟨t, ht, rfl⟩ h
  simp only [List.mem_cons, List.not_mem_nil, or_false] at hs ht
  rcases hs with rfl | rfl <;> rcases ht with rfl | rfl
  · rfl
  · exact absurd h (hne sealing_address_ne)
  · exact absurd h (hne sealing_address_ne.symm)
  · rfl

end EnigmaMemory
