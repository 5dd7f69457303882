import EnigmaMemory.Proof.Writes
import EnigmaMemory.Spec.PlaintextCache

/-!
# The cache tells what decrypting would

A cached plaintext is the one that the ciphertext of its record gives (`CacheOk`), in every
reachable state: records change only in fields that decryption does not read. So a call with
the cache returns what the call without it returns (`recallCached_ok`, `stepCached_ok`).
-/

namespace EnigmaMemory

open Json

variable {P : Platform} {α β : Type} {s s' : CachedVault}

/-! ## Statements of a call -/

theorem cached_get_bind (f : CachedVault → CachedM β) (s : CachedVault) : (get >>= f : CachedM β) s = f s s := rfl

theorem cached_pure_ok {a b : α} : (pure a : CachedM α) s = .ok b s' ↔ a = b ∧ s = s' := EStateM.pure_eq_ok

theorem onVault_ok {m : VaultM α} {a : α} : onVault m s = .ok a s' ↔ m s.vault = .ok a s'.vault ∧ s'.plaintexts = s.plaintexts := by
  unfold onVault
  cases m s.vault with
  | ok b v =>
    simp only [EStateM.Result.ok.injEq]
    constructor
    · rintro ⟨rfl, rfl⟩
      exact ⟨⟨rfl, rfl⟩, rfl⟩
    · rintro ⟨⟨rfl, rfl⟩, h⟩
      exact ⟨rfl, by rw [← h]⟩
  | error e v => simp

theorem onVault_bind_ok {m : VaultM α} {f : α → CachedM β} {b : β} :
    (onVault m >>= f) s = .ok b s' ↔ ∃ a v, m s.vault = .ok a v ∧ f a { s with vault := v } = .ok b s' := by
  rw [EStateM.bind_eq_ok]
  constructor
  · rintro ⟨a, t, hm, hf⟩
    obtain ⟨hm, ht⟩ := onVault_ok.1 hm
    exact ⟨a, t.vault, hm, by rw [← ht]; exact hf⟩
  · rintro ⟨a, v, hm, hf⟩
    exact ⟨a, { s with vault := v }, onVault_ok.2 ⟨hm, rfl⟩, hf⟩

theorem onVault_ofExcept_bind_ok {x : Except JsError α} {f : α → CachedM β} {b : β} :
    (onVault (ofExcept x) >>= f) s = .ok b s' ↔ ∃ a, x = .ok a ∧ f a s = .ok b s' := by
  rw [onVault_bind_ok]
  constructor
  · rintro ⟨a, v, hx, hf⟩
    obtain ⟨hok, rfl⟩ := ofExcept_ok.1 hx
    exact ⟨a, hok, hf⟩
  · rintro ⟨a, hx, hf⟩
    exact ⟨a, s.vault, ofExcept_ok.2 ⟨hx, rfl⟩, hf⟩

theorem onVault_refuse_bind_ok {c : Bool} {m : JsString} {f : Unit → CachedM β} {b : β} :
    (onVault (refuse c m) >>= f) s = .ok b s' ↔ c = false ∧ f () s = .ok b s' := by
  rw [refuse, onVault_ofExcept_bind_ok]
  cases c with
  | false =>
    constructor
    · rintro ⟨_, _, h⟩
      exact ⟨rfl, h⟩
    · rintro ⟨_, h⟩
      exact ⟨(), rfl, h⟩
  | true => simp

theorem onVault_append_bind_ok {env : Ambient} {f : EventFields} {k : Entry → CachedM β} {b : β} :
    (onVault (appendEvent P env f) >>= k) s = .ok b s' ↔
      ∃ e, nextEntry P env s.vault f = .ok e ∧ k e { s with vault := pushEntry P s.vault e } = .ok b s' := by
  rw [onVault_bind_ok]
  constructor
  · rintro ⟨e, v, he, hk⟩
    obtain ⟨hok, rfl⟩ := append_ok.1 he
    exact ⟨e, hok, hk⟩
  · rintro ⟨e, he, hk⟩
    exact ⟨e, _, append_ok.2 ⟨he, rfl⟩, hk⟩

theorem cached_discard_ok {m : CachedM α} {u : Unit} : (discard m : CachedM Unit) s = .ok u s' ↔ ∃ a, m s = .ok a s' := by
  simp only [discard, Functor.mapConst, Function.comp, EStateM.map]
  cases m s with
  | ok a t => simp
  | error e t => simp

theorem stepCached_eq_some {c : Call} : stepCached P s c = some s' ↔ ∃ u, c.execCached P s = .ok u s' := by
  unfold stepCached
  cases c.execCached P s with
  | ok u t => simp
  | error e t => simp

/-! ## The cache of a vault -/

/-- What decryption reads of a vault and a record. -/
theorem decryptContent_congr {v w : Vault} {r r' : Json} (hkey : w.vaultKey = v.vaultKey)
    (hcipher : r'.get (js "content_ciphertext") = r.get (js "content_ciphertext"))
    (haddr : r'.get (js "memory_addr") = r.get (js "memory_addr")) : decryptContent P w r' = decryptContent P v r := by
  unfold decryptContent
  rw [hkey, hcipher, haddr]

/-- A cached plaintext is what decrypting gives. -/
def CacheOk (P : Platform) (s : CachedVault) : Prop :=
  ∀ a p, s.plaintexts.get a = some p → ∃ r, s.vault.memories.get a = some r ∧ decryptContent P s.vault r = .ok p

theorem CacheOk.congr (h : CacheOk P s) (hs : SameStore s.vault s'.vault) (hc : s'.plaintexts = s.plaintexts) : CacheOk P s' := by
  intro a p hp
  rw [hc] at hp
  obtain ⟨r, hr, hd⟩ := h a p hp
  refine ⟨r, hs.memories ▸ hr, ?_⟩
  rw [← hd]
  exact decryptContent_congr hs.vaultKey rfl rfl

theorem cacheOk_empty (v : Vault) : CacheOk P ⟨v, OrdMap.empty⟩ := by
  intro a p hp
  cases hp

/-- **Reading through the cache is decrypting.** -/
theorem readContent_ok {a p : JsString} (h : CacheOk P s)
    (hread : readContent P a ((s.vault.memories.get a).getD .null) s = .ok p s') (hactive : isActive (s.vault.memories.get a) = true) :
    decryptContent P s.vault ((s.vault.memories.get a).getD .null) = .ok p ∧ s'.vault = s.vault ∧ CacheOk P s' := by
  unfold readContent at hread
  cases hc : s.plaintexts.get a with
  | some q =>
    rw [hc] at hread
    cases hread
    obtain ⟨r, hr, hd⟩ := h a p hc
    rw [hr]
    exact ⟨hd, rfl, h⟩
  | none =>
    rw [hc] at hread
    cases hd : decryptContent P s.vault ((s.vault.memories.get a).getD .null) with
    | error e => simp [hd] at hread
    | ok q =>
      simp only [hd] at hread
      cases hread
      refine ⟨rfl, rfl, fun b r hb => ?_⟩
      rw [OrdMap.get_set] at hb
      split at hb
      · rename_i he
        cases hb
        obtain ⟨record, hrecord, -⟩ := isActive_iff.1 hactive
        rw [hrecord] at hd
        exact ⟨record, he ▸ hrecord, hd⟩
      · exact h b r hb

/-! ## Calls -/

theorem recallCached_ok {env : Ambient} {args : RecallArgs} {r : Recalled} (h : CacheOk P s)
    (hr : recallCached P env args s = .ok r s') : recallMemory P env args s.vault = .ok r s'.vault ∧ CacheOk P s' := by
  unfold recallCached at hr
  rw [cached_get_bind] at hr
  simp only [onVault_ofExcept_bind_ok, onVault_refuse_bind_ok] at hr
  obtain ⟨addr, haddr, htomb, hactive, hstate, hr⟩ := hr
  obtain ⟨plaintext, t, hread, hr⟩ := EStateM.bind_eq_ok.1 hr
  have hstate' : isActive (s.vault.memories.get addr) = true := by simpa using hstate
  obtain ⟨hplain, hvault, hcache⟩ := readContent_ok h hread hstate'
  obtain ⟨e, he, hr⟩ := onVault_append_bind_ok.1 hr
  obtain ⟨rfl, rfl⟩ := cached_pure_ok.1 hr
  rw [hvault] at he
  refine ⟨?_, hcache.congr (sameStore_pushEntry _ e) rfl⟩
  unfold recallMemory
  rw [get_bind]
  simp only [ofExcept_bind_ok, refuse_bind_ok, append_bind_ok, hvault]
  exact ⟨addr, haddr, htomb, hactive, hstate, plaintext, hplain, e, he, rfl⟩

/-- A recall without the cache is one with it. -/
theorem recallCached_of_recall {env : Ambient} {args : RecallArgs} {r : Recalled} {v' : Vault} (h : CacheOk P s)
    (hr : recallMemory P env args s.vault = .ok r v') : ∃ s', recallCached P env args s = .ok r s' ∧ s'.vault = v' := by
  unfold recallMemory at hr
  rw [get_bind] at hr
  simp only [ofExcept_bind_ok, refuse_bind_ok, append_bind_ok] at hr
  obtain ⟨addr, haddr, htomb, hactive, hstate, plaintext, hplain, e, he, hr⟩ := hr
  obtain ⟨rfl, rfl⟩ := pure_ok.1 hr
  obtain ⟨t, hread, hvault⟩ : ∃ t, readContent P addr ((s.vault.memories.get addr).getD .null) s = .ok plaintext t ∧
      t.vault = s.vault := by
    unfold readContent
    cases hc : s.plaintexts.get addr with
    | none => exact ⟨{ s with plaintexts := s.plaintexts.set addr plaintext }, by simp only [hplain], rfl⟩
    | some p =>
      obtain ⟨record, hrecord, hd⟩ := h addr p hc
      rw [hrecord, Option.getD_some, hd] at hplain
      exact ⟨s, by rw [Except.ok.inj hplain], rfl⟩
  refine ⟨{ t with vault := pushEntry P s.vault e }, ?_, rfl⟩
  unfold recallCached
  rw [cached_get_bind]
  simp only [onVault_ofExcept_bind_ok, onVault_refuse_bind_ok]
  refine ⟨addr, haddr, htomb, hactive, hstate, EStateM.bind_eq_ok.2 ⟨plaintext, t, hread, ?_⟩⟩
  refine onVault_append_bind_ok.2 ⟨e, by rw [hvault]; exact he, ?_⟩
  rw [hvault]
  rfl

theorem packMemoriesCached_ok {args : PackArgs} {packId : Json} (addrs : List JsString) :
    ∀ (env : Ambient) (s : CachedVault) (packed : List Packed), CacheOk P s →
      (∀ a ∈ addrs, isActive (s.vault.memories.get a) = true) →
      packMemoriesCached P args packId env addrs s = .ok packed s' →
      packMemories P args packId env addrs s.vault = .ok packed s'.vault ∧ CacheOk P s' := by
  induction addrs with
  | nil =>
    intro env s packed h _ hr
    rw [packMemoriesCached] at hr
    obtain ⟨rfl, rfl⟩ := cached_pure_ok.1 hr
    exact ⟨rfl, h⟩
  | cons addr rest ih =>
    intro env s packed h hactive hr
    rw [packMemoriesCached, cached_get_bind] at hr
    obtain ⟨content, t, hread, hr⟩ := EStateM.bind_eq_ok.1 hr
    obtain ⟨hplain, hvault, hcache⟩ := readContent_ok h hread (hactive addr (by simp))
    simp only [onVault_append_bind_ok, hvault] at hr
    obtain ⟨e1, he1, e2, he2, hr⟩ := hr
    obtain ⟨others, u, hrest, hr⟩ := EStateM.bind_eq_ok.1 hr
    obtain ⟨rfl, rfl⟩ := cached_pure_ok.1 hr
    have hsame : SameStore t.vault (pushEntry P (pushEntry P s.vault e1) e2) := by
      rw [hvault]
      exact (sameStore_pushEntry _ e1).trans (sameStore_pushEntry _ e2)
    have hcache' : CacheOk P ⟨pushEntry P (pushEntry P s.vault e1) e2, t.plaintexts⟩ := hcache.congr hsame rfl
    obtain ⟨hpacked, hcache''⟩ := ih _ _ _ hcache' (fun a ha => hactive a (by simp [ha])) hrest
    refine ⟨?_, hcache''⟩
    rw [packMemories, get_bind]
    simp only [ofExcept_bind_ok, append_bind_ok]
    exact ⟨content, hplain, e1, he1, e2, he2, EStateM.bind_eq_ok.2 ⟨others, _, hpacked, rfl⟩⟩

theorem compileContextPackCached_ok {env : Ambient} {args : PackArgs} {packed : List Packed} (h : CacheOk P s)
    (hr : compileContextPackCached P env args s = .ok packed s') :
    (∃ pack, compileContextPack P env args s.vault = .ok pack s'.vault ∧ pack.memories = packed.map Packed.memory) ∧
      CacheOk P s' := by
  unfold compileContextPackCached at hr
  rw [cached_get_bind] at hr
  simp only [onVault_ofExcept_bind_ok, rejectInvalid, onVault_refuse_bind_ok] at hr
  obtain ⟨passport, hpassport, limit, hlimit, selection, hselection, hvalid, now, hnow, hr⟩ := hr
  obtain ⟨packed', t, hpacked, hr⟩ := EStateM.bind_eq_ok.1 hr
  simp only [onVault_ofExcept_bind_ok] at hr
  obtain ⟨receipts, hreceipts, hr⟩ := hr
  obtain ⟨rfl, rfl⟩ := cached_pure_ok.1 hr
  -- every selected address has passed the check
  have hactive : ∀ a ∈ selection.1, isActive (s.vault.memories.get a) = true := by
    intro a ha
    rw [Bool.not_eq_false', List.isEmpty_iff, List.flatMap_eq_nil_iff] at hvalid
    have herrors := hvalid a ha
    rw [selectionErrors, List.append_eq_nil_iff] at herrors
    by_contra hstate
    simp [hstate] at herrors
  obtain ⟨hok, hcache⟩ := packMemoriesCached_ok _ _ _ _ h hactive hpacked
  refine ⟨?_, hcache⟩
  unfold compileContextPack
  simp only [get_bind, ofExcept_bind_ok, rejectInvalid, refuse_bind_ok]
  apply Exists.intro
  exact ⟨⟨passport, hpassport, limit, hlimit, selection, hselection, hvalid, now, hnow,
    EStateM.bind_eq_ok.2 ⟨_, _, hok, ofExcept_bind_ok.2 ⟨receipts, hreceipts, rfl⟩⟩⟩, rfl⟩

/-- Forgetting a plaintext, after a change to the record that had it. -/
theorem CacheOk.forget {addr : JsString} {v : Vault} (h : CacheOk P s) (hkey : v.vaultKey = s.vault.vaultKey)
    (hrecords : ∀ a r, a ≠ addr → s.vault.memories.get a = some r → ∃ r', v.memories.get a = some r' ∧
      r'.get (js "content_ciphertext") = r.get (js "content_ciphertext") ∧
      r'.get (js "memory_addr") = r.get (js "memory_addr")) : CacheOk P ⟨v, s.plaintexts.delete addr⟩ := by
  intro a p hp
  rw [OrdMap.get_delete] at hp
  split at hp
  · cases hp
  · rename_i hne
    obtain ⟨r, hr, hd⟩ := h a p hp
    obtain ⟨r', hr', hcipher, haddr⟩ := hrecords a r hne hr
    exact ⟨r', hr', (decryptContent_congr hkey hcipher haddr).trans hd⟩

theorem get_retouch {r : Json} {state : String} {now key : JsString} (h : key ≠ js "state") (h' : key ≠ js "updated_at") :
    (retouch r state now).get key = r.get key := by
  rw [retouch, get_set, if_neg h', get_set, if_neg h]

/-- **A call with the cache is a call**, and keeps the cache right. -/
theorem stepCached_ok {c : Call} (h : CacheOk P s) (hstep : stepCached P s c = some s') :
    stepCall P s.vault c = some s'.vault ∧ CacheOk P s' := by
  obtain ⟨u, hstep⟩ := stepCached_eq_some.1 hstep
  cases c with
  | recallMemory env args =>
    obtain ⟨r, hr⟩ := cached_discard_ok.1 hstep
    obtain ⟨hok, hcache⟩ := recallCached_ok h hr
    exact ⟨stepCall_eq_some.2 ⟨(), discard_ok.2 ⟨r, hok⟩⟩, hcache⟩
  | compileContextPack env args =>
    obtain ⟨packed, hr⟩ := cached_discard_ok.1 hstep
    obtain ⟨⟨pack, hok, -⟩, hcache⟩ := compileContextPackCached_ok h hr
    exact ⟨stepCall_eq_some.2 ⟨(), discard_ok.2 ⟨pack, hok⟩⟩, hcache⟩
  | exportBundle env args =>
    obtain ⟨bundle, hr⟩ := cached_discard_ok.1 hstep
    obtain ⟨hok, hplain⟩ := onVault_ok.1 hr
    obtain ⟨f, hexport, -⟩ := exportBundle_step hok
    exact ⟨stepCall_eq_some.2 ⟨(), discard_ok.2 ⟨bundle, hok⟩⟩, h.congr hexport.sameStore hplain⟩
  | remember env args =>
    obtain ⟨r, v, hr, hforget⟩ := onVault_bind_ok.1 hstep
    cases hforget
    obtain ⟨ch, hw, hs, content, hcontent, haddr⟩ := remember_writes hr
    refine ⟨stepCall_eq_some.2 ⟨(), discard_ok.2 ⟨r, hr⟩⟩, h.forget ?_ fun a record hne hget => ?_⟩
    · cases hw with
      | remember => exact hs.vaultKey
    · cases hw with
      | remember _ hcontent' =>
        cases hcontent.symm.trans hcontent'
        refine ⟨record, ?_, rfl, rfl⟩
        rw [hs.memories, ← hget, haddr] at *
        exact (OrdMap.get_set (m := s.vault.memories)).trans (if_neg hne)
  | updateMemory env args =>
    obtain ⟨r, v, hr, hforget⟩ := onVault_bind_ok.1 hstep
    cases hforget
    obtain ⟨ch, hw, hs, content, record, hcontent, hrecord, hold, haddr⟩ := updateMemory_writes hr
    refine ⟨stepCall_eq_some.2 ⟨(), discard_ok.2 ⟨r, hr⟩⟩, ?_⟩
    cases hw with
    | @updateMemory _ _ old record' content' first now hold' hne hcontent' hlive hget =>
      cases hcontent.symm.trans hcontent'
      cases hold.symm.trans hold'
      cases hrecord.symm.trans hget
      refine h.forget hs.vaultKey fun a record' hne hget' => ?_
      rw [haddr] at hne
      rw [hs.memories]
      change ∃ r', ((s.vault.memories.set r.old_memory_addr (retouch record "superseded" first)).set _ _).get a = some r' ∧ _
      rw [OrdMap.get_set, if_neg hne, OrdMap.get_set]
      split
      · rename_i heq
        subst heq
        cases hrecord.symm.trans hget'
        exact ⟨_, rfl, get_retouch (by decide) (by decide), get_retouch (by decide) (by decide)⟩
      · exact ⟨record', hget', rfl, rfl⟩
  | deleteMemory env args =>
    obtain ⟨r, v, hr, hforget⟩ := onVault_bind_ok.1 hstep
    cases hforget
    obtain ⟨ch, hw, hs, haddr⟩ := deleteMemory_writes hr
    refine ⟨stepCall_eq_some.2 ⟨(), discard_ok.2 ⟨r, hr⟩⟩, ?_⟩
    cases hw with
    | @deleteMemory _ _ addr first now hargs hne hlive =>
      cases haddr.symm.trans hargs
      refine h.forget hs.vaultKey fun a record hne hget => ⟨record, ?_, rfl, rfl⟩
      rw [hs.memories, ← hget]
      cases s.vault.memories.get r.memory_addr with
      | none => simp [Change.apply]
      | some x => simp [Change.apply, OrdMap.get_set, hne]

end EnigmaMemory
