import Mathlib.Logic.Relation
import EnigmaMemory.Lib.Result
import EnigmaMemory.Proof.Append
import EnigmaMemory.Spec.Calls

/-!
# What a successful call does to the vault

Every successful call is a change of the stored state (`Change`) followed by one appended
event, or several appended events with no change between them. `call_steps` says so for
all calls; what later modules prove about runs they prove about these steps.
-/

namespace EnigmaMemory

open Relation (ReflTransGen)

variable {P : Platform} {α β : Type}

/-! ## Statements of a call -/

theorem get_bind (f : Vault → VaultM β) (v : Vault) : (get >>= f : VaultM β) v = f v v := rfl

theorem modify_bind (g : Vault → Vault) (f : Unit → VaultM β) (v : Vault) :
    (modify g >>= f : VaultM β) v = f () (g v) := rfl

theorem pure_ok {a b : α} {v v' : Vault} : (pure a : VaultM α) v = .ok b v' ↔ a = b ∧ v = v' := EStateM.pure_eq_ok

theorem ofExcept_ok {x : Except JsError α} {v v' : Vault} {a : α} :
    ofExcept x v = .ok a v' ↔ x = .ok a ∧ v = v' := by
  cases x with
  | ok b => simp [ofExcept]
  | error e => simp [ofExcept]

theorem ofExcept_bind_ok {x : Except JsError α} {f : α → VaultM β} {v v' : Vault} {b : β} :
    (ofExcept x >>= f) v = .ok b v' ↔ ∃ a, x = .ok a ∧ f a v = .ok b v' := by
  rw [EStateM.bind_eq_ok]
  constructor
  · rintro ⟨a, t, hx, h⟩
    obtain ⟨hok, rfl⟩ := ofExcept_ok.1 hx
    exact ⟨a, hok, h⟩
  · rintro ⟨a, hx, h⟩
    exact ⟨a, v, ofExcept_ok.2 ⟨hx, rfl⟩, h⟩

theorem refuse_bind_ok {c : Bool} {m : JsString} {f : Unit → VaultM β} {v v' : Vault} {b : β} :
    (refuse c m >>= f) v = .ok b v' ↔ c = false ∧ f () v = .ok b v' := by
  rw [refuse, ofExcept_bind_ok]
  cases c with
  | false => exact ⟨fun ⟨_, _, h⟩ => ⟨rfl, h⟩, fun ⟨_, h⟩ => ⟨(), rfl, h⟩⟩
  | true => simp

theorem append_ok {env : Ambient} {f : EventFields} {v v' : Vault} {e : Entry} :
    appendEvent P env f v = .ok e v' ↔ nextEntry P env v f = .ok e ∧ v' = pushEntry P v e := by
  unfold appendEvent
  cases nextEntry P env v f with
  | ok e' =>
    simp only [EStateM.Result.ok.injEq, Except.ok.injEq]
    exact ⟨fun ⟨h1, h2⟩ => ⟨h1, h1 ▸ h2.symm⟩, fun ⟨h1, h2⟩ => ⟨h1, h1 ▸ h2.symm⟩⟩
  | error e' => simp

theorem append_bind_ok {env : Ambient} {f : EventFields} {k : Entry → VaultM β} {v v' : Vault} {b : β} :
    (appendEvent P env f >>= k) v = .ok b v' ↔
      ∃ e, nextEntry P env v f = .ok e ∧ k e (pushEntry P v e) = .ok b v' := by
  rw [EStateM.bind_eq_ok]
  constructor
  · rintro ⟨e, t, hx, h⟩
    obtain ⟨hok, rfl⟩ := append_ok.1 hx
    exact ⟨e, hok, h⟩
  · rintro ⟨e, hx, h⟩
    exact ⟨e, _, append_ok.2 ⟨hx, rfl⟩, h⟩

theorem discard_ok {m : VaultM α} {v v' : Vault} {u : Unit} :
    (discard m : VaultM Unit) v = .ok u v' ↔ ∃ a, m v = .ok a v' := by
  simp only [discard, Functor.mapConst, Function.comp, EStateM.map]
  cases m v with
  | ok a t => simp
  | error e t => simp

theorem stepCall_eq_some {v v' : Vault} {c : Call} : stepCall P v c = some v' ↔ ∃ u, c.exec P v = .ok u v' := by
  unfold stepCall
  cases c.exec P v with
  | ok u t => simp
  | error e t => simp

/-! ## The new vault -/

/-- What `createVault` returns. -/
structure Created (P : Platform) (env : Ambient) (args : CreateArgs) (v : Vault) : Prop where
  created_at : ∃ t, v.created_at = .str (P.isoText t)
  keys : ∃ vaultKey addressKey seed, vaultKeys P env args = .ok (vaultKey, addressKey, seed) ∧ v.vaultKey = vaultKey ∧
    v.addressKey = addressKey ∧ v.signingKeyPair = args.signingKeyPair.getD (signingPair P env seed)
  tenant_id : v.tenant_id = withDefault args.tenant_id (.str (js "local"))
  subject_id : v.subject_id = withDefault args.subject_id (.str (js "local-subject"))
  policy_id : v.policy_id = withDefault args.policy_id (.str (js "local-default"))
  signer : v.signer = withDefault args.signer (signerFor (env.uuid 2) v.signingKeyPair)
  memories : v.memories = OrdMap.empty
  activeAddresses : v.activeAddresses = OrdSet.empty
  tombstones : v.tombstones = OrdMap.empty
  events : v.events = []
  receipts : v.receipts = []
  sequence : v.sequence = 0
  roots : v.roots = lifecycleRoots P v

theorem roots_applyLifecycleRoots (v : Vault) : (applyLifecycleRoots P v).roots = lifecycleRoots P (applyLifecycleRoots P v) := rfl

theorem createVault_created {env : Ambient} {args : CreateArgs} {v : Vault} (h : createVault P env args = .ok v) :
    Created P env args v := by
  unfold createVault at h
  simp only [Except.bind_eq_ok] at h
  obtain ⟨createdAt, hnow, ⟨vaultKey, addressKey, seed⟩, hkeys, h⟩ := h
  obtain ⟨t, rfl⟩ := nowIso_eq hnow
  rw [← Except.pure_eq_ok.1 h]
  -- the roots are left folded: unfolding them would run the hash function
  exact ⟨⟨t, rfl⟩, ⟨_, _, _, hkeys, rfl, rfl, rfl⟩, rfl, rfl, rfl, rfl, rfl, rfl, rfl, rfl, rfl, rfl,
    roots_applyLifecycleRoots _⟩

/-- A vault that makes its own signing key signs under the identifier of that key. -/
theorem Created.ownSigner {env : Ambient} {args : CreateArgs} {v : Vault} (h : Created P env args v)
    (hpair : args.signingKeyPair = none) (hsigner : args.signer = none) :
    ∃ pk, ∀ sk, normalizeSigner P (some v.signer) none sk = .ok (signerJson (keyIdOf pk) ed25519) := by
  obtain ⟨vaultKey, addressKey, seed, -, -, -, hkeys⟩ := h.keys
  have hid : ∃ pk, v.signingKeyPair.key_id = some (.str (keyIdOf pk)) := by
    rw [hkeys, hpair, Option.getD_none]
    cases seed <;> exact ⟨_, rfl⟩
  obtain ⟨pk, hid⟩ := hid
  refine ⟨pk, fun sk => ?_⟩
  have hne : keyIdOf pk ≠ [] := List.append_ne_nil_of_left_ne_nil (by decide) _
  have hv : v.signer = signerJson (keyIdOf pk) ed25519 := by
    rw [h.signer, hsigner]
    simp [withDefault, Json.orElse, signerFor, hid, signerJson]
  rw [hv, signerJson, normalizeSigner]
  simp [Json.orElse, requiredString, hne, ed25519, signerJson, bind, Except.bind, pure, Except.pure]

/-! ## Changes -/

/-- A record of the memory at `addr` in a given state. -/
structure IsRecord (addr : JsString) (state : String) (r : Json) : Prop where
  addr : r.get (js "memory_addr") = some (.str addr)
  state : r.get (js "state") = some (.str (js state))
  nodup : r.keys.Nodup

/-- A tombstone of `addr`. -/
structure IsTombstone (addr : JsString) (operation : String) (t : Json) : Prop where
  addr : t.get (js "memory_addr") = some (.str addr)
  operation : t.get (js "operation") = some (.str (js operation))
  nodup : t.keys.Nodup

theorem isActive_iff {r : Option Json} : isActive r = true ↔ ∃ j, r = some j ∧ j.get (js "state") = some (.str (js "active")) := by
  cases r with
  | none => simp [isActive, Json.isStr]
  | some j => simp [isActive]

/-- The writes to the record of a memory that is no longer active. -/
def retouch (r : Json) (state : String) (now : JsString) : Json :=
  (r.set (js "state") (.str (js state))).set (js "updated_at") (.str now)

/-- What a call changes before it appends its event. -/
inductive Change where
  | note
  | create (addr : JsString) (record : Json)
  | supersede (old new : JsString) (oldRecord newRecord tombstone : Json)
  | retire (addr : JsString) (record : Option Json) (tombstone : Json)

def Change.apply (v : Vault) : Change → Vault
  | .note => v
  | .create addr record => { v with
      memories := v.memories.set addr record
      activeAddresses := v.activeAddresses.add addr }
  | .supersede old new oldRecord newRecord tombstone => { v with
      memories := (v.memories.set old oldRecord).set new newRecord
      activeAddresses := (v.activeAddresses.delete old).add new
      tombstones := v.tombstones.set old tombstone }
  | .retire addr record tombstone => { v with
      memories := match record with
        | some r => v.memories.set addr r
        | none => v.memories
      activeAddresses := v.activeAddresses.delete addr
      tombstones := v.tombstones.set addr tombstone }

@[simp] theorem apply_receipts (v : Vault) (ch : Change) : (ch.apply v).receipts = v.receipts := by cases ch <;> rfl

@[simp] theorem apply_sequence (v : Vault) (ch : Change) : (ch.apply v).sequence = v.sequence := by cases ch <;> rfl

@[simp] theorem apply_signer (v : Vault) (ch : Change) : (ch.apply v).signer = v.signer := by cases ch <;> rfl

@[simp] theorem apply_signingKeyPair (v : Vault) (ch : Change) : (ch.apply v).signingKeyPair = v.signingKeyPair := by
  cases ch <;> rfl

/-- An address that may be recalled. -/
structure Live (v : Vault) (addr : JsString) : Prop where
  active : addr ∈ v.activeAddresses
  free : v.tombstones.has addr = false

/-- The changes that a call makes, with the event it appends to each. -/
inductive Change.Legal (v : Vault) (f : EventFields) : Change → Prop
  | note : f.source_addr = none → (∀ a, f.memory_addr = some a → ∃ addr, a = .str addr ∧ Live v addr) →
      Legal v f .note
  | create {addr : JsString} {record : Json} : addr ≠ [] → v.tombstones.has addr = false →
      IsRecord addr "active" record → f.operation = .str (js "create") → f.memory_addr = some (.str addr) →
      f.source_addr = none → Legal v f (.create addr record)
  | supersede {old new now : JsString} {record newRecord tombstone : Json} : Live v old → new ≠ [] →
      v.memories.get old = some record → IsRecord new "active" newRecord → IsTombstone old "update" tombstone →
      f.operation = .str (js "update") → f.memory_addr = some (.str new) → f.source_addr = some (.str old) →
      Legal v f (.supersede old new (retouch record "superseded" now) newRecord tombstone)
  | retire {addr now : JsString} {tombstone : Json} : Live v addr → IsTombstone addr "delete" tombstone →
      f.operation = .str (js "delete") → f.memory_addr = some (.str addr) → f.source_addr = none →
      Legal v f (.retire addr ((v.memories.get addr).map fun r => retouch r "tombstoned" now) tombstone)

/-- An update to an address that is neither the current one nor tombstoned. -/
def Change.Fresh (v : Vault) : Change → Prop
  | .supersede old new _ _ _ => old ≠ new ∧ v.tombstones.has new = false
  | _ => True

/-- Only a deletion is called one. -/
def Change.Plain (f : EventFields) : Change → Prop
  | .note => f.operation ≠ .str (js "delete")
  | _ => True

/-- **One step**: a change and the event appended to it. -/
structure Step (P : Platform) (v : Vault) (ch : Change) (f : EventFields) (v' : Vault) : Prop where
  legal : ch.Legal v f
  appended : ∃ env e, nextEntry P env (ch.apply v) f = .ok e ∧ v' = pushEntry P (ch.apply v) e

/-- A step that is fresh and plain. -/
def GoodStep (P : Platform) (v v' : Vault) : Prop := ∃ ch f, Step P v ch f v' ∧ ch.Fresh v ∧ ch.Plain f

/-! ## Sanitized values -/

theorem nodup_sanitizePublicFields (F : NumberFormat) : ∀ (fs : List (JsString × Json)) (out : Json),
    out.keys.Nodup → (sanitizePublicFields F out fs).keys.Nodup
  | [], out, h => by rwa [sanitizePublicFields]
  | (key, item) :: fs, out, h => by
    rw [sanitizePublicFields]
    split
    · exact nodup_sanitizePublicFields F fs out h
    · split
      · exact nodup_sanitizePublicFields F fs _ (Json.nodup_set h)
      · split
        · exact nodup_sanitizePublicFields F fs _ (Json.nodup_set h)
        · exact nodup_sanitizePublicFields F fs _ (Json.nodup_set h)

/-- A sanitized value has no key twice. -/
theorem nodup_publicRecord (F : NumberFormat) (j : Json) : (publicRecord F j).keys.Nodup := by
  cases j with
  | obj fs =>
    rw [publicRecord, sanitizePublicValue]
    exact nodup_sanitizePublicFields F fs _ List.nodup_nil
  | _ => exact List.nodup_nil

theorem required_ok {x : Option Json} {m : String} {j : Json} : required x m = .ok j ↔ x = some j ∧ j ≠ .null := by
  unfold required
  split
  · simp
  · simp only [reduceCtorEq, Option.some.injEq, false_iff, not_and, not_not]
    exact fun h => h.symm
  · rename_i y hy
    simp only [Except.ok.injEq, Option.some.injEq]
    exact ⟨fun h => ⟨h, fun hn => hy (by rw [h, hn])⟩, fun h => h.1⟩

theorem requiredAddr_ok {a : Option JsString} {m : String} {addr : JsString} :
    requiredAddr a m = .ok addr ↔ a = some addr ∧ addr ≠ [] := by
  unfold requiredAddr
  split
  · rename_i c rest
    simp only [Except.ok.injEq, Option.some.injEq]
    exact ⟨fun h => ⟨h, h ▸ List.cons_ne_nil c rest⟩, fun h => h.1⟩
  · rename_i h
    refine iff_of_false (by simp) ?_
    rintro ⟨rfl, hne⟩
    cases addr with
    | nil => exact hne rfl
    | cons c rest => exact h c rest rfl

theorem addrOf_str {a : JsString} (h : a ≠ []) : addrOf (some (.str a)) = some a := by
  cases a with
  | nil => exact absurd rfl h
  | cons c rest => rfl

theorem addrOf_eq_some {x : Option Json} {a : JsString} : addrOf x = some a ↔ x = some (.str a) ∧ a ≠ [] := by
  unfold addrOf
  split
  · rename_i c rest
    simp only [Option.some.injEq, Json.str.injEq]
    exact ⟨fun h => ⟨h, h ▸ List.cons_ne_nil c rest⟩, fun h => h.1⟩
  · rename_i h
    refine iff_of_false (by simp) ?_
    rintro ⟨rfl, hne⟩
    cases a with
    | nil => exact hne rfl
    | cons c rest => exact h c rest rfl

/-! ## The records and tombstones of a call -/

theorem memoryAddress_ne (v : Vault) (subjectId memoryId : Json) (contentHash : JsString) :
    memoryAddress P v subjectId memoryId contentHash ≠ [] := List.append_ne_nil_of_left_ne_nil (by decide) _

theorem isRecord_memoryRecord (v : Vault) (iv : Bytes) (args : RememberArgs) (plaintext memoryId subjectId : Json)
    (createdAt contentHash memoryAddr : JsString) : IsRecord memoryAddr "active"
      (memoryRecord P v iv args plaintext memoryId subjectId createdAt contentHash memoryAddr) where
  addr := by simp [memoryRecord]
  state := by
    rw [memoryRecord, Json.get_obj_append, Json.get_obj_append]
    simp
  nodup := by
    unfold memoryRecord
    cases normalizeImportance P args.importance with
    | none => simp [Json.keys, Json.field]
    | some x => simp [Json.keys, Json.field]

theorem isRecord_updatedRecord (v : Vault) (iv : Bytes) (old : Json) (newAddr plaintext contentHash now : JsString) :
    IsRecord newAddr "active" (updatedRecord P v iv old newAddr plaintext contentHash now) where
  addr := by simp [updatedRecord, Json.spread, Json.fields]
  state := by simp [updatedRecord, Json.spread, Json.fields]
  nodup := by
    simp only [updatedRecord, Json.spread, Json.fields, List.foldl_cons, List.foldl_nil]
    iterate 6 apply Json.nodup_set
    have h := nodup_publicRecord P.toNumberFormat old
    rwa [Json.keys_eq] at h

theorem isTombstone_updateTombstone (oldAddr newAddr now : JsString) (reason : Option Json) :
    IsTombstone oldAddr "update" (updateTombstone oldAddr newAddr now reason) where
  addr := by simp [updateTombstone]
  operation := by simp [updateTombstone]
  nodup := by simp [updateTombstone, Json.keys]

theorem isTombstone_deleteTombstone (addr now : JsString) (reason : Option Json) :
    IsTombstone addr "delete" (deleteTombstone addr now reason) where
  addr := by simp [deleteTombstone]
  operation := by simp [deleteTombstone]
  nodup := by simp [deleteTombstone, Json.keys]

/-! ## Calls are steps -/

variable {v v' : Vault}

/-- A step of some kind. -/
def AnyStep (P : Platform) (v v' : Vault) : Prop := ∃ ch f, Step P v ch f v'

theorem Step.note {env : Ambient} {f : EventFields} {e : Entry} (hsource : f.source_addr = none)
    (haddr : ∀ a, f.memory_addr = some a → ∃ addr, a = .str addr ∧ Live v addr)
    (h : nextEntry P env v f = .ok e) : Step P v .note f (pushEntry P v e) :=
  ⟨.note hsource haddr, env, e, h, rfl⟩

theorem remember_step {env : Ambient} {args : RememberArgs} {r : Stored} (h : remember P env args v = .ok r v') :
    ∃ content record f, args.content = some content ∧
      Step P v (.create (rememberTarget P v env args content) record) f v' ∧
      r.memory_addr = rememberTarget P v env args content ∧
      record.get (js "subject_id") = some (withDefault args.subject_id v.subject_id) ∧
      record.get (js "memory_id") = some (withDefault args.memory_id (.str (js "mem_" ++ env.uuid 0))) ∧
      record.get (js "content_ciphertext") = some (encryptContent P v (env.random 0 12)
        (rememberTarget P v env args content) (content.toText P.toNumberFormat)) := by
  unfold remember at h
  rw [get_bind, ofExcept_bind_ok] at h
  obtain ⟨content, hcontent, h⟩ := h
  simp only [ofExcept_bind_ok, refuse_bind_ok, modify_bind, append_bind_ok] at h
  obtain ⟨createdAt, -, htomb, e, he, h⟩ := h
  obtain ⟨rfl, rfl⟩ := pure_ok.1 h
  refine ⟨content, _, _, (required_ok.1 hcontent).1, ⟨?_, env.drop 1, e, he, rfl⟩, rfl, ?_, ?_, ?_⟩
  · exact .create (memoryAddress_ne _ _ _ _) htomb (isRecord_memoryRecord ..) rfl rfl rfl
  · simp [memoryRecord]
  · simp [memoryRecord]
  · simp [memoryRecord, rememberTarget]

theorem recall_step {env : Ambient} {args : RecallArgs} {r : Recalled} (h : recallMemory P env args v = .ok r v') :
    ∃ addr f, Step P v .note f v' ∧ args.memory_addr = some addr ∧ Live v addr ∧
      isActive (v.memories.get addr) = true ∧ f.operation = withDefault args.operation (.str (js "read")) := by
  unfold recallMemory at h
  rw [get_bind, ofExcept_bind_ok] at h
  obtain ⟨addr, haddr, h⟩ := h
  simp only [ofExcept_bind_ok, refuse_bind_ok, append_bind_ok] at h
  obtain ⟨htomb, hactive, hstate, plaintext, -, e, he, h⟩ := h
  obtain ⟨-, rfl⟩ := pure_ok.1 h
  have hlive : Live v addr := ⟨by simpa using hactive, htomb⟩
  refine ⟨addr, _, .note rfl ?_ he, (requiredAddr_ok.1 haddr).1, hlive, by simpa using hstate, rfl⟩
  intro a ha
  exact ⟨addr, (Option.some.inj ha).symm, hlive⟩

theorem exportBundle_step {env : Ambient} {args : ExportArgs} {b : Bundle} (h : exportBundle P env args v = .ok b v') :
    ∃ f, Step P v .note f v' ∧ f.operation = .str (js "export") := by
  unfold exportBundle at h
  simp only [get_bind, append_bind_ok, ofExcept_bind_ok] at h
  obtain ⟨e, he, now, -, keyring, -, h⟩ := h
  obtain ⟨-, rfl⟩ := pure_ok.1 h
  exact ⟨_, .note rfl (fun a ha => by simp at ha) he, rfl⟩

theorem updateMemory_step {env : Ambient} {args : UpdateArgs} {r : Updated}
    (h : updateMemory P env args v = .ok r v') :
    ∃ old new f oldRecord newRecord tombstone, Step P v (.supersede old new oldRecord newRecord tombstone) f v' ∧
      args.memory_addr = some old ∧ updateTarget P v args = some new ∧
      r.old_memory_addr = old ∧ r.stored.memory_addr = new ∧ old ≠ [] := by
  unfold updateMemory at h
  rw [get_bind, ofExcept_bind_ok] at h
  obtain ⟨old, hold, h⟩ := h
  simp only [ofExcept_bind_ok, refuse_bind_ok, modify_bind, append_bind_ok] at h
  obtain ⟨plaintext, hplain, hlive, hknown, first, -, now, -, e, he, h⟩ := h
  obtain ⟨rfl, rfl⟩ := pure_ok.1 h
  obtain ⟨hargs, hne⟩ := requiredAddr_ok.1 hold
  rw [Bool.or_eq_false_iff, Bool.not_eq_false', OrdSet.has_iff] at hlive
  rw [Bool.not_eq_false', OrdMap.has_eq_true] at hknown
  obtain ⟨record, hrecord⟩ := hknown
  have hcontent : args.content = some plaintext := (required_ok.1 hplain).1
  simp only [hrecord, Option.getD_some, OrdMap.set_set] at he ⊢
  refine ⟨old, _, _, _, _, _, ⟨?_, env.drop 2, e, he, rfl⟩, hargs, ?_, rfl, rfl, hne⟩
  · exact .supersede ⟨hlive.2, hlive.1⟩ (memoryAddress_ne _ _ _ _) hrecord (isRecord_updatedRecord ..)
      (isTombstone_updateTombstone ..) rfl rfl rfl
  · -- the writes to the old record do not touch its subject and its identifier
    simp [updateTarget, hargs, hcontent, hrecord, updatedAddr]

theorem retireRecord_ok {time : ℤ} {now : Now} {addr : JsString} {u : Unit}
    (h : retireRecord P time now addr v = .ok u v') : ∃ updatedAt, v' = { v with
      memories := match (v.memories.get addr).map fun r => retouch r "tombstoned" updatedAt with
        | some r => v.memories.set addr r
        | none => v.memories } := by
  unfold retireRecord at h
  rw [get_bind] at h
  cases hr : v.memories.get addr with
  | none =>
    simp only [hr] at h
    obtain ⟨-, rfl⟩ := pure_ok.1 h
    exact ⟨[], rfl⟩
  | some record =>
    simp only [hr, modify_bind, ofExcept_bind_ok] at h
    obtain ⟨updatedAt, -, h⟩ := h
    refine ⟨updatedAt, ?_⟩
    cases h
    simp only [Option.map_some, OrdMap.set_set, retouch]

theorem deleteMemory_step {env : Ambient} {args : DeleteArgs} {r : Deleted}
    (h : deleteMemory P env args v = .ok r v') :
    ∃ addr f record tombstone, Step P v (.retire addr record tombstone) f v' ∧ args.memory_addr = some addr ∧
      r.memory_addr = addr ∧ addr ≠ [] := by
  unfold deleteMemory at h
  rw [get_bind, ofExcept_bind_ok] at h
  obtain ⟨addr, haddr, h⟩ := h
  simp only [refuse_bind_ok] at h
  obtain ⟨htomb, hactive, h⟩ := h
  obtain ⟨_, t, hretire, h⟩ := EStateM.bind_eq_ok.1 h
  obtain ⟨updatedAt, rfl⟩ := retireRecord_ok hretire
  simp only [ofExcept_bind_ok, modify_bind, append_bind_ok] at h
  obtain ⟨tombstonedAt, -, e, he, h⟩ := h
  obtain ⟨rfl, rfl⟩ := pure_ok.1 h
  have hlive : Live v addr := ⟨by simpa using hactive, htomb⟩
  obtain ⟨hargs, hne⟩ := requiredAddr_ok.1 haddr
  exact ⟨addr, _, _, _, ⟨.retire hlive (isTombstone_deleteTombstone ..) rfl rfl rfl, env.drop 2, e, he, rfl⟩,
    hargs, rfl, hne⟩

/-! ## Context packs -/

theorem rejectInvalid_bind_ok {errors : List JsString} {f : Unit → VaultM β} {b : β} :
    (rejectInvalid errors >>= f) v = .ok b v' ↔ errors = [] ∧ f () v = .ok b v' := by
  rw [rejectInvalid, refuse_bind_ok, Bool.not_eq_false', List.isEmpty_iff]

theorem selectionErrors_eq_nil {addr : JsString} :
    selectionErrors v addr = [] ↔ Live v addr ∧ isActive (v.memories.get addr) = true := by
  unfold selectionErrors
  constructor
  · intro h
    simp only [List.append_eq_nil_iff, ite_eq_left_iff, ite_eq_right_iff, List.cons_ne_nil, imp_false,
      Bool.not_eq_true, Bool.not_eq_false] at h
    exact ⟨⟨OrdSet.has_iff.1 h.1.2, h.1.1⟩, h.2⟩
  · rintro ⟨⟨h1, h2⟩, h3⟩
    simp [h1, h2, h3]

theorem packEvent_step {env : Ambient} {args : PackArgs} {operation : String} {packId : Json} {addr : JsString}
    {record : Json} {e : Entry} (hop : operation ≠ "delete") (hlive : Live v addr)
    (h : nextEntry P env v (packEvent args operation packId addr record) = .ok e) : GoodStep P v (pushEntry P v e) := by
  refine ⟨.note, _, .note rfl ?_ h, trivial, ?_⟩
  · intro a ha
    exact ⟨addr, (Option.some.inj ha).symm, hlive⟩
  · intro heq
    exact hop (js_inj.1 (Json.str.inj heq))

/-- The loop of a pack only appends events. -/
theorem packMemories_steps {args : PackArgs} {packId : Json} (addrs : List JsString) :
    ∀ (env : Ambient) (v : Vault) (packed : List Packed), (∀ a ∈ addrs, Live v a) →
      packMemories P args packId env addrs v = .ok packed v' → ReflTransGen (GoodStep P) v v' := by
  induction addrs with
  | nil =>
    intro env v packed _ h
    rw [packMemories] at h
    obtain ⟨-, rfl⟩ := pure_ok.1 h
    exact .refl
  | cons addr rest ih =>
    intro env v packed hlive h
    rw [packMemories, get_bind] at h
    simp only [ofExcept_bind_ok, append_bind_ok] at h
    obtain ⟨content, -, e1, he1, e2, he2, h⟩ := h
    obtain ⟨others, t, hrest, h⟩ := EStateM.bind_eq_ok.1 h
    obtain ⟨-, rfl⟩ := pure_ok.1 h
    have hl := hlive addr (by simp)
    -- appending an event does not change which addresses are live
    have h1 : GoodStep P v (pushEntry P v e1) := packEvent_step (by decide) hl he1
    have h2 : GoodStep P (pushEntry P v e1) (pushEntry P (pushEntry P v e1) e2) :=
      packEvent_step (by decide) ⟨hl.active, hl.free⟩ he2
    refine .head h1 (.head h2 (ih _ _ _ ?_ hrest))
    intro a ha
    have h := hlive a (by simp [ha])
    exact ⟨h.active, h.free⟩

theorem compileContextPack_steps {env : Ambient} {args : PackArgs} {pack : ContextPack}
    (h : compileContextPack P env args v = .ok pack v') : ReflTransGen (GoodStep P) v v' ∧
      ∀ a ∈ pack.memory_addresses, Live v a ∧ isActive (v.memories.get a) = true := by
  unfold compileContextPack at h
  rw [get_bind] at h
  simp only [ofExcept_bind_ok, rejectInvalid_bind_ok] at h
  obtain ⟨passport, -, limit, -, selection, -, hvalid, now, -, h⟩ := h
  obtain ⟨packed, t, hpacked, h⟩ := EStateM.bind_eq_ok.1 h
  simp only [ofExcept_bind_ok, get_bind] at h
  obtain ⟨receipts, -, h⟩ := h
  obtain ⟨rfl, rfl⟩ := pure_ok.1 h
  have hlive : ∀ a ∈ selection.1, Live v a ∧ isActive (v.memories.get a) = true := by
    intro a ha
    exact selectionErrors_eq_nil.1 (List.flatMap_eq_nil_iff.1 hvalid a ha)
  exact ⟨packMemories_steps _ _ _ _ (fun a ha => (hlive a ha).1) hpacked, hlive⟩

/-- A pack lists the addresses that were selected. -/
theorem compileContextPack_selection {env : Ambient} {args : PackArgs} {pack : ContextPack}
    (h : compileContextPack P env args v = .ok pack v') : ∃ limit, packLimit P args = .ok limit ∧
      packSelection args v limit = .ok (pack.memory_addresses, pack.optimization_plan) := by
  unfold compileContextPack at h
  rw [get_bind] at h
  simp only [ofExcept_bind_ok, rejectInvalid_bind_ok] at h
  obtain ⟨passport, -, limit, hlimit, selection, hselection, -, now, -, h⟩ := h
  obtain ⟨packed, t, -, h⟩ := EStateM.bind_eq_ok.1 h
  simp only [ofExcept_bind_ok, get_bind] at h
  obtain ⟨receipts, -, h⟩ := h
  obtain ⟨rfl, -⟩ := pure_ok.1 h
  exact ⟨limit, hlimit, hselection⟩

/-! ## All calls -/

/-- **A successful call is one step, or it is a pack and appends events.** -/
theorem call_steps {c : Call} (h : stepCall P v c = some v') :
    (∃ ch f, Step P v ch f v' ∧ (c.Fresh P v ↔ ch.Fresh v) ∧ (c.Plain ↔ ch.Plain f)) ∨
      (c.Fresh P v ∧ c.Plain ∧ ReflTransGen (GoodStep P) v v') := by
  obtain ⟨u, h⟩ := stepCall_eq_some.1 h
  cases c with
  | remember env args =>
    obtain ⟨r, h⟩ := discard_ok.1 h
    obtain ⟨content, record, f, -, hstep, -⟩ := remember_step h
    exact .inl ⟨_, f, hstep, Iff.rfl, Iff.rfl⟩
  | recallMemory env args =>
    obtain ⟨r, h⟩ := discard_ok.1 h
    obtain ⟨addr, f, hstep, -, -, -, hop⟩ := recall_step h
    refine .inl ⟨_, f, hstep, Iff.rfl, ?_⟩
    rw [Call.Plain, Change.Plain, hop]
    rcases args.operation with - | j
    · simp [withDefault, Json.orElse]
    · cases j <;> simp [withDefault, Json.orElse]
  | updateMemory env args =>
    obtain ⟨r, h⟩ := discard_ok.1 h
    obtain ⟨old, new, f, oldRecord, newRecord, tombstone, hstep, hargs, htarget, -⟩ := updateMemory_step h
    refine .inl ⟨_, f, hstep, ?_, Iff.rfl⟩
    rw [Call.Fresh, Change.Fresh, hargs, htarget]
    simp
  | deleteMemory env args =>
    obtain ⟨r, h⟩ := discard_ok.1 h
    obtain ⟨addr, f, record, tombstone, hstep, -⟩ := deleteMemory_step h
    exact .inl ⟨_, f, hstep, Iff.rfl, Iff.rfl⟩
  | compileContextPack env args =>
    obtain ⟨r, h⟩ := discard_ok.1 h
    exact .inr ⟨trivial, trivial, (compileContextPack_steps h).1⟩
  | exportBundle env args =>
    obtain ⟨r, h⟩ := discard_ok.1 h
    obtain ⟨f, hstep, hop⟩ := exportBundle_step h
    exact .inl ⟨_, f, hstep, Iff.rfl, iff_of_true trivial (by simp [Change.Plain, hop])⟩

/-- Every successful call is a sequence of steps. -/
theorem call_anySteps {c : Call} (h : stepCall P v c = some v') : ReflTransGen (AnyStep P) v v' := by
  rcases call_steps h with ⟨ch, f, hstep, -⟩ | ⟨-, -, hsteps⟩
  · exact .single ⟨ch, f, hstep⟩
  · have hle : GoodStep P ≤ AnyStep P := by
      rintro x y ⟨ch, f, hstep, -⟩
      exact ⟨ch, f, hstep⟩
    exact ReflTransGen.mono hle _ _ hsteps

theorem call_goodSteps {c : Call} (h : stepCall P v c = some v') (hfresh : c.Fresh P v) (hplain : c.Plain) :
    ReflTransGen (GoodStep P) v v' := by
  rcases call_steps h with ⟨ch, f, hstep, hf, hp⟩ | ⟨-, -, hsteps⟩
  · exact .single ⟨ch, f, hstep, hf.1 hfresh, hp.1 hplain⟩
  · exact hsteps

end EnigmaMemory
