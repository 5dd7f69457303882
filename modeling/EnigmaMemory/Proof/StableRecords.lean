import EnigmaMemory.Proof.Filed
import EnigmaMemory.Proof.SanitizeTwice

/-!
# Records through updates, exports and imports

A record is steady when sanitizing it again changes nothing. The record of a new memory is
steady, with its references as stored, exactly when no string of the references it was
given is left to hash. Every later write keeps a steady record steady, so a vault of such
memories exports the same objects after any number of imports.
-/

namespace EnigmaMemory

open Json
open Relation (ReflTransGen)

variable {P : Platform} {F : NumberFormat} {v v' w : Vault}

/-! ## Fields written to a record -/

theorem setField_setField (k : JsString) (x y : Json) (fs : List (JsString × Json)) :
    setField k x (setField k y fs) = setField k x fs := by
  induction fs with
  | nil => simp [setField]
  | cons f fs ih =>
    by_cases hf : f.1 = k
    · simp [setField, hf]
    · simp [setField, hf, ih]

/-- A field that is written before and after another one. -/
theorem set_set_comm (j : Json) {k l : JsString} (hkl : k ≠ l) (x y z : Json) :
    ((j.set k y).set l z).set k x = (j.set k x).set l z := by
  have hset : ∀ fs : List (JsString × Json),
      setField k x (setField l z (setField k y fs)) = setField l z (setField k x fs) := by
    intro fs
    induction fs with
    | nil => simp [setField, hkl]
    | cons f fs ih =>
      by_cases hf : f.1 = k
      · simp [setField, hf, hkl]
      · by_cases hl : f.1 = l
        · simp [setField, hl, hkl.symm, setField_setField]
        · simp [setField, hf, hl, ih]
  simp only [Json.set, Json.fields]
  rw [hset]

/-- A public field written before the others are sanitized. -/
theorem sanitizePublicFields_set {k : JsString} (hk : isPublicField k = true) (x y : Json) (fs : List (JsString × Json)) :
    ∀ out : Json, k ∉ fs.map Prod.fst →
      (sanitizePublicFields F (out.set k y) fs).set k x = sanitizePublicFields F (out.set k x) fs := by
  simp only [isPublicField, Bool.and_eq_true, decide_eq_true_eq, List.mem_cons, List.not_mem_nil, or_false, not_or] at hk
  obtain ⟨-, hmeta, hrefs, -⟩ := hk
  induction fs with
  | nil =>
    intro out _
    rw [sanitizePublicFields, sanitizePublicFields]
    simp only [Json.set, Json.fields, setField_setField]
  | cons f fs ih =>
    obtain ⟨l, item⟩ := f
    intro out hnot
    rw [List.map_cons, List.mem_cons, not_or] at hnot
    -- every other field is written under a key of its own
    have hwrite : ∀ (key : JsString) (z : Json), k ≠ key →
        (sanitizePublicFields F ((out.set k y).set key z) fs).set k x = sanitizePublicFields F ((out.set k x).set key z) fs := by
      intro key z hne
      have hself := set_set_comm out hne y y z
      rw [← hself, ih _ hnot.2, set_set_comm out hne x y z]
    rw [sanitizePublicFields, sanitizePublicFields]
    split_ifs
    · exact ih out hnot.2
    · exact hwrite _ _ hmeta
    · exact hwrite _ _ hrefs
    · exact hwrite _ _ hnot.1

theorem publicRecord_set {k : JsString} (hk : isPublicField k = true) (x : Json) {fs : List (JsString × Json)}
    (hn : (fs.map Prod.fst).Nodup) :
    publicRecord F ((Json.obj fs).set k x) = (publicRecord F (.obj fs)).set k (sanitizePublicValue F x) := by
  have hstep : ∀ (item out : Json) (fs : List (JsString × Json)),
      sanitizePublicFields F out ((k, item) :: fs) = sanitizePublicFields F (out.set k (sanitizePublicValue F item)) fs := by
    intro item out fs
    simp only [isPublicField, Bool.and_eq_true, Bool.not_eq_true', decide_eq_true_eq, List.mem_cons, List.not_mem_nil,
      or_false, not_or] at hk
    obtain ⟨hplain, hmeta, hrefs, hrefs'⟩ := hk
    rw [sanitizePublicFields, if_neg (by simp [hplain]), if_neg hmeta, if_neg (by simp [hrefs, hrefs'])]
  have hfields : ∀ (fs : List (JsString × Json)) (out : Json), (fs.map Prod.fst).Nodup →
      sanitizePublicFields F out (setField k x fs) = (sanitizePublicFields F out fs).set k (sanitizePublicValue F x) := by
    intro fs
    induction fs with
    | nil =>
      intro out _
      rw [setField, hstep, sanitizePublicFields, sanitizePublicFields]
    | cons f fs ih =>
      obtain ⟨l, item⟩ := f
      intro out hn
      rw [List.map_cons, List.nodup_cons] at hn
      rw [setField]
      split
      · rename_i hl
        have hl' : l = k := hl
        subst hl'
        rw [hstep, hstep, sanitizePublicFields_set hk _ _ fs out hn.1]
      · rw [sanitizePublicFields, sanitizePublicFields]
        split_ifs
        · exact ih _ hn.2
        · exact ih _ hn.2
        · exact ih _ hn.2
        · exact ih _ hn.2
  rw [publicRecord, publicRecord, Json.set, Json.fields, sanitizePublicValue, sanitizePublicValue, hfields fs _ hn]

/-! ## Steady records -/

/-- A record that sanitizing again does not change any more. -/
def Steady (F : NumberFormat) (r : Json) : Prop := publicRecord F (publicRecord F r) = publicRecord F r

theorem Steady.publicRecord {r : Json} (h : Steady F r) : Steady F (publicRecord F r) := by
  unfold Steady at h ⊢
  rw [h, h]

theorem exists_fields {r : Json} {key : JsString} {x : Json} (h : r.get key = some x) : ∃ fs, r = .obj fs := by
  cases r with
  | obj fs => exact ⟨fs, rfl⟩
  | _ => cases h

/-- A record as the store has it: an object whose keys differ. -/
def IsObject (r : Json) : Prop := ∃ fs, r = .obj fs ∧ (fs.map Prod.fst).Nodup

theorem IsObject.set {r : Json} (h : IsObject r) (k : JsString) (x : Json) : IsObject (r.set k x) := by
  obtain ⟨fs, rfl, hn⟩ := h
  exact ⟨_, rfl, Json.nodup_set (j := .obj fs) hn⟩

theorem isObject_publicRecord {r : Json} (h : IsObject r) : IsObject (publicRecord F r) := by
  obtain ⟨fs, rfl, -⟩ := h
  have hplain := isPlainRecord_sanitizePublicFields (F := F) fs (.obj []) rfl
  have hn := nodup_sanitizePublicFields F fs (.obj []) List.nodup_nil
  rw [publicRecord, sanitizePublicValue]
  cases hs : sanitizePublicFields F (.obj []) fs with
  | obj out => exact ⟨out, rfl, by rw [hs] at hn; exact hn⟩
  | _ => rw [hs] at hplain; cases hplain

theorem IsRecord.isObject {a : JsString} {state : String} {r : Json} (h : IsRecord a state r) : IsObject r := by
  obtain ⟨fs, rfl⟩ := exists_fields h.addr
  exact ⟨fs, rfl, h.nodup⟩

/-- **A steady record stays steady when a stable value is written to a public field.** -/
theorem Steady.set {r : Json} (hr : IsObject r) (h : Steady F r) {k : JsString} (hk : isPublicField k = true) {x : Json}
    (hx : sanitizePublicValue F (sanitizePublicValue F x) = sanitizePublicValue F x) : Steady F (r.set k x) := by
  obtain ⟨out, hout, hn'⟩ := isObject_publicRecord (F := F) hr
  obtain ⟨fs, rfl, hn⟩ := hr
  unfold Steady at h ⊢
  rw [publicRecord_set hk x hn, hout, publicRecord_set hk _ hn', ← hout, h, hx]

/-! ## New memories -/

/-- The values that `remember` stores as they come. -/
def storedValues (v : Vault) (env : Ambient) (args : RememberArgs) : List Json :=
  [withDefault args.memory_id (.str (js "mem_" ++ env.uuid 0)), withDefault args.subject_id v.subject_id,
    withDefault args.kind (.str (js "fact")), withDefault args.confidence (.str (js "user_confirmed")),
    withDefault args.sensitivity (.str (js "normal")),
    (match args.purpose_tags with | some (.arr xs) => .arr xs | _ => .arr []),
    withDefault args.retention (.str (js "durable"))]

/-- No string of the references that come with a new memory is left to hash. -/
def HashedOnce (P : Platform) (v : Vault) (env : Ambient) (args : RememberArgs) : Prop :=
  args.source_refs.all (refsOnce P.toNumberFormat) = true ∧ ∀ x ∈ storedValues v env args, stable P.toNumberFormat x = true

theorem stable_encryptContent (v : Vault) (iv : Bytes) (addr text : JsString) :
    stable F (encryptContent P v iv addr text) = true := by
  simp [encryptContent, stable, stableFields, lastRefs, isRefsKey]

theorem importance_num (value : Option Json) : ∀ x ∈ normalizeImportance P value, ∃ q, x = .num q := by
  intro x hx
  unfold normalizeImportance at hx
  split at hx
  · cases hx
  · cases hx
  · rw [Option.mem_map] at hx
    obtain ⟨q, -, rfl⟩ := hx
    exact ⟨_, rfl⟩

theorem stableFields_append (fs gs : List (JsString × Json)) :
    stableFields F (fs ++ gs) = (stableFields F fs && stableFields F gs) := by
  rw [stableFields_eq, stableFields_eq, stableFields_eq, List.all_append]

theorem lastRefs_append (fs gs : List (JsString × Json)) : lastRefs (fs ++ gs) = (lastRefs gs).or (lastRefs fs) := by
  induction fs with
  | nil => simp [lastRefs]
  | cons f fs ih => rw [List.cons_append, lastRefs, ih, lastRefs, Option.or_assoc]

theorem lastRefs_rememberedRecord (v : Vault) (env : Ambient) (args : RememberArgs) (content : Json) (createdAt : JsString) :
    lastRefs (rememberedRecord P v env args content createdAt).fields =
      some (.arr (sanitizeSourceRefs P.toNumberFormat publicPlaintextKeys args.source_refs)) := by
  have himportance : lastRefs (Json.field (js "importance") (normalizeImportance P args.importance)) = none := by
    cases normalizeImportance P args.importance with
    | none => rfl
    | some x => simp [Json.field, lastRefs, isRefsKey]
  rw [rememberedRecord, memoryRecord, Json.fields, lastRefs_append, lastRefs_append, himportance]
  simp [lastRefs, isRefsKey]

theorem isRecord_rememberedRecord (v : Vault) (env : Ambient) (args : RememberArgs) (content : Json) (createdAt : JsString) :
    IsRecord (rememberTarget P v env args content) "active" (rememberedRecord P v env args content createdAt) :=
  isRecord_memoryRecord ..

/-- The stored references, and what is asked of the other values. -/
theorem stable_rememberedRecord (v : Vault) (env : Ambient) (args : RememberArgs) (content : Json) (createdAt : JsString) :
    stable P.toNumberFormat (rememberedRecord P v env args content createdAt) = true ↔
      refsOnce P.toNumberFormat (.arr (sanitizeSourceRefs P.toNumberFormat publicPlaintextKeys args.source_refs)) = true ∧
        ∀ x ∈ storedValues v env args, stable P.toNumberFormat x = true := by
  have himportance : stableFields P.toNumberFormat (Json.field (js "importance") (normalizeImportance P args.importance)) = true := by
    cases himp : normalizeImportance P args.importance with
    | none => rfl
    | some x =>
      obtain ⟨q, rfl⟩ := importance_num args.importance x himp
      simp [Json.field, stableFields, stable]
  have hpublic : isPublicField (js "memory_id") = true ∧ isPublicField (js "subject_id") = true ∧
      isPublicField (js "kind") = true ∧ isPublicField (js "confidence") = true ∧ isPublicField (js "sensitivity") = true ∧
      isPublicField (js "purpose_tags") = true ∧ isPublicField (js "retention") = true := by decide
  have hprivate : isPublicField (js "source_refs") = false ∧ isPublicField (js "metadata") = false := by decide
  have hstr : ∀ s, stable P.toNumberFormat (.str s) = true := fun s => rfl
  have hlast := lastRefs_rememberedRecord (P := P) v env args content createdAt
  rw [rememberedRecord, memoryRecord, Json.fields] at hlast
  rw [rememberedRecord, memoryRecord, stable, hlast, stableFields_append, stableFields_append, himportance, Option.all_some]
  simp only [stableFields, hpublic, hprivate, hstr, stable_encryptContent]
  simp [storedValues]
  tauto

/-- The stored values are values of the language: no object has a key twice. -/
def UniqueValues (v : Vault) (env : Ambient) (args : RememberArgs) : Prop := ∀ x ∈ storedValues v env args, x.UniqueKeys

theorem uniqueKeys_strings {fs : List (JsString × Json)} (hn : (fs.map Prod.fst).Nodup) (h : ∀ f ∈ fs, ∃ s, f.2 = .str s) :
    (Json.obj fs).UniqueKeys := by
  refine .obj hn fun f hf => ?_
  obtain ⟨s, hs⟩ := h f hf
  rw [hs]
  exact .str s

theorem uniqueKeys_encryptContent (v : Vault) (iv : Bytes) (addr text : JsString) :
    (encryptContent P v iv addr text).UniqueKeys := by
  refine uniqueKeys_strings (by simp) fun f hf => ?_
  simp only [List.mem_cons, List.not_mem_nil, or_false] at hf
  rcases hf with rfl | rfl | rfl | rfl | rfl <;> exact ⟨_, rfl⟩

theorem rememberedRecord_steady_iff {env : Ambient} {args : RememberArgs} (hj : UniqueValues v env args) (content : Json)
    (createdAt : JsString) : Steady P.toNumberFormat (rememberedRecord P v env args content createdAt) ↔
      stable P.toNumberFormat (rememberedRecord P v env args content createdAt) = true := by
  refine sanitizePublicFields_twice_iff (isRecord_rememberedRecord v env args content createdAt).nodup fun f hf hpublic => sanitize_twice_iff ?_
  have hprivate : ¬ isPublicField (js "source_refs") = true ∧ ¬ isPublicField (js "metadata") = true := by decide
  simp only [UniqueValues, storedValues, List.forall_mem_cons] at hj
  obtain ⟨hmemory, hsubject, hkind, hconfidence, hsensitivity, htags, hretention, -⟩ := hj
  simp only [List.mem_append, List.mem_cons, List.not_mem_nil, or_false] at hf
  rcases hf with ((rfl | rfl | rfl | rfl | rfl | rfl | rfl | rfl | rfl | rfl | rfl | rfl | rfl) | hf) | rfl | rfl | rfl | rfl
  · exact .str _
  · exact hmemory
  · exact .str _
  · exact hsubject
  · exact hkind
  · exact uniqueKeys_encryptContent ..
  · exact .str _
  · exact .str _
  · exact absurd hpublic hprivate.1
  · exact hconfidence
  · exact hsensitivity
  · exact htags
  · exact hretention
  · cases himp : normalizeImportance P args.importance with
    | none => rw [himp] at hf; cases hf
    | some x =>
      rw [himp] at hf
      obtain rfl := List.mem_singleton.1 hf
      obtain ⟨q, rfl⟩ := importance_num args.importance x himp
      exact .num q
  · exact .str _
  · exact absurd hpublic hprivate.2
  · exact .str _
  · exact .str _

/-- **The record of a new memory is steady, and keeps its references and metadata, exactly
when no string of its references is left to hash.** -/
theorem rememberedRecord_kept_iff {env : Ambient} {args : RememberArgs} (hj : UniqueValues v env args) (content : Json)
    (createdAt : JsString) {record : Json} (hr : rememberedRecord P v env args content createdAt = record) :
    (Steady P.toNumberFormat record ∧
      (publicRecord P.toNumberFormat record).get (js "source_refs") = record.get (js "source_refs") ∧
      (publicRecord P.toNumberFormat record).get (js "metadata") = record.get (js "metadata")) ↔ HashedOnce P v env args := by
  have hsteady := rememberedRecord_steady_iff (P := P) hj content createdAt
  rw [stable_rememberedRecord, hr] at hsteady
  obtain ⟨refs, hrefs⟩ : ∃ refs, sanitizeSourceRefs P.toNumberFormat publicPlaintextKeys args.source_refs = refs := ⟨_, rfl⟩
  have honce : args.source_refs.all (refsOnce P.toNumberFormat) = refs.all settledRef := by
    rw [← hrefs]
    cases args.source_refs with
    | none => rfl
    | some j => rw [Option.all_some, settledRef_eq_refsOnce]
  have hself := sanitizeSourceRefs_eq_self (F := P.toNumberFormat) refs
  have hlast := lastRefs_rememberedRecord (P := P) v env args content createdAt
  have hn := (isRecord_rememberedRecord (P := P) v env args content createdAt).nodup
  rw [hr] at hlast hn
  obtain ⟨fs, rfl⟩ : ∃ fs, record = .obj fs := ⟨_, hr.symm⟩
  have hmeta : (Json.obj fs).get (js "metadata") = some (metadata P.toNumberFormat args.metadata) := by
    rw [← hr, rememberedRecord, memoryRecord, Json.get_obj_append, Json.get_obj_append]
    simp
  have hstored : (Json.obj fs).get (js "source_refs") = some (.arr refs) := by
    rw [← hr, rememberedRecord, memoryRecord, hrefs]
    simp
  have hrefs' : (publicRecord P.toNumberFormat (.obj fs)).get (js "source_refs") =
      some (.arr (sanitizeSourceRefs P.toNumberFormat publicPlaintextKeys (some (.arr refs)))) := by
    rw [publicRecord, sanitizePublicValue, get_refs_sanitized]
    rw [Json.fields] at hlast
    rw [hlast, hrefs]
    rfl
  have hmeta' : (publicRecord P.toNumberFormat (.obj fs)).get (js "metadata") = some (metadata P.toNumberFormat args.metadata) := by
    rw [publicRecord, sanitizePublicValue, get_metadata_sanitized fs _ hn, hmeta, Option.map_some, metadata_twice]
    rfl
  rw [hsteady, hrefs', hmeta', hstored, hmeta, hrefs, Option.some.injEq, Json.arr.injEq, hself, HashedOnce, honce,
    ← settledRef_eq_refsOnce]
  constructor
  · rintro ⟨⟨-, hvalues⟩, hsettled, -⟩
    exact ⟨hsettled, hvalues⟩
  · rintro ⟨hsettled, hvalues⟩
    exact ⟨⟨by rw [hself.2 hsettled, hsettled], hvalues⟩, hsettled, rfl⟩

/-- The record that a successful `remember` leaves in the store. -/
theorem remember_record {env : Ambient} {args : RememberArgs} {stored : Stored} (h : remember P env args v = .ok stored v') :
    ∃ content createdAt, args.content = some content ∧
      v'.memories.get stored.memory_addr = some (rememberedRecord P v env args content createdAt) := by
  obtain ⟨ch, hw, hs, content, hcontent, haddr⟩ := remember_writes h
  cases hw with
  | @remember _ _ content' createdAt hcontent' _ _ =>
    obtain rfl : content' = content := Option.some.inj (hcontent'.symm.trans hcontent)
    refine ⟨content', createdAt, hcontent', ?_⟩
    rw [hs.memories, haddr]
    exact (OrdMap.get_set (m := v.memories)).trans (if_pos rfl)

theorem remember_stepCall {env : Ambient} {args : RememberArgs} {stored : Stored} (h : remember P env args v = .ok stored v') :
    stepCall P v (.remember env args) = some v' :=
  stepCall_eq_some.2 ⟨(), discard_ok.2 ⟨stored, h⟩⟩

/-! ## Runs -/

/-- The new memory of a call, if there is one, is hashed once. -/
def Call.HashedOnce (P : Platform) (v : Vault) : Call → Prop
  | .remember env args => UniqueValues v env args ∧ EnigmaMemory.HashedOnce P v env args
  | _ => True

/-- A successful operation whose new memory is hashed once. -/
inductive OnceMove (P : Platform) : Vault → Vault → Prop
  | call {v v' : Vault} {c : Call} : c.HashedOnce P v → stepCall P v c = some v' → OnceMove P v v'
  | transfer {v v' : Vault} {env env' : Ambient} {args : ExportArgs} {args' : ImportArgs} {bundle : Bundle}
      {imported : Imported} : exportBundle P env args v = .ok bundle v' →
      importBundle P env' args' bundle = .ok imported → OnceMove P v imported.vault

/-- An export and its import. -/
def RoundTrip (P : Platform) (v w : Vault) : Prop := ∃ env args bundle v' env' args' imported,
  exportBundle P env args v = .ok bundle v' ∧ importBundle P env' args' bundle = .ok imported ∧ imported.vault = w

/-- Every record is filed and steady. -/
structure SteadyVault (P : Platform) (v : Vault) : Prop where
  filed : Filed v
  steady : ∀ a r, v.memories.get a = some r → Steady P.toNumberFormat r

theorem SteadyVault.isObject (h : SteadyVault P v) {a : JsString} {r : Json} (hr : v.memories.get a = some r) : IsObject r := by
  obtain ⟨fate, hrecord, -⟩ := h.filed.record a r hr
  exact hrecord.isObject

theorem sanitize_str (s : JsString) : sanitizePublicValue F (sanitizePublicValue F (.str s)) = sanitizePublicValue F (.str s) := rfl

theorem steady_retouch {r : Json} (hr : IsObject r) (h : Steady F r) (state : String) (now : JsString) :
    Steady F (retouch r state now) ∧ IsObject (retouch r state now) := by
  have hstate := h.set hr (by decide : isPublicField (js "state") = true) (sanitize_str (js state))
  have hobj := hr.set (js "state") (.str (js state))
  exact ⟨hstate.set hobj (by decide : isPublicField (js "updated_at") = true) (sanitize_str now), hobj.set _ _⟩

/-- Stable values written one after the other. -/
theorem steady_spread {r : Json} (hr : IsObject r) (h : Steady F r) (fs : List (JsString × Json))
    (hfs : ∀ f ∈ fs, isPublicField f.1 = true ∧
      sanitizePublicValue F (sanitizePublicValue F f.2) = sanitizePublicValue F f.2) : Steady F (r.spread (.obj fs)) := by
  obtain ⟨gs, rfl, hn⟩ := hr
  rw [Json.spread, Json.fields, Json.fields]
  have hr : IsObject (.obj gs) := ⟨gs, rfl, hn⟩
  revert h hr
  generalize Json.obj gs = r
  induction fs generalizing r with
  | nil => exact fun h _ => h
  | cons f fs ih =>
    intro h hr
    rw [List.forall_mem_cons] at hfs
    exact ih hfs.2 _ (h.set hr hfs.1.1 hfs.1.2) (hr.set _ _)

theorem steady_updatedRecord {r : Json} (hr : IsObject r) (h : Steady P.toNumberFormat r) (v : Vault) (iv : Bytes)
    (newAddr plaintext contentHash updatedAt : JsString) :
    Steady P.toNumberFormat (updatedRecord P v iv r newAddr plaintext contentHash updatedAt) := by
  have hkeys : ∀ k ∈ [js "memory_addr", js "content_ciphertext", js "content_hash", js "content_commitment", js "state",
      js "updated_at"], isPublicField k = true := by decide
  simp only [List.forall_mem_cons] at hkeys
  refine steady_spread (isObject_publicRecord hr) h.publicRecord _ ?_
  simp only [List.forall_mem_cons]
  refine ⟨⟨hkeys.1, sanitize_str _⟩, ⟨hkeys.2.1, ?_⟩, ⟨hkeys.2.2.1, sanitize_str _⟩, ⟨hkeys.2.2.2.1, sanitize_str _⟩,
    ⟨hkeys.2.2.2.2.1, sanitize_str _⟩, ⟨hkeys.2.2.2.2.2.1, sanitize_str _⟩, by simp⟩
  exact (sanitize_twice_iff (uniqueKeys_encryptContent ..)).2 (stable_encryptContent ..)

/-- **A call whose new memory is hashed once keeps every record steady.** -/
theorem writes_steady {c : Call} {ch : Change} (h : SteadyVault P v) (hc : c.HashedOnce P v) (hw : Writes P v c ch) :
    ∀ a r, (ch.apply v).memories.get a = some r → Steady P.toNumberFormat r := by
  cases hw with
  | recallMemory | compileContextPack | exportBundle => exact h.steady
  | @remember env args content createdAt hcontent hne hfree =>
    intro a r hr
    rw [Change.apply, OrdMap.get_set] at hr
    split at hr
    · cases hr
      exact ((rememberedRecord_kept_iff hc.1 content createdAt rfl).2 hc.2).1
    · exact h.steady a r hr
  | @updateMemory env args old record content first now hargs hne hcontent hlive hget =>
    intro a r hr
    have hold := steady_retouch (h.isObject hget) (h.steady old record hget) "superseded" first
    rw [Change.apply, OrdMap.get_set] at hr
    split at hr
    · cases hr
      exact steady_updatedRecord hold.2 hold.1 ..
    · rw [OrdMap.get_set] at hr
      split at hr
      · cases hr
        exact hold.1
      · exact h.steady a r hr
  | @deleteMemory env args addr first now hargs hne hlive =>
    intro a r hr
    cases hget : v.memories.get addr with
    | none =>
      rw [hget] at hr
      exact h.steady a r hr
    | some record =>
      rw [hget] at hr
      have hr' : (v.memories.set addr (retouch record "tombstoned" first)).get a = some r := hr
      rw [OrdMap.get_set] at hr'
      split at hr'
      · cases hr'
        exact (steady_retouch (h.isObject hget) (h.steady addr record hget) "tombstoned" first).1
      · exact h.steady a r hr'

/-- An import gives the exported records back. -/
theorem Transferred.memories_steady (h : SteadyVault P v) (ht : Transferred P v w) : w.memories.entries =
    v.memories.entries.map fun e => (e.1, publicRecord P.toNumberFormat e.2) := by
  rw [ht.memories]
  refine List.map_congr_left fun e he => ?_
  have hsteady := h.steady e.1 e.2 (OrdMap.get_eq_some_iff.2 he)
  rw [Steady] at hsteady
  rw [hsteady]

theorem transfer_steady (h : SteadyVault P v) (ht : Transferred P v w) : SteadyVault P w where
  filed := transfer_filed h.filed ht
  steady a r hr := by
    rw [OrdMap.get_eq_some_iff, ht.memories_steady h, List.mem_map] at hr
    obtain ⟨⟨b, r₀⟩, hr₀, he⟩ := hr
    obtain ⟨rfl, rfl⟩ := Prod.mk.inj he
    exact (h.steady b r₀ (OrdMap.get_eq_some_iff.2 hr₀)).publicRecord

theorem onceMove_steady (h : SteadyVault P v) (hm : OnceMove P v w) : SteadyVault P w := by
  cases hm with
  | call hc hstep =>
    obtain ⟨ch, hw, hs⟩ := call_writes hstep
    refine ⟨stepCall_filed h.filed hstep, fun a r hr => writes_steady h hc hw a r ?_⟩
    rwa [hs.memories] at hr
  | transfer hexport himport => exact transfer_steady h (transfer_transferred h.filed hexport himport)

theorem Created.steady {env : Ambient} {args : CreateArgs} (h : createVault P env args = .ok v) : SteadyVault P v where
  filed := (createVault_created h).filed (createVault_quarantine h)
  steady a r hr := by simp [(createVault_created h).memories] at hr

theorem moves_steady {env : Ambient} {args : CreateArgs} {v₀ : Vault} (hcreated : createVault P env args = .ok v₀)
    (hmoves : ReflTransGen (OnceMove P) v₀ v) : SteadyVault P v := by
  induction hmoves with
  | refl => exact Created.steady hcreated
  | tail _ hmove ih => exact onceMove_steady ih hmove

theorem RoundTrip.transferred (h : Filed v) (hr : RoundTrip P v w) : Transferred P v w := by
  obtain ⟨env, args, bundle, v', env', args', imported, hexport, himport, rfl⟩ := hr
  exact transfer_transferred h hexport himport

/-- The objects that a vault exports. -/
theorem exported_objects {env : Ambient} {args : ExportArgs} {bundle : Bundle} (h : exportBundle P env args v = .ok bundle v') :
    bundle.memory_objects = v.memories.values.map (publicRecord P.toNumberFormat) := by
  obtain ⟨⟨e, rfl⟩, hb⟩ := exportBundle_exports h
  exact hb.memory_objects

/-- **Round trips do not change the exported objects of a steady vault.** -/
theorem roundTrips_objects (h : SteadyVault P v) (hr : ReflTransGen (RoundTrip P) v w) :
    SteadyVault P w ∧ w.memories.values.map (publicRecord P.toNumberFormat) =
      v.memories.values.map (publicRecord P.toNumberFormat) := by
  induction hr with
  | refl => exact ⟨h, rfl⟩
  | tail _ hstep ih =>
    have ht := hstep.transferred ih.1.filed
    refine ⟨transfer_steady ih.1 ht, ?_⟩
    rw [← ih.2, OrdMap.values, ht.memories_steady ih.1, OrdMap.values, List.map_map, List.map_map, List.map_map]
    refine List.map_congr_left fun e he => ?_
    exact ih.1.steady e.1 e.2 (OrdMap.get_eq_some_iff.2 he)

/-- A memory with given references, exported, imported and exported again. -/
theorem exported_twice (refs : Option Json) : ∃ v₀ v stored b v' imported b' w', createVault reference referenceEnv {} = .ok v₀ ∧
    remember reference referenceEnv { content := some tea, source_refs := refs } v₀ = .ok stored v ∧
    exportBundle reference referenceEnv {} v = .ok b v' ∧ importBundle reference referenceEnv {} b = .ok imported ∧
    exportBundle reference referenceEnv {} imported.vault = .ok b' w' := by
  obtain ⟨v₀, v₁, addr, hfirst⟩ := firstMemory
  have hnew := createVault_created hfirst.created
  have hok : Succeeds (remember reference referenceEnv { content := some tea, source_refs := refs }) v₀ := by
    refine remember_ok hfirst.signer₀ rfl tea_ne_null trivial ?_ hfirst.writable.subject_id hfirst.writable.policy_id
    rw [hnew.tombstones]
    rfl
  obtain ⟨stored, v, hr⟩ := hok
  have hstep := remember_stepCall hr
  have hrun : Run.run (stepCall reference) v₀ [.remember referenceEnv { content := some tea, source_refs := refs }] = some v := by
    rw [Run.run, hstep]
    rfl
  have hgrows := run_grows hrun
  obtain ⟨m, htracks⟩ := run_tracks ⟨_, hnew.tracks⟩ hrun (by
    rw [Run.all_cons hstep]
    exact ⟨⟨trivial, trivial⟩, Run.All.nil _ _⟩)
  have hexport : Succeeds (exportBundle reference referenceEnv {}) v :=
    exportBundle_ok (hgrows.signer_ok hfirst.signer₀) (hfirst.writable.of_grows hgrows)
  obtain ⟨b, v', hb⟩ := hexport
  obtain ⟨-, hexports⟩ := exportBundle_exports hb
  have hgrows' : Grows v₀ v' := by
    have h := exportBundle_grows (P := reference) referenceEnv {} v
    rw [EStateM.after, hb] at h
    exact hgrows.trans _ _ _ h
  obtain ⟨imported, himp, hsigner, hwritable⟩ : ∃ imported, importBundle reference referenceEnv {} b = .ok imported ∧
      Signer reference Reference.privateKey imported.vault ∧ Writable reference imported.vault none .absent := by
    obtain ⟨imported, himp, -, -, h⟩ := importBundle_export referenceEnv {} (export_tracks htracks hb) hexports
      (hgrows'.signer_ok hfirst.signer₀) (by decide +kernel) (hgrows'.portable hnew.portable)
      (hfirst.writable.of_grows hgrows')
    exact ⟨imported, himp, h⟩
  have hagain : Succeeds (exportBundle reference referenceEnv {}) imported.vault := exportBundle_ok hsigner hwritable
  obtain ⟨b', w', hb'⟩ := hagain
  exact ⟨v₀, v, stored, b, v', imported, b', w', hfirst.created, hr, hb, himp, hb'⟩

theorem storedValues_tea {v₀ : Vault} (h : createVault reference referenceEnv {} = .ok v₀) (refs : Option Json) :
    ∀ x ∈ storedValues v₀ referenceEnv { content := some tea, source_refs := refs },
      x.UniqueKeys ∧ stable reference.toNumberFormat x = true := by
  have hsubject : withDefault none v₀.subject_id = .str (js "local-subject") := by
    rw [(createVault_created h).subject_id]
    rfl
  have hstr : ∀ s, (Json.str s).UniqueKeys ∧ stable reference.toNumberFormat (.str s) = true := fun s => ⟨.str s, rfl⟩
  simp only [storedValues, List.forall_mem_cons]
  refine ⟨hstr _, ?_, hstr _, hstr _, hstr _, ⟨.arr (by simp), rfl⟩, hstr _, by simp⟩
  rw [hsubject]
  exact hstr _

theorem lastRefs_clean {fs : List (JsString × Json)} (hn : (fs.map Prod.fst).Nodup) (h : ∀ f ∈ fs, isCleanKey f.1 = true) :
    lastRefs fs = (Json.obj fs).get (js "source_refs") := by
  induction fs with
  | nil => rfl
  | cons f fs ih =>
    obtain ⟨key, item⟩ := f
    rw [List.map_cons, List.nodup_cons] at hn
    rw [List.forall_mem_cons] at h
    have hother : key ≠ js "sourceRefs" := by
      have hkey := h.1
      rw [isCleanKey, Bool.and_eq_true, decide_eq_true_eq] at hkey
      exact hkey.2
    rw [lastRefs, ih hn.2 h.2, get_obj_cons]
    by_cases hkey : key = js "source_refs"
    · have hnone : (Json.obj fs).get (js "source_refs") = none := by
        rw [← hkey]
        exact List.lookup_eq_none_iff.2 fun p hp => bne_iff_ne.2 fun h => hn.1 (List.mem_map.2 ⟨p, hp, h.symm⟩)
      simp [isRefsKey, hkey, hnone]
    · rw [if_neg (Ne.symm hkey)]
      simp [isRefsKey, hkey, hother]

/-- The references of a record after one more sanitizing. -/
theorem get_refs_publicRecord {fs : List (JsString × Json)} {refs : Json} (h : lastRefs fs = some refs) {r : Json}
    (hr : publicRecord F (.obj fs) = r) : r.get (js "source_refs") = some (.arr (sanitizeSourceRefs F publicPlaintextKeys (some refs))) ∧
      lastRefs r.fields = r.get (js "source_refs") := by
  have hclean := sanitizePublicFields_clean (F := F) fs (.obj []) (by simp [Json.fields])
  have hn := nodup_sanitizePublicFields F fs (.obj []) List.nodup_nil
  rw [publicRecord, sanitizePublicValue] at hr
  have hget := get_refs_sanitized (F := F) fs (.obj [])
  rw [hr] at hclean hn hget
  rw [h] at hget
  refine ⟨hget, ?_⟩
  obtain ⟨gs, rfl⟩ := exists_fields hget
  exact lastRefs_clean hn hclean

/-- A reference to `uri`. -/
def uriRef (s : JsString) : Json := .arr [.obj [(js "uri", .str s)]]

theorem sanitize_uriRef (s : JsString) :
    Json.arr (sanitizeSourceRefs F publicPlaintextKeys (some (uriRef s))) = uriRef (prefixedSha256 s) := by
  have hkey : isPlaintextKeyOf publicPlaintextKeys (js "uri") = false ∧ (normalizedPublicKey (js "uri") == js "value") = false := by
    decide
  simp [uriRef, sanitizeSourceRefs, sanitizeSourceRef, sanitizeSourceRefValue, sanitizeSourceRefFields, hkey, Json.set, Json.fields,
    setField]

/-- The reference `a`, hashed once, twice, three and four times. -/
theorem digests_differ : prefixedSha256 (js "a") ≠ prefixedSha256 (prefixedSha256 (js "a")) ∧
    prefixedSha256 (prefixedSha256 (js "a")) ≠ prefixedSha256 (prefixedSha256 (prefixedSha256 (js "a"))) ∧
    prefixedSha256 (prefixedSha256 (js "a")) ≠ prefixedSha256 (prefixedSha256 (prefixedSha256 (prefixedSha256 (js "a")))) := by
  decide +kernel

theorem uriRef_inj {s t : JsString} (h : uriRef s = uriRef t) : s = t := by
  simpa [uriRef] using h

end EnigmaMemory
