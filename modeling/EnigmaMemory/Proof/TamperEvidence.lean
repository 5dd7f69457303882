import EnigmaMemory.Proof.ProofNetwork

/-!
# What the hash of an artifact binds

Two accepted artifacts of one kind with one hash are equal, up to the order of keys, exactly
when their own fields named `__proto__` agree wherever both have an object (`tamper_evident`):
the copy that is hashed is rebuilt by assignments, and an assignment to this key adds no field.
-/

namespace EnigmaMemory

namespace ProofNetwork

open Json
open Settlement (ProtoAgree protoKey)

variable {P : Platform} {kind : Kind} {a b : Json}

/-- What the validator of a kind found out about an artifact. -/
structure Accepted (P : Platform) (kind : Kind) (a : Json) : Prop where
  plain : a.isPlainRecord = true
  isPublic : Public a
  id : a.get (js kind.idField) = some (.str (js kind.prefixText ++ js "_" ++
    shortDigest (prefixedSha256 (digestText P (bodyWithoutIdentity kind a)))))
  hash : a.get (js kind.hashField) = some (.str (prefixedSha256 (digestText P (bodyWithoutIdentity kind a))))

theorem errorIf_eq_nil {cond : Bool} {message : String} : errorIf cond message = [] ↔ cond = false := by
  cases cond <;> simp [errorIf]

theorem validateIdentity_ok (h : Public a) (hi : validateIdentity P kind a = .ok []) :
    a.get (js kind.idField) = some (.str (js kind.prefixText ++ js "_" ++
      shortDigest (prefixedSha256 (digestText P (bodyWithoutIdentity kind a))))) ∧
    a.get (js kind.hashField) = some (.str (prefixedSha256 (digestText P (bodyWithoutIdentity kind a)))) := by
  rw [validateIdentity, sha256Json_of_public (h.body kind), Except.ok_bind, Except.pure_eq_ok, List.append_eq_nil_iff, errorIf_eq_nil,
    errorIf_eq_nil, Bool.not_eq_false', Bool.not_eq_false', isStr_iff, isStr_iff] at hi
  exact ⟨hi.2, hi.1⟩

theorem accepted (h : validate P kind a = []) : Accepted P kind a := by
  have hmem : ∃ name checks, validate P kind a = collectValidation checks ∧ required (requiredObject a (js name)) ∈ checks ∧
      validateIdentity P kind a ∈ checks := by
    cases kind with
    | anchorBatch => exact ⟨"batch", _, rfl, List.mem_cons_self, by simp⟩
    | capabilityGrant => exact ⟨"grant", _, rfl, List.mem_cons_self, by simp⟩
    | capabilityRevocation => exact ⟨"revocation", _, rfl, List.mem_cons_self, by simp⟩
    | benchmarkAttestation => exact ⟨"attestation", _, rfl, List.mem_cons_self, by simp⟩
    | packet => exact ⟨"packet", _, rfl, List.mem_cons_self, by simp⟩
    | registryEntry => exact ⟨"entry", _, rfl, List.mem_cons_self, by simp⟩
    | registryBatch => exact ⟨"batch", _, rfl, List.mem_cons_self, by simp⟩
  obtain ⟨name, checks, heq, hobject, hidentity⟩ := hmem
  have hok := collectValidation_eq_nil.1 (heq.symm.trans h)
  have hpublic := accepted_public h
  obtain ⟨hid, hhash⟩ := validateIdentity_ok hpublic (hok _ hidentity)
  refine ⟨?_, hpublic, hid, hhash⟩
  obtain ⟨_, hplain⟩ := required_eq_ok.1 (hok _ hobject)
  rw [requiredObject] at hplain
  split at hplain
  · assumption
  · cases hplain

theorem get_bodyWithoutIdentity (a : Json) (key : JsString) : (bodyWithoutIdentity kind a).get key =
    if key = js kind.hashField then none else if key = js kind.idField then none else a.get key := by
  rw [bodyWithoutIdentity, get_without, get_without]

/-- Accepted artifacts whose bodies have one digest have one copy. -/
theorem Accepted.copies (ha : Accepted P kind a) (hb : Accepted P kind b) (hua : a.UniqueKeys) (hub : b.UniqueKeys)
    (hhash : a.get (js kind.hashField) = b.get (js kind.hashField))
    (hc : CollisionFree {digestText P (bodyWithoutIdentity kind a), digestText P (bodyWithoutIdentity kind b)}) :
    Settlement.canonicalize a = Settlement.canonicalize b := by
  have hdigest : prefixedSha256 (digestText P (bodyWithoutIdentity kind a)) =
      prefixedSha256 (digestText P (bodyWithoutIdentity kind b)) := by
    have heq := (ha.hash.symm.trans hhash).trans hb.hash
    rwa [Option.some.injEq, str.injEq] at heq
  have hid : a.get (js kind.idField) = b.get (js kind.idField) := by rw [ha.id, hb.id, hdigest]
  have hbody := digestText_eq_iff.1 (prefixedSha256_inj hc (by simp) (by simp) hdigest)
  obtain ⟨fs, rfl⟩ : ∃ fs, a = .obj fs := by
    have hplain := ha.plain
    cases a <;> first | exact ⟨_, rfl⟩ | cases hplain
  obtain ⟨gs, rfl⟩ : ∃ gs, b = .obj gs := by
    have hplain := hb.plain
    cases b <;> first | exact ⟨_, rfl⟩ | cases hplain
  refine Settlement.canonicalize_ext (uniqueKeys_obj_iff.1 hua).1 (uniqueKeys_obj_iff.1 hub).1 fun key hkey => ?_
  -- the two fields that name the digest, and the fields of the body
  by_cases hk : key = js kind.hashField
  · rw [hk, hhash]
  by_cases hk' : key = js kind.idField
  · rw [hk', hid]
  have hget := congrArg (fun j : Json => j.get key) hbody
  simp only [Settlement.get_canonicalize_of_ne hkey, get_bodyWithoutIdentity, if_neg hk, if_neg hk'] at hget
  exact hget

/-- **What a hash binds**: accepted artifacts with one hash, and values with one digest, are
equal exactly when their fields `__proto__` agree. -/
theorem tamper_evident (P : Platform) :
    (∀ (kind : Kind) (a b : Json), a.UniqueKeys → b.UniqueKeys → validate P kind a = [] → validate P kind b = [] →
      a.get (js kind.hashField) = b.get (js kind.hashField) →
      CollisionFree {digestText P (bodyWithoutIdentity kind a), digestText P (bodyWithoutIdentity kind b)} →
      (Same a b ↔ ProtoAgree a b)) ∧
    ∀ (a b : Json) (d : JsString), a.UniqueKeys → b.UniqueKeys → sha256Json P a = .ok d → sha256Json P b = .ok d →
      CollisionFree {digestText P a, digestText P b} → (Same a b ↔ ProtoAgree a b) := by
  refine ⟨fun kind a b hua hub ha hb hhash hc => ?_, fun a b d hua hub ha hb hc => digest_same_iff hua hub ha hb hc⟩
  exact Settlement.same_iff_protoAgree hua hub ((accepted ha).copies (accepted hb) hua hub hhash hc)

theorem tamper_evident_revocation : ∃ a, validate reference .capabilityRevocation a = [] ∧ (Same a a ↔ ProtoAgree a a) := by
  obtain ⟨a, hvalid, hunique⟩ := sample_valid
  have hfree : ∀ text : JsString, CollisionFree {text, text} := fun text => by simp [CollisionFree]
  exact ⟨a, hvalid, (tamper_evident reference).1 .capabilityRevocation a a hunique hunique hvalid hvalid rfl (hfree _)⟩

/-- A value with a field `__proto__` more. -/
def withProto (a : Json) : Json := .obj (a.fields ++ [(protoKey, .obj [])])

/-- An accepted artifact with this field is accepted under the same hash. -/
theorem withProto_accepted (ha : validate P kind a = []) (hua : a.UniqueKeys) (hproto : a.get protoKey = none) :
    (withProto a).UniqueKeys ∧ validate P kind (withProto a) = [] ∧
      (withProto a).get (js kind.hashField) = a.get (js kind.hashField) ∧
      digestText P (bodyWithoutIdentity kind (withProto a)) = digestText P (bodyWithoutIdentity kind a) := by
  have hget : ∀ key, (withProto a).get key = if key = protoKey then some (.obj []) else a.get key := by
    intro key
    rw [withProto, get_obj_append, get_obj_fields, get_obj_cons]
    by_cases hkey : key = protoKey
    · rw [hkey, hproto, if_pos rfl, if_pos rfl, Option.none_or]
    · rw [if_neg hkey, if_neg hkey, get_obj_nil, Option.or_none]
  have hunique : (withProto a).UniqueKeys := by
    obtain ⟨hn, hvals⟩ := uniqueKeys_obj_iff.1 hua.fields
    have hnot : protoKey ∉ a.fields.map Prod.fst := get_eq_none_iff.1 ((get_obj_fields a protoKey).trans hproto)
    refine .obj ?_ fun f hf => ?_
    · rw [List.map_append]
      exact hn.append (List.nodup_singleton _) (by simpa using hnot)
    · rcases List.mem_append.1 hf with hf | hf
      · exact hvals f hf
      · rw [List.mem_singleton.1 hf]
        exact uniqueKeys_empty
  have hpublic : Public (withProto a) := by
    have hfields : Public (.obj a.fields) := by
      have hplain := (accepted ha).plain
      have hpublic := accepted_public ha
      cases a <;> first | exact hpublic | cases hplain
    have hkey : plainNames [protoKey] = true := by decide
    exact hfields.append (public_obj hkey rfl (.obj (by simp) (by simp)))
  have hcopy : ∀ key, key ≠ protoKey → (withProto a).get key = a.get key := fun key hkey => by rw [hget, if_neg hkey]
  have hsame : Settlement.canonicalize (withProto a) = Settlement.canonicalize (.obj a.fields) :=
    Settlement.canonicalize_ext (uniqueKeys_obj_iff.1 hunique).1 (uniqueKeys_obj_iff.1 hua.fields).1 fun key hkey =>
      congrArg _ ((hcopy key hkey).trans (get_obj_fields a key).symm)
  have hobject : Json.obj a.fields = a := by
    have hplain := (accepted ha).plain
    cases a <;> first | rfl | cases hplain
  rw [hobject] at hsame
  refine ⟨hunique, ?_, hcopy _ (identity_keys kind).2, ?_⟩
  · rw [← validate_canonicalize kind hpublic hunique, hsame, validate_canonicalize kind (accepted_public ha) hua, ha]
  · rw [digestText, digestText, ← body_canonicalize hunique, hsame, body_canonicalize hua]

/-- One hash of two revocations that are not equal. -/
theorem proto_not_bound : ¬∀ a b : Json, a.UniqueKeys → b.UniqueKeys → validate reference .capabilityRevocation a = [] →
    validate reference .capabilityRevocation b = [] →
    a.get (js Kind.capabilityRevocation.hashField) = b.get (js Kind.capabilityRevocation.hashField) →
    CollisionFree {digestText reference (bodyWithoutIdentity .capabilityRevocation a),
      digestText reference (bodyWithoutIdentity .capabilityRevocation b)} → Same a b := by
  intro h
  obtain ⟨a, hvalid, hunique⟩ := sample_valid
  -- a copy has no field `__proto__`
  have hvalid' := (validate_canonicalize .capabilityRevocation (accepted_public hvalid) hunique).trans hvalid
  have hunique' := Settlement.uniqueKeys_canonicalize hunique
  have hproto : (Settlement.canonicalize a).get protoKey = none := by rw [Settlement.get_canonicalize, if_pos rfl]
  obtain ⟨huniq, hval, hhash, htext⟩ := withProto_accepted hvalid' hunique' hproto
  have hsame := h _ _ huniq hunique' hval hvalid' hhash (by rw [htext]; simp [CollisionFree])
  have hget := congrArg (fun j : Json => j.get protoKey) hsame
  rw [get_normalize, get_normalize, hproto, withProto, get_obj_append, get_obj_fields, hproto, Option.none_or, get_obj_cons, if_pos rfl]
    at hget
  cases hget

end ProofNetwork

end EnigmaMemory
