import EnigmaMemory.Proof.CanonicalCopy
import EnigmaMemory.Proof.JsString
import EnigmaMemory.Spec.ProofNetwork

/-!
# Digests of the proof network

A value has a digest exactly when the scan for private data lets it pass (`Public`), and then
the digest is that of the text of its copy. Up to collisions of SHA-256, one digest means one
copy (`digest_copies`), and so equal values unless their fields `__proto__` differ
(`digest_same_iff`).
-/

namespace EnigmaMemory

namespace ProofNetwork

open Json Regex

variable {P : Platform}

/-! ## The scan for private data -/

def publicText (s : JsString) : Bool := !regexTest secretValueRe s

/-- A key that the scan accepts with this value. -/
def publicField (key : JsString) (child : Json) : Bool :=
  if key ∈ safeFieldNames.map js then isFalse child else !regexTest forbiddenKeyRe key

/-- A value that the scan lets pass wherever it stands. -/
inductive Public : Json → Prop
  | null : Public .null
  | bool (b : Bool) : Public (.bool b)
  | num (q : ℚ) : Public (.num q)
  | str {s : JsString} : publicText s = true → Public (.str s)
  | arr {xs : List Json} : (∀ x ∈ xs, Public x) → Public (.arr xs)
  | obj {fs : List (JsString × Json)} : (∀ f ∈ fs, publicField f.1 f.2 = true) → (∀ f ∈ fs, Public f.2) → Public (.obj fs)

theorem assertItems_ok (xs : List Json)
    (h : ∀ x ∈ xs, ∀ path, assertNoPrivateProofPayload P x path = .ok () ↔ Public x) : ∀ path index,
      assertItems P xs path index = .ok () ↔ ∀ x ∈ xs, Public x := by
  induction xs with
  | nil => simp [assertItems]
  | cons x xs ih =>
    intro path index
    rw [assertItems, Except.check_eq_ok, List.forall_mem_cons, h x List.mem_cons_self,
      ih fun y hy => h y (List.mem_cons_of_mem _ hy)]

theorem assertFields_ok (fs : List (JsString × Json))
    (h : ∀ f ∈ fs, ∀ path, assertNoPrivateProofPayload P f.2 path = .ok () ↔ Public f.2) : ∀ path,
      assertFields P fs path = .ok () ↔ ∀ f ∈ fs, publicField f.1 f.2 = true ∧ Public f.2 := by
  induction fs with
  | nil => simp [assertFields]
  | cons f fs ih =>
    intro path
    obtain ⟨key, child⟩ := f
    have hrest : (assertNoPrivateProofPayload P child (keyPath path key) >>= fun _ => assertFields P fs path) = .ok () ↔
        Public child ∧ ∀ f ∈ fs, publicField f.1 f.2 = true ∧ Public f.2 := by
      rw [Except.check_eq_ok, h (key, child) List.mem_cons_self, ih fun g hg => h g (List.mem_cons_of_mem _ hg)]
    rw [assertFields, List.forall_mem_cons, publicField]
    by_cases hsafe : key ∈ safeFieldNames.map js
    · cases isFalse child <;> simp [hsafe, hrest]
    · cases regexTest forbiddenKeyRe key <;> simp [hsafe, hrest]

/-- **The scan accepts the public values and no others.** -/
theorem assertNoPrivateProofPayload_ok (value : Json) : ∀ path,
    assertNoPrivateProofPayload P value path = .ok () ↔ Public value := by
  induction value using Json.ind with
  | hnull => exact fun _ => ⟨fun _ => .null, fun _ => rfl⟩
  | hbool b => exact fun _ => ⟨fun _ => .bool b, fun _ => rfl⟩
  | hnum q => exact fun _ => ⟨fun _ => .num q, fun _ => rfl⟩
  | hstr s =>
    intro path
    rw [assertNoPrivateProofPayload]
    constructor
    · intro h
      refine .str ?_
      cases hsecret : regexTest secretValueRe s with
      | true => rw [hsecret, if_pos rfl] at h; cases h
      | false => rw [publicText, hsecret]; rfl
    · rintro ⟨⟩
      rename_i hs
      rw [publicText, Bool.not_eq_true'] at hs
      rw [hs]
      rfl
  | harr xs ih =>
    intro path
    rw [assertNoPrivateProofPayload, assertItems_ok xs ih]
    exact ⟨.arr, fun h => by cases h with | arr h => exact h⟩
  | hobj fs ih =>
    intro path
    rw [assertNoPrivateProofPayload, assertFields_ok fs ih]
    exact ⟨fun h => .obj (fun f hf => (h f hf).1) fun f hf => (h f hf).2,
      fun h => by cases h with | obj hkeys hvals => exact fun f hf => ⟨hkeys f hf, hvals f hf⟩⟩

theorem Public.get {j v : Json} {key : JsString} (h : Public j) (hv : j.get key = some v) : Public v := by
  cases h with
  | obj _ hvals => exact hvals _ (mem_of_get hv)
  | _ => cases hv

theorem isFalse_iff {j : Json} : isFalse j = true ↔ j = .bool false := by
  cases j with
  | bool b => cases b <;> simp [isFalse]
  | _ => simp [isFalse]

theorem publicField_congr {key : JsString} {x y : Json} (h : isFalse x = isFalse y) : publicField key x = publicField key y := by
  rw [publicField, publicField, h]

theorem isFalse_canonicalize (j : Json) : isFalse (Settlement.canonicalize j) = isFalse j := by
  cases j <;> rfl

theorem Public.canonicalize {j : Json} (h : Public j) : Public (Settlement.canonicalize j) := by
  induction h with
  | arr _ ih =>
    rw [Settlement.canonicalize_arr]
    refine .arr fun x hx => ?_
    obtain ⟨y, hy, rfl⟩ := List.mem_map.1 hx
    exact ih y hy
  | @obj fs hkeys _ ih =>
    rw [Settlement.canonicalize_obj]
    have hfields : ∀ f ∈ Settlement.copyFields fs, publicField f.1 f.2 = true ∧ Public f.2 := by
      intro f hf
      obtain ⟨-, v, hv, hcopy⟩ := Settlement.mem_sortedFields.1 ((Settlement.perm_listedFields _).mem_iff.1 hf)
      rw [← hcopy, publicField_congr (isFalse_canonicalize v)]
      exact ⟨hkeys _ hv, ih _ hv⟩
    exact .obj (fun f hf => (hfields f hf).1) fun f hf => (hfields f hf).2
  | null => exact .null
  | bool b => exact .bool b
  | num q => exact .num q
  | str hs => exact .str hs

/-- The order of keys is nothing to the scan. -/
theorem public_normalize (j : Json) : Public j.normalize ↔ Public j := by
  have hfalse : ∀ x : Json, isFalse x.normalize = isFalse x := fun x => by cases x <;> rfl
  induction j using Json.ind with
  | harr xs ih =>
    rw [Json.normalize, normalizeItems_eq]
    constructor
    · rintro ⟨⟩
      rename_i h
      exact .arr fun x hx => (ih x hx).1 (h _ (List.mem_map_of_mem hx))
    · rintro ⟨⟩
      rename_i h
      refine .arr fun x hx => ?_
      obtain ⟨y, hy, rfl⟩ := List.mem_map.1 hx
      exact (ih y hy).2 (h y hy)
  | hobj fs ih =>
    rw [Json.normalize, normalizeFields_eq]
    constructor
    · rintro ⟨⟩
      rename_i hkeys hvals
      have hmem : ∀ f ∈ fs, (f.1, f.2.normalize) ∈ sortFields (fs.map fun f => (f.1, Json.normalize f.2)) := fun f hf =>
        mem_sortFields.2 (List.mem_map.2 ⟨f, hf, rfl⟩)
      exact .obj (fun f hf => publicField_congr (hfalse f.2) ▸ hkeys _ (hmem f hf)) fun f hf => (ih f hf).1 (hvals _ (hmem f hf))
    · rintro ⟨⟩
      rename_i hkeys hvals
      have hmem : ∀ g ∈ sortFields (fs.map fun f => (f.1, Json.normalize f.2)), ∃ f ∈ fs, (f.1, f.2.normalize) = g := fun g hg =>
        List.mem_map.1 (mem_sortFields.1 hg)
      refine .obj (fun g hg => ?_) fun g hg => ?_
      · obtain ⟨f, hf, rfl⟩ := hmem g hg
        rw [publicField_congr (hfalse f.2)]
        exact hkeys f hf
      · obtain ⟨f, hf, rfl⟩ := hmem g hg
        exact (ih f hf).2 (hvals f hf)
  | hnull | hbool b | hnum q | hstr s => exact Iff.rfl

theorem Public.of_same {a b : Json} (h : Public a) (hsame : Same a b) : Public b := by
  rw [← public_normalize, ← hsame, public_normalize]
  exact h

/-! ## Digests -/

/-- The text that a digest is of. -/
def digestText (P : Platform) (value : Json) : JsString := (Settlement.canonicalize value).stringify P.toNumberFormat

theorem sha256Json_ok_iff {value : Json} {d : JsString} :
    sha256Json P value = .ok d ↔ Public value ∧ d = prefixedSha256 (digestText P value) := by
  rw [sha256Json, Except.check_eq_ok, assertNoPrivateProofPayload_ok, Except.pure_eq_ok]
  exact and_congr_right fun _ => eq_comm

theorem sha256Json_of_public {value : Json} (h : Public value) : sha256Json P value = .ok (prefixedSha256 (digestText P value)) :=
  sha256Json_ok_iff.2 ⟨h, rfl⟩

theorem digestText_eq_iff {a b : Json} : digestText P a = digestText P b ↔ Settlement.canonicalize a = Settlement.canonicalize b := by
  refine ⟨fun h => ?_, fun h => by rw [digestText, h, digestText]⟩
  have hstop : Stop [] := by intro c hc; simp at hc
  exact (stringify_inj P.toNumberFormat _ _ [] [] hstop hstop (congrArg (· ++ []) h)).1

/-- **One digest means one copy.** -/
theorem digest_copies {a b : Json} {d : JsString} (ha : sha256Json P a = .ok d) (hb : sha256Json P b = .ok d)
    (hc : CollisionFree {digestText P a, digestText P b}) : Settlement.canonicalize a = Settlement.canonicalize b := by
  obtain ⟨-, hda⟩ := sha256Json_ok_iff.1 ha
  obtain ⟨-, hdb⟩ := sha256Json_ok_iff.1 hb
  exact digestText_eq_iff.1 (prefixedSha256_inj hc (by simp) (by simp) (hda.symm.trans hdb))

theorem digest_same_iff {a b : Json} {d : JsString} (hua : a.UniqueKeys) (hub : b.UniqueKeys) (ha : sha256Json P a = .ok d)
    (hb : sha256Json P b = .ok d) (hc : CollisionFree {digestText P a, digestText P b}) : Same a b ↔ Settlement.ProtoAgree a b :=
  Settlement.same_iff_protoAgree hua hub (digest_copies ha hb hc)

end ProofNetwork

end EnigmaMemory
