import EnigmaMemory.Proof.ProofArtifacts
import EnigmaMemory.Proof.Reference

/-!
# Created artifacts are accepted

The validator of a kind accepts every artifact that the constructor of the kind returns, and
every value that is equal to it up to the order of keys, such as the one that is read back from
its text (`created_accepted`). Packets and batches are among the kinds, so this holds of those
that were built from accepted artifacts.
-/

namespace EnigmaMemory

namespace ProofNetwork

open Json Regex

variable {P : Platform}

/-- What a constructor accepts is public. -/
theorem accepted_public {kind : Kind} {a : Json} (h : validate P kind a = []) : Public a := by
  have hmem : ∃ name checks, validate P kind a = collectValidation checks ∧ header P kind a name <+: checks := by
    cases kind with
    | anchorBatch => exact ⟨_, _, rfl, List.prefix_append _ _⟩
    | capabilityGrant => exact ⟨_, _, rfl, List.prefix_append _ _⟩
    | capabilityRevocation => exact ⟨_, _, rfl, List.prefix_append _ _⟩
    | benchmarkAttestation => exact ⟨_, _, rfl, List.prefix_append _ _⟩
    | packet => exact ⟨_, _, rfl, ((List.prefix_append _ _).trans (List.prefix_append _ _)).trans (List.prefix_append _ _)⟩
    | registryEntry => exact ⟨_, _, rfl, List.prefix_append _ _⟩
    | registryBatch => exact ⟨_, _, rfl, ((List.prefix_append _ _).trans (List.prefix_append _ _)).trans (List.prefix_append _ _)⟩
  obtain ⟨name, checks, heq, hbefore⟩ := hmem
  have hscan := collectValidation_eq_nil.1 (heq.symm.trans h) _ (hbefore.subset (List.mem_cons_of_mem _ List.mem_cons_self))
  obtain ⟨_, hscan⟩ := required_eq_ok.1 hscan
  exact (assertNoPrivateProofPayload_ok a _).1 hscan

/-- **Every created artifact is accepted**, with its keys in any order. -/
theorem created_accepted (P : Platform) (htotal : ∀ s t, P.localeLe s t = true ∨ P.localeLe t s = true)
    (htrans : ∀ s t u, P.localeLe s t = true → P.localeLe t u = true → P.localeLe s u = true) (kind : Kind) (input a : Json)
    (hu : input.UniqueKeys) (h : create P kind input = .ok a) :
    validate P kind a = [] ∧ ∀ b, b.UniqueKeys → Same a b → validate P kind b = [] := by
  obtain ⟨hvalid, hua⟩ := create_valid htotal htrans hu h
  refine ⟨hvalid, fun b hub hsame => ?_⟩
  rw [validate_same kind (accepted_public hvalid) hua hub hsame, hvalid]

/-! ## A revocation -/

/-- Characters that no secret is written in alone. -/
def plainRanges : List (ℕ × ℕ) := [(33, 46), (48, 74), (76, 106), (108, 126)]

theorem publicText_of_over {s : JsString} (h : CharClass.Over plainRanges (unitCodes s)) : publicText s = true := by
  have hleaves : secretValueRe.leaves plainRanges = true := by decide
  rw [publicText, regexTest, Regex.test, Regex.search_eq_false hleaves _ _ h]
  rfl

theorem over_plain_append {s t : JsString} (hs : CharClass.Over plainRanges (unitCodes s))
    (ht : CharClass.Over plainRanges (unitCodes t)) : CharClass.Over plainRanges (unitCodes (s ++ t)) := by
  intro x hx
  rw [unitCodes, List.map_append, List.mem_append] at hx
  exact hx.elim (hs x) (ht x)

theorem over_plain_hex {s : JsString} (h : ∀ c ∈ s, isHexDigit c = true) : CharClass.Over plainRanges (unitCodes s) := by
  intro x hx
  obtain ⟨c, hc, rfl⟩ := List.mem_map.1 hx
  have hdigit : 48 ≤ c ∧ c ≤ 57 ∨ 97 ≤ c ∧ c ≤ 102 := of_decide_eq_true (h c hc)
  rcases hdigit with ⟨hlow, hhigh⟩ | ⟨hlow, hhigh⟩
  · have hhigh' : c.val ≤ 57 := hhigh
    exact ⟨(48, 74), by decide, hlow, by omega⟩
  · have hlow' : 97 ≤ c.val := hlow
    have hhigh' : c.val ≤ 102 := hhigh
    exact ⟨(76, 106), by decide, by omega, by omega⟩

theorem public_digest (text : JsString) : Public (.str (prefixedSha256 text)) := by
  have hprefix : CharClass.Over plainRanges (unitCodes sha256Prefix) := by decide
  have hhex : ∀ c ∈ sha256Hex text, isHexDigit c = true := by
    have h := isHash_sha256Hex text
    rw [isHash, Bool.and_eq_true, List.all_eq_true] at h
    exact h.2
  exact .str (publicText_of_over (over_plain_append hprefix (over_plain_hex hhex)))

theorem public_short {start : JsString} (h : CharClass.Over plainRanges (unitCodes start)) (text : JsString) :
    Public (.str (start ++ shortDigest (prefixedSha256 text))) :=
  .str (publicText_of_over (over_plain_append h (over_plain_hex (hex_shortDigest (rootTest_sha256 text)))))

theorem Public.append {fs gs : List (JsString × Json)} (hf : Public (.obj fs)) (hg : Public (.obj gs)) : Public (.obj (fs ++ gs)) := by
  cases hf with
  | obj hfkeys hfvals =>
    cases hg with
    | obj hgkeys hgvals =>
      exact .obj (fun f h => (List.mem_append.1 h).elim (hfkeys f) (hgkeys f)) fun f h =>
        (List.mem_append.1 h).elim (hfvals f) (hgvals f)

theorem public_safe : Public (.obj safeBooleanBoundaries) := by
  refine .obj (fun f hf => ?_) fun f hf => ?_ <;> obtain ⟨name, hname, rfl⟩ := List.mem_map.1 hf
  · rw [publicField, if_pos (List.mem_map_of_mem hname)]
    rfl
  · exact .bool false

/-- Other names than those of the boundaries, and no private ones. -/
def plainNames (names : List JsString) : Bool :=
  names.all fun key => !regexTest forbiddenKeyRe key && decide (key ∉ safeFieldNames.map js)

/-- An object is public if its names are plain and its values are public. -/
theorem public_obj {names : List JsString} (hnames : plainNames names = true) {fs : List (JsString × Json)}
    (hfs : fs.map Prod.fst = names) (h : (fs.map Prod.snd).Forall Public) : Public (.obj fs) := by
  refine .obj (fun f hf => ?_) fun f hf => List.forall_iff_forall_mem.1 h _ (List.mem_map_of_mem hf)
  have hplain := List.all_eq_true.1 hnames f.1 (hfs ▸ List.mem_map_of_mem hf)
  rw [Bool.and_eq_true, decide_eq_true_eq] at hplain
  rw [publicField, if_neg hplain.2, hplain.1]

/-- The fields that name an artifact are public. -/
theorem identity_public (kind : Kind) (text : JsString) : Public (.obj [(js kind.idField, .str (js kind.prefixText ++ js "_" ++
    shortDigest (prefixedSha256 text))), (js kind.hashField, .str (prefixedSha256 text))]) := by
  have hall : plainNames (supportedKinds.flatMap fun k => [js k.idField, js k.hashField]) = true := by decide +kernel
  have hnames : plainNames [js kind.idField, js kind.hashField] = true := by
    refine List.all_eq_true.2 fun key hkey => List.all_eq_true.1 hall key (List.mem_flatMap.2 ⟨kind, ?_, hkey⟩)
    cases kind <;> simp [supportedKinds]
  have hprefix : CharClass.Over plainRanges (unitCodes (js kind.prefixText ++ js "_")) := by
    cases kind <;> decide
  exact public_obj hnames rfl ⟨public_short hprefix text, public_digest text⟩

/-- A public body makes an artifact. -/
theorem freezeArtifact_of_public (kind : Kind) {fs : List (JsString × Json)} (h : Public (.obj fs)) :
    ∃ a, freezeArtifact P kind (.obj fs) = .ok a := by
  refine ⟨_, Except.bind_eq_ok.2 ⟨_, sha256Json_of_public h, Except.check_eq_ok.2 ⟨?_, rfl⟩⟩⟩
  exact (assertNoPrivateProofPayload_ok _ _).2 (h.append (identity_public kind _))

def sampleGrantHash : JsString := prefixedSha256 (js "grant")

def sampleInput : Json := .obj [(js "grant_hash", .str sampleGrantHash)]

/-- What the nullifier of the sample is the digest of. -/
def sampleReason : Json := .obj [(js "grant_hash", .str sampleGrantHash), (js "reason_ref", .str (js "reason:unspecified"))]

/-- The fields of the sample, its nullifier being the digest of a text. -/
def sampleFields (text : JsString) : List (JsString × Json) :=
  [(js "schema", .str Kind.capabilityRevocation.schema), (js "revoked_at", .str (js "1970-01-01T00:00:00.000Z")),
    (js "revocation_ref", .str (refFromDigest "revocation" sampleGrantHash)),
    (js "grant_id", .str (refFromDigest "grant" sampleGrantHash)), (js "grant_hash", .str sampleGrantHash),
    (js "issuer_ref", .str (js "issuer:proof-network")), (js "reason_ref", .str (js "reason:unspecified")),
    (js "nullifier_ref", .str (refFromDigest "nullifier" (prefixedSha256 text))), (js "nullifier_root", .str (prefixedSha256 text))]

/-- The names in the sample, in its input and in what its nullifier is the digest of. -/
def sampleNames : List JsString :=
  [js "schema", js "revoked_at", js "revocation_ref", js "grant_id", js "grant_hash", js "issuer_ref", js "reason_ref",
    js "nullifier_ref", js "nullifier_root"]

theorem sampleNames_plain {names : List JsString} (h : names ⊆ sampleNames) : plainNames names = true := by
  have hall : plainNames sampleNames = true := by decide +kernel
  exact List.all_eq_true.2 fun key hkey => List.all_eq_true.1 hall key (h hkey)

theorem sampleTexts_public : ∀ text ∈ [Kind.capabilityRevocation.schema, js "1970-01-01T00:00:00.000Z", js "issuer:proof-network",
    js "reason:unspecified"], Public (.str text) := by
  have hall : [Kind.capabilityRevocation.schema, js "1970-01-01T00:00:00.000Z", js "issuer:proof-network",
    js "reason:unspecified"].all publicText = true := by decide +kernel
  exact fun text htext => .str (List.all_eq_true.1 hall text htext)

theorem sampleFields_public (text : JsString) : Public (.obj (sampleFields text)) := by
  have hnames := sampleNames_plain (List.Subset.refl sampleNames)
  unfold sampleFields
  exact public_obj hnames rfl ⟨sampleTexts_public _ (by simp), sampleTexts_public _ (by simp), public_short (by decide) _,
    public_short (by decide) _, public_digest _, sampleTexts_public _ (by simp), sampleTexts_public _ (by simp),
    public_short (by decide) _, public_digest _⟩

theorem sampleReason_public : Public sampleReason := by
  have hnames : plainNames [js "grant_hash", js "reason_ref"] = true := sampleNames_plain (by simp [sampleNames])
  unfold sampleReason
  exact public_obj hnames rfl ⟨public_digest _, sampleTexts_public _ (by simp)⟩

theorem fieldOf_sampleInput {names : List String} (h : "grant_hash" ∉ names) : fieldOf sampleInput names = none := by
  cases hfield : fieldOf sampleInput names with
  | none => rfl
  | some v =>
    obtain ⟨name, hname, hget⟩ := List.mem_map.1 (mem_of_firstOf hfield)
    have hne : name ≠ "grant_hash" := fun hname' => h (hname' ▸ hname)
    simp [sampleInput, hne] at hget

theorem omitted_sampleInput {check : Option Json → JsString → Except JsError JsString} {names : List String}
    {fallback field : JsString} (h : "grant_hash" ∉ names) :
    optionally check (fieldOf sampleInput names) fallback field = .ok fallback := by
  rw [fieldOf_sampleInput h]
  rfl

theorem undated_sampleInput {names : List String} {field : JsString} (h : "grant_hash" ∉ names) :
    isoTimestamp reference (fieldOf sampleInput names) field = .ok (js "1970-01-01T00:00:00.000Z") := by
  rw [fieldOf_sampleInput h]
  rfl

theorem unsigned_sampleInput : signatureField sampleInput = .ok [] := by
  rw [signatureField, fieldOf_sampleInput (by simp)]
  rfl

theorem sample_created : ∃ a, create reference .capabilityRevocation sampleInput = .ok a := by
  have hinput : Public sampleInput := public_obj (sampleNames_plain (by simp [sampleNames])) rfl (public_digest _)
  have hcheck : checkInput reference sampleInput = .ok () := Except.check_eq_ok.2 ⟨rfl, (assertNoPrivateProofPayload_ok _ _).2 hinput⟩
  have hgrant : Passes digestRef sampleGrantHash := digestRef_passes (rootTest_sha256 _)
  have hreason : Public (.obj ([(js "grant_hash", .str sampleGrantHash)] ++
      field (js "reason_ref") (orElse (fieldOf sampleInput ["reason_ref", "reasonRef", "revocation_reason", "revocationReason"])
        (some (.str (js "reason:unspecified")))))) := by
    rw [fieldOf_sampleInput (by simp)]
    exact sampleReason_public
  have hbody : Public (.obj (sampleFields (digestText reference sampleReason) ++ [] ++ safeBooleanBoundaries)) := by
    rw [List.append_nil]
    exact (sampleFields_public _).append public_safe
  obtain ⟨a, ha⟩ := freezeArtifact_of_public (P := reference) .capabilityRevocation hbody
  refine ⟨a, Except.check_eq_ok.2 ⟨hcheck, Except.bind_eq_ok.2 ⟨_, hgrant _, Except.bind_eq_ok.2 ⟨_, sha256Json_of_public hreason, ?_⟩⟩⟩⟩
  refine Except.bind_eq_ok.2 ⟨_, omitted_sampleInput (by simp), Except.bind_eq_ok.2 ⟨_, omitted_sampleInput (by simp), ?_⟩⟩
  refine Except.bind_eq_ok.2 ⟨_, omitted_sampleInput (by simp), Except.bind_eq_ok.2 ⟨_, omitted_sampleInput (by simp), ?_⟩⟩
  refine Except.bind_eq_ok.2 ⟨_, undated_sampleInput (by simp), Except.bind_eq_ok.2 ⟨_, omitted_sampleInput (by simp), ?_⟩⟩
  refine Except.bind_eq_ok.2 ⟨_, omitted_sampleInput (by simp), Except.bind_eq_ok.2 ⟨_, unsigned_sampleInput, ?_⟩⟩
  exact ha

theorem sample_valid : ∃ a, validate reference .capabilityRevocation a = [] ∧ a.UniqueKeys := by
  obtain ⟨a, ha⟩ := sample_created
  have hrevocation : createCapabilityRevocation reference sampleInput = .ok a := ha
  exact ⟨a, createCapabilityRevocation_valid hrevocation⟩

theorem created_accepted_revocation : ∃ a, create reference .capabilityRevocation sampleInput = .ok a ∧
    validate reference .capabilityRevocation a = [] ∧
    ∀ b, b.UniqueKeys → Same a b → validate reference .capabilityRevocation b = [] := by
  obtain ⟨a, ha⟩ := sample_created
  have hunique : sampleInput.UniqueKeys := .obj (List.nodup_singleton _) (by simpa using UniqueKeys.str _)
  have htotal : ∀ s t, reference.localeLe s t = true ∨ reference.localeLe t s = true := fun s t =>
    (le_total s t).imp decide_eq_true decide_eq_true
  have htrans : ∀ s t u, reference.localeLe s t = true → reference.localeLe t u = true → reference.localeLe s u = true :=
    fun _ _ _ h h' => decide_eq_true ((of_decide_eq_true h).trans (of_decide_eq_true h'))
  exact ⟨a, ha, created_accepted reference htotal htrans .capabilityRevocation sampleInput a hunique ha⟩

end ProofNetwork

end EnigmaMemory
