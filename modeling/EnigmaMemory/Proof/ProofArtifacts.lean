import EnigmaMemory.Proof.ProofFields

/-!
# Created artifacts

Whatever a constructor of the proof network returns, the validator of its kind accepts
(`create_valid`), and so it does with the keys in another order, as a value that was written
as text and read back has them.
-/

namespace EnigmaMemory

namespace ProofNetwork

open Json

variable {P : Platform}

/-! ## References made from digests -/

theorem isWhite_of_refUnit {c : CodeUnit} (h : isRefUnit c = true) : isWhite c = false := by
  have hpunct : (js "._:/@+-").all (fun d => !isWhite d) = true := by decide
  rw [isRefUnit, Bool.or_eq_true, Bool.or_eq_true, decide_eq_true_eq] at h
  rcases h with (h | h) | h
  · have hc : 97 ≤ c.val ∧ c.val ≤ 122 := of_decide_eq_true h
    simp [isWhite, whiteRanges]
    omega
  · have hc : 48 ≤ c.val ∧ c.val ≤ 57 := of_decide_eq_true h
    simp [isWhite, whiteRanges]
    omega
  · simpa using List.all_eq_true.1 hpunct c h

theorem refUnit_of_hex {c : CodeUnit} (h : isHexDigit c = true) : isRefUnit c = true := by
  have hc : 48 ≤ c ∧ c ≤ 57 ∨ 97 ≤ c ∧ c ≤ 102 := of_decide_eq_true h
  rcases hc with ⟨hlow, hhigh⟩ | ⟨hlow, hhigh⟩
  · have hdigit : isDigitUnit c = true := decide_eq_true ⟨hlow, hhigh⟩
    simp [isRefUnit, hdigit]
  · have hlower : isLowerUnit c = true := decide_eq_true ⟨hlow, hhigh.trans (by decide)⟩
    simp [isRefUnit, hlower]

theorem passes_of_refUnits {s : JsString} (hne : s ≠ []) (h : ∀ c ∈ s, isRefUnit c = true) : Passes requiredString s :=
  requiredString_passes hne (trim_of_no_white fun c hc => isWhite_of_refUnit (h c hc))

theorem refUnits_of_refTest {s : JsString} (h : refTest s = true) : s ≠ [] ∧ ∀ c ∈ s, isRefUnit c = true := by
  cases s with
  | nil => cases h
  | cons c s =>
    rw [refTest, Bool.and_eq_true, Bool.and_eq_true, List.all_eq_true] at h
    obtain ⟨⟨hhead, -⟩, hrest⟩ := h
    refine ⟨by simp, fun d hd => ?_⟩
    rcases List.mem_cons.1 hd with rfl | hd
    · rw [isRefUnit, hhead]
      rfl
    · exact hrest d hd

theorem publicRef_passes {s : JsString} (h : refTest s = true) : Passes publicRef s :=
  testedString_passes (passes_of_refUnits (refUnits_of_refTest h).1 (refUnits_of_refTest h).2) h

theorem refTest_append {s t : JsString} (hs : refTest s = true) (ht : ∀ c ∈ t, isRefUnit c = true) (hlen : s.length + t.length ≤ 192) :
    refTest (s ++ t) = true := by
  cases s with
  | nil => cases hs
  | cons c s =>
    rw [refTest, Bool.and_eq_true, Bool.and_eq_true, List.all_eq_true, decide_eq_true_eq] at hs
    obtain ⟨⟨hhead, hlow, -⟩, hrest⟩ := hs
    rw [List.cons_append, refTest, hhead, Bool.true_and, Bool.and_eq_true, decide_eq_true_eq, List.all_eq_true]
    refine ⟨?_, fun d hd => ?_⟩
    · simp only [List.length_append, List.length_cons] at hlen ⊢
      omega
    · rcases List.mem_append.1 hd with hd | hd
      · exact hrest d hd
      · exact ht d hd

theorem hex_shortDigest {digest : JsString} (h : rootTest digest = true) : ∀ c ∈ shortDigest digest, isHexDigit c = true := by
  rw [rootTest, Bool.and_eq_true, isHash, Bool.and_eq_true, List.all_eq_true] at h
  exact fun c hc => h.2.2 c (List.mem_of_mem_take hc)

theorem length_shortDigest (digest : JsString) : (shortDigest digest).length ≤ 32 := by
  rw [shortDigest, List.length_take]
  exact min_le_left _ _

theorem refFromDigest_passes {kind : String} {digest : JsString} (hkind : refTest (js kind ++ js ":") = true)
    (hlen : (js kind ++ js ":").length ≤ 160) (h : rootTest digest = true) : Passes publicRef (refFromDigest kind digest) := by
  have hshort := length_shortDigest digest
  exact publicRef_passes (refTest_append hkind (fun c hc => refUnit_of_hex (hex_shortDigest h c hc)) (by omega))

theorem rootTest_sha256 (text : JsString) : rootTest (prefixedSha256 text) = true := isRoot_prefixedSha256 text

theorem refUnits_of_rootTest {digest : JsString} (h : rootTest digest = true) : ∀ c ∈ digest, isRefUnit c = true := by
  have hprefix : (js "sha256:").all isRefUnit = true := by decide
  rw [rootTest, Bool.and_eq_true, isHash, Bool.and_eq_true, List.all_eq_true, List.isPrefixOf_iff_prefix] at h
  obtain ⟨⟨rest, rfl⟩, -, hhex⟩ := h
  intro c hc
  rcases List.mem_append.1 hc with hc | hc
  · exact List.all_eq_true.1 hprefix c hc
  · exact refUnit_of_hex (hhex c (by rwa [List.drop_left' (by decide)]))

theorem digestRef_passes {digest : JsString} (h : rootTest digest = true) : Passes digestRef digest := by
  have hne : digest ≠ [] := by
    rintro rfl
    cases h
  exact testedString_passes (passes_of_refUnits hne (refUnits_of_rootTest h)) h

theorem rootTest_of_passes {digest : JsString} (h : Passes digestRef digest) : rootTest digest = true :=
  (testedString_ok (h [])).2

theorem rootTest_of_sha256Json {value : Json} {digest : JsString} (h : sha256Json P value = .ok digest) : rootTest digest = true := by
  rw [(sha256Json_ok_iff.1 h).2]
  exact rootTest_sha256 _

/-! ## Sealed artifacts -/

theorem collectValidation_eq_nil {checks : List Check} : collectValidation checks = [] ↔ ∀ c ∈ checks, c = .ok [] := by
  induction checks with
  | nil => simp [collectValidation]
  | cons c checks ih =>
    cases c with
    | error e => simp [collectValidation]
    | ok errors => simp [collectValidation, ih]

/-- The field of a signature, if there is one. -/
def IsSignature (signature : List (JsString × Json)) : Prop :=
  signature = [] ∨ ∃ r, signature = [(js "signature_ref", .str r)] ∧ Passes signatureRef r

theorem signatureField_ok {input : Json} {signature : List (JsString × Json)} (h : signatureField input = .ok signature) :
    IsSignature signature := by
  simp only [signatureField] at h
  split at h
  · obtain ⟨r, hr, rfl⟩ := Except.map_eq_ok.1 h
    exact .inr ⟨r, rfl, testedString_settles _ _ _ _ _ hr⟩
  · obtain rfl := Except.ok.inj h
    exact .inl rfl

/-- An artifact over these fields and this signature. -/
structure Sealed (P : Platform) (kind : Kind) (fs signature : List (JsString × Json)) (a : Json) : Prop where
  frozen : freezeArtifact P kind (.obj (fs ++ signature ++ safeBooleanBoundaries)) = .ok a
  signed : IsSignature signature

namespace Sealed

variable {kind : Kind} {fs signature : List (JsString × Json)} {a : Json}

theorem eq (h : Sealed P kind fs signature a) : ∃ d, sha256Json P (.obj (fs ++ signature ++ safeBooleanBoundaries)) = .ok d ∧
    a = .obj (fs ++ signature ++ safeBooleanBoundaries ++ [(js kind.idField, .str (js kind.prefixText ++ js "_" ++ shortDigest d)),
      (js kind.hashField, .str d)]) ∧ Public a := by
  obtain ⟨d, hd, hrest⟩ := Except.bind_eq_ok.1 h.frozen
  obtain ⟨hpublic, ha⟩ := Except.check_eq_ok.1 hrest
  obtain rfl := Except.pure_eq_ok.1 ha
  exact ⟨d, hd, rfl, (assertNoPrivateProofPayload_ok _ _).1 hpublic⟩

theorem isPublic (h : Sealed P kind fs signature a) : Public a := by
  obtain ⟨_, -, -, hpublic⟩ := h.eq
  exact hpublic

/-- The fields other than the signature, as the artifact reads them. -/
theorem get_body (h : Sealed P kind fs signature a) {key : JsString} (hkey : key ≠ js "signature_ref") :
    (Json.obj (fs ++ signature ++ safeBooleanBoundaries)).get key = (Json.obj (fs ++ safeBooleanBoundaries)).get key := by
  rw [get_obj_append, get_obj_append, get_obj_append fs]
  rcases h.signed with rfl | ⟨r, rfl, -⟩
  · rw [get_obj_nil, Option.or_none]
  · rw [get_obj_cons, if_neg hkey, get_obj_nil, Option.or_none]

theorem get (h : Sealed P kind fs signature a) {key : JsString} {v : Json}
    (hv : (Json.obj (fs ++ safeBooleanBoundaries)).get key = some v) (hkey : key ≠ js "signature_ref") : a.get key = some v := by
  obtain ⟨d, -, ha, -⟩ := h.eq
  rw [ha, get_obj_append, h.get_body hkey, hv]
  rfl

theorem get_signature (h : Sealed P kind fs signature a) (hfs : (Json.obj (fs ++ safeBooleanBoundaries)).get (js "signature_ref") = none) :
    a.get (js "signature_ref") = (Json.obj signature).get (js "signature_ref") := by
  have hnone : (Json.obj fs).get (js "signature_ref") = none ∧ (Json.obj safeBooleanBoundaries).get (js "signature_ref") = none := by
    rw [get_obj_append, Option.or_eq_none_iff] at hfs
    exact hfs
  obtain ⟨d, -, ha, -⟩ := h.eq
  have hids : (Json.obj [(js kind.idField, .str (js kind.prefixText ++ js "_" ++ shortDigest d)), (js kind.hashField, .str d)]).get
      (js "signature_ref") = none := by
    cases kind <;> rfl
  rw [ha, get_obj_append, hids, Option.or_none, get_obj_append, hnone.2, Option.or_none, get_obj_append, hnone.1, Option.none_or]

theorem signatureCheck (h : Sealed P kind fs signature a)
    (hfs : (Json.obj (fs ++ safeBooleanBoundaries)).get (js "signature_ref") = none) : signatureCheck a = .ok [] := by
  rw [ProofNetwork.signatureCheck, h.get_signature hfs]
  rcases h.signed with rfl | ⟨r, rfl, hr⟩
  · rfl
  · exact required_eq_ok.2 (hr.succeeds _)

theorem identity (h : Sealed P kind fs signature a)
    (hid : (Json.obj (fs ++ safeBooleanBoundaries)).get (js kind.idField) = none)
    (hhash : (Json.obj (fs ++ safeBooleanBoundaries)).get (js kind.hashField) = none) : validateIdentity P kind a = .ok [] := by
  have hkeys : js kind.idField ≠ js "signature_ref" ∧ js kind.hashField ≠ js "signature_ref" ∧ js kind.idField ≠ js kind.hashField := by
    cases kind <;> decide
  have hid' := (h.get_body hkeys.1).trans hid
  have hhash' := (h.get_body hkeys.2.1).trans hhash
  obtain ⟨d, hd, ha, -⟩ := h.eq
  have hbody : bodyWithoutIdentity kind a = .obj (fs ++ signature ++ safeBooleanBoundaries) := by
    have hkept : ∀ key, (Json.obj (fs ++ signature ++ safeBooleanBoundaries)).get key = none →
        (fs ++ signature ++ safeBooleanBoundaries).filter (fun f => decide (f.1 ≠ key)) = fs ++ signature ++ safeBooleanBoundaries :=
      fun key hnone => List.filter_eq_self.2 fun f hf =>
        decide_eq_true fun heq => get_eq_none_iff.1 hnone (List.mem_map.2 ⟨f, hf, heq⟩)
    have hids : ∀ x y : Json, ([(js kind.idField, x), (js kind.hashField, y)].filter fun f => decide (f.1 ≠ js kind.idField)).filter
        (fun f => decide (f.1 ≠ js kind.hashField)) = [] := by
      intro x y
      cases kind <;> rfl
    rw [ha, bodyWithoutIdentity, without, without, fields, fields, List.filter_append, List.filter_append, hkept _ hid', hkept _ hhash',
      hids, List.append_nil]
  have hidGet : a.get (js kind.idField) = some (.str (js kind.prefixText ++ js "_" ++ shortDigest d)) := by
    rw [ha, get_obj_append, hid', Option.none_or, get_obj_cons, if_pos rfl]
  have hhashGet : a.get (js kind.hashField) = some (.str d) := by
    rw [ha, get_obj_append, hhash', Option.none_or, get_obj_cons, if_neg hkeys.2.2.symm, get_obj_cons, if_pos rfl]
  rw [validateIdentity, hbody, hd, Except.ok_bind, hidGet, hhashGet]
  simp [isStr, errorIf]
  rfl

theorem valid (h : Sealed P kind fs signature a) {name : String} {checks : List Check}
    (hschema : (Json.obj (fs ++ safeBooleanBoundaries)).get (js "schema") = some (.str kind.schema))
    (hsafe : safeFieldNames.Forall fun key => (Json.obj (fs ++ safeBooleanBoundaries)).get (js key) = some (.bool false))
    (hchecks : checks.Forall (· = .ok [])) : collectValidation (header P kind a name ++ checks) = [] := by
  obtain ⟨d, -, ha, hpublic⟩ := h.eq
  refine collectValidation_eq_nil.2 (List.forall_iff_forall_mem.1 (List.forall_append.2 ⟨⟨?_, ?_, ?_, ?_⟩, hchecks⟩))
  · rw [ha]
    rfl
  · exact required_eq_ok.2 ⟨(), (assertNoPrivateProofPayload_ok _ _).2 hpublic⟩
  · rw [h.get hschema (by decide), isStr_iff.2 rfl, if_pos rfl]
  · refine congrArg Except.ok (List.flatMap_eq_nil_iff.2 fun key hkey => ?_)
    have hne : js key ≠ js "signature_ref" := by
      revert key
      decide
    rw [h.get (List.forall_iff_forall_mem.1 hsafe key hkey) hne]
    rfl

/-- The keys of a sealed artifact, signed. -/
def keys (names : List JsString) (kind : Kind) : List JsString :=
  names ++ [js "signature_ref"] ++ safeFieldNames.map js ++ [js kind.idField, js kind.hashField]

theorem uniqueKeys (h : Sealed P kind fs signature a) {names : List JsString} (hn : (keys names kind).Nodup)
    (hfs : fs.map Prod.fst = names) (hvals : fs.Forall fun f => f.2.UniqueKeys) : a.UniqueKeys := by
  obtain ⟨d, -, ha, -⟩ := h.eq
  have hsafe : safeBooleanBoundaries.map Prod.fst = safeFieldNames.map js := rfl
  have hsigned : (signature.map Prod.fst).Sublist [js "signature_ref"] ∧ ∀ f ∈ signature, f.2.UniqueKeys := by
    rcases h.signed with rfl | ⟨r, rfl, -⟩
    · exact ⟨List.nil_sublist _, by simp⟩
    · exact ⟨List.Sublist.refl _, by simpa using UniqueKeys.str r⟩
  rw [ha]
  refine .obj ?_ fun f hf => ?_
  · rw [List.map_append, List.map_append, List.map_append, hfs, hsafe]
    exact (((List.Sublist.refl names).append hsigned.1).append (List.Sublist.refl _)).append (List.Sublist.refl _) |>.nodup hn
  · rcases List.mem_append.1 hf with hf | hf
    · rcases List.mem_append.1 hf with hf | hf
      · rcases List.mem_append.1 hf with hf | hf
        · exact List.forall_iff_forall_mem.1 hvals f hf
        · exact hsigned.2 f hf
      · obtain ⟨name, -, rfl⟩ := List.mem_map.1 hf
        exact .bool false
    · rcases List.mem_pair.1 hf with rfl | rfl
      · exact .str _
      · exact .str _

end Sealed

theorem uniqueKeys_strings (texts : List JsString) : (strings texts).UniqueKeys := by
  refine .arr fun x hx => ?_
  obtain ⟨s, -, rfl⟩ := List.mem_map.1 hx
  exact .str s

/-! ## Checks on sealed fields -/

theorem rootCheck_sealed {a list : Json} {key : String} {x : Except JsError Json} {d : JsString} (hx : x = .ok list)
    (hd : sha256Json P list = .ok d) (hkey : a.get (js key) = some (.str d)) : rootCheck P a key x = .ok [] := by
  rw [rootCheck, hx, Except.ok_bind, hd, Except.ok_bind, hkey, isStr_iff.2 rfl]
  rfl

theorem required_of_passes {check : Option Json → JsString → Except JsError JsString} {value : Option Json} {s field : JsString}
    (hvalue : value = some (.str s)) (h : Passes check s) : required (check value field) = .ok [] := by
  rw [hvalue]
  exact required_eq_ok.2 (h.succeeds field)

theorem epoch_passes : Passes requiredString (js "1970-01-01T00:00:00.000Z") := requiredString_passes (by decide) rfl

theorem timestamp_passes {value : Option Json} {field s : JsString} (h : isoTimestamp P value field = .ok s) :
    Passes (isoTimestamp P) s :=
  isoTimestamp_passes (isoTimestampOr_passes h epoch_passes).1 (isoTimestampOr_passes h epoch_passes).2

theorem optionalRef_passes {value : Option Json} {fallback field s : JsString} (h : optionalPublicRef value fallback field = .ok s)
    (hfallback : Passes publicRef fallback) : Passes publicRef s := optionally_passes (testedString_settles _ _) h hfallback

theorem optionalDigest_passes {value : Option Json} {fallback field s : JsString} (h : optionalDigestRef value fallback field = .ok s)
    (hfallback : Passes digestRef fallback) : Passes digestRef s := optionally_passes (testedString_settles _ _) h hfallback

theorem refFrom_passes {kind : String} {d : JsString} (hkind : refTest (js kind ++ js ":") = true)
    (hlen : (js kind ++ js ":").length ≤ 160) (h : Passes digestRef d) : Passes publicRef (refFromDigest kind d) :=
  refFromDigest_passes hkind hlen (rootTest_of_passes h)

theorem sha256Json_passes {value : Json} {d : JsString} (h : sha256Json P value = .ok d) : Passes digestRef d :=
  digestRef_passes (rootTest_of_sha256Json h)

theorem ref_passes {value : Option Json} {field s : JsString} (h : publicRef value field = .ok s) : Passes publicRef s :=
  testedString_settles _ _ _ _ _ h

theorem digest_passes {value : Option Json} {field s : JsString} (h : digestRef value field = .ok s) : Passes digestRef s :=
  testedString_settles _ _ _ _ _ h

/-! ## The constructors -/

theorem Normalized.uniqueKeys {c : Json} (h : Normalized P c) : c.UniqueKeys := by
  obtain ⟨-, -, -, href, hcount⟩ := h
  have hkeys : [js "kind", js "root", js "ref", js "count"].Nodup := by decide
  rcases href with rfl | ⟨r, rfl, -⟩ <;> rcases hcount with rfl | ⟨n, rfl, -⟩
  · exact .obj (hkeys.sublist (by simp [field])) (by simp [field, UniqueKeys.str])
  · exact .obj (hkeys.sublist (by simp [field])) (by simp [field, UniqueKeys.str, UniqueKeys.num])
  · exact .obj (hkeys.sublist (by simp [field])) (by simp [field, UniqueKeys.str])
  · exact .obj (hkeys.sublist (by simp [field])) (by simp [field, UniqueKeys.str, UniqueKeys.num])

theorem mem_of_firstOf {v : Json} : ∀ {l : List (Option Json)}, firstOf l = some v → some v ∈ l
  | [], h => nomatch h
  | [w], h => List.mem_singleton.2 (Eq.symm h)
  | w :: u :: rest, h => by
    rw [firstOf] at h
    unfold orElse at h
    split at h
    · exact List.mem_cons_of_mem _ (mem_of_firstOf h)
    · exact List.mem_cons_of_mem _ (mem_of_firstOf h)
    · rw [← h]
      exact List.mem_cons_self

theorem uniqueKeys_fieldOf {input : Json} (h : input.UniqueKeys) (keys : List String) (v : Json) (hv : fieldOf input keys = some v) :
    v.UniqueKeys := by
  obtain ⟨key, -, hkey⟩ := List.mem_map.1 (mem_of_firstOf hv)
  exact h.get hkey

theorem uniqueKeys_arrayInput {value : Option Json} (h : ∀ v, value = some v → v.UniqueKeys) : ∀ x ∈ arrayInput value, x.UniqueKeys := by
  rcases value with _ | v
  · simp [arrayInput]
  · have hv := h v rfl
    cases hv with
    | arr hxs => exact hxs
    | null => simp [arrayInput]
    | bool b => simpa [arrayInput] using UniqueKeys.bool b
    | num q => simpa [arrayInput] using UniqueKeys.num q
    | str s => simpa [arrayInput] using UniqueKeys.str s
    | obj hn hvals => simpa [arrayInput] using UniqueKeys.obj hn hvals

theorem createProofNetworkAnchorBatch_valid (htotal : ∀ s t, P.localeLe s t = true ∨ P.localeLe t s = true)
    (htrans : ∀ s t u, P.localeLe s t = true → P.localeLe t u = true → P.localeLe s u = true) {input a : Json}
    (h : createProofNetworkAnchorBatch P input = .ok a) : validateProofNetworkAnchorBatch P a = [] ∧ a.UniqueKeys := by
  simp only [createProofNetworkAnchorBatch, Except.bind_eq_ok] at h
  obtain ⟨_, -, commitments, hcommitments, root, hroot, generatedAt, hgenerated, anchorRef, hanchor, chain, hchain, clusterRef, hcluster,
    instructionRef, hinstruction, hfreeze⟩ := h
  have hs : Sealed P .anchorBatch [(js "schema", .str Kind.anchorBatch.schema), (js "generated_at", .str generatedAt),
    (js "anchor_ref", .str anchorRef), (js "chain", .str chain), (js "cluster_ref", .str clusterRef),
    (js "commitment_count", .num commitments.length), (js "root_count", .num commitments.length),
    (js "commitment_root", .str root), (js "commitments", .arr commitments),
    (js "solana_ready_anchor", .obj [(js "payload_hash", .str root),
      (js "account_derivation_ref", .str (js "proofnet:" ++ shortDigest root)),
      (js "instruction_ref", .str instructionRef), (js "opaque_payload_only", .bool true)])] [] a := ⟨hfreeze, .inl rfl⟩
  have hlist : batchCommitments P a = .ok commitments := by
    obtain ⟨list, hne, hnormal, rfl⟩ := normalizeCommitments_ok hcommitments
    rw [batchCommitments_eq, hs.get (v := .arr (sortCommitments P list)) rfl (by decide)]
    exact listCommitments_again htotal htrans hne hnormal
  have hready : a.get (js "solana_ready_anchor") = _ := hs.get rfl (by decide)
  have hkeys : (Sealed.keys [js "schema", js "generated_at", js "anchor_ref", js "chain", js "cluster_ref", js "commitment_count",
    js "root_count", js "commitment_root", js "commitments", js "solana_ready_anchor"] .anchorBatch).Nodup := by decide
  have hitems : (Json.arr commitments).UniqueKeys := by
    obtain ⟨list, -, hnormal, rfl⟩ := normalizeCommitments_ok hcommitments
    exact .arr fun c hc => (hnormal c ((List.mem_insertionSort _).1 hc)).uniqueKeys
  have hanchorKeys : (Json.obj [(js "payload_hash", .str root),
      (js "account_derivation_ref", .str (js "proofnet:" ++ shortDigest root)), (js "instruction_ref", .str instructionRef),
      (js "opaque_payload_only", .bool true)]).UniqueKeys := by
    have hnames : [js "payload_hash", js "account_derivation_ref", js "instruction_ref", js "opaque_payload_only"].Nodup := by decide
    exact .obj hnames (List.forall_iff_forall_mem.1 ⟨.str _, .str _, .str _, .bool true⟩)
  refine ⟨?_, hs.uniqueKeys hkeys rfl ⟨.str _, .str _, .str _, .str _, .str _, .num _, .num _, .str _, hitems, hanchorKeys⟩⟩
  refine hs.valid rfl ⟨rfl, rfl, rfl, rfl, rfl⟩ ⟨?_, ?_, ?_, ?_, ?_, ?_, ?_, ?_, ?_, ?_⟩
  · exact required_of_passes (hs.get rfl (by decide)) (timestamp_passes hgenerated)
  · exact required_of_passes (hs.get rfl (by decide))
      (optionalRef_passes hanchor (refFrom_passes (by decide) (by decide) (sha256Json_passes hroot)))
  · exact required_of_passes (hs.get rfl (by decide)) (optionalRef_passes hchain (publicRef_passes (by decide)))
  · exact required_of_passes (hs.get rfl (by decide)) (optionalRef_passes hcluster (publicRef_passes (by decide)))
  · have hcount : a.get (js "commitment_count") = some (.num commitments.length) := hs.get rfl (by decide)
    have hroots : a.get (js "root_count") = some (.num commitments.length) := hs.get rfl (by decide)
    rw [hlist, Except.ok_bind, hcount, hroots, isNum_iff.2 rfl]
    rfl
  · exact rootCheck_sealed (by rw [hlist]; rfl) hroot (hs.get rfl (by decide))
  · have hpayload : isStr (path (a.get (js "solana_ready_anchor")) ["payload_hash"]) root = true :=
      isStr_iff.2 (by rw [hready]; rfl)
    rw [hlist, Except.ok_bind, hroot, Except.ok_bind]
    simp only [hpayload]
    rfl
  · rw [hready]
    rfl
  · rw [hready]
    exact required_of_passes rfl (optionalRef_passes hinstruction (publicRef_passes (by decide)))
  · exact hs.identity rfl rfl

theorem notAfter_sealed {a : Json} {late early : JsString} (hlate : a.get (js "expires_at") = some (.str late))
    (hearly : a.get (js "issued_at") = some (.str early)) (h : notAfter P (some (.str late)) (some (.str early)) = false) :
    (.ok (errorIf (notAfter P (a.get (js "expires_at")) (a.get (js "issued_at"))) expiryMessage) : Check) = .ok [] := by
  rw [hlate, hearly, h]
  rfl

theorem createCapabilityGrant_valid {input a : Json} (h : createCapabilityGrant P input = .ok a) :
    validateCapabilityGrant P a = [] ∧ a.UniqueKeys := by
  simp only [createCapabilityGrant, Except.bind_eq_ok] at h
  obtain ⟨_, -, roots, hroots, root, hroot, grantRef, hgrant, issuedAt, hissued, expiresAt, hexpires, issuerRef, hissuer, subjectRef,
    hsubject, audienceRef, haudience, scopes, hscopes, maxUses, huses, defaultNonce, hdefault, nonceHash, hnonce, signature, hsignature,
    h⟩ := h
  split at h
  · cases h
  · rename_i hexpiry
    have hs : Sealed P .capabilityGrant [(js "schema", .str Kind.capabilityGrant.schema), (js "issued_at", .str issuedAt),
      (js "expires_at", .str expiresAt), (js "grant_ref", .str grantRef), (js "issuer_ref", .str issuerRef),
      (js "subject_ref", .str subjectRef), (js "audience_ref", .str audienceRef), (js "scopes", strings scopes),
      (js "resource_root", .str root), (js "resource_roots", strings roots), (js "max_uses", .num maxUses),
      (js "nonce_hash", .str nonceHash)] signature a := ⟨h, signatureField_ok hsignature⟩
    have hfar : Passes requiredString (js "2100-01-01T00:00:00.000Z") := requiredString_passes (by decide) rfl
    have hexpires' := isoTimestampOr_passes hexpires hfar
    have hscopesGet : a.get (js "scopes") = some (strings scopes) := hs.get rfl (by decide)
    have husesGet : a.get (js "max_uses") = some (.num maxUses) := hs.get rfl (by decide)
    have hrootsGet : a.get (js "resource_roots") = some (strings roots) := hs.get rfl (by decide)
    have hkeys : (Sealed.keys [js "schema", js "issued_at", js "expires_at", js "grant_ref", js "issuer_ref", js "subject_ref",
      js "audience_ref", js "scopes", js "resource_root", js "resource_roots", js "max_uses", js "nonce_hash"] .capabilityGrant).Nodup := by
      decide
    refine ⟨?_, hs.uniqueKeys hkeys rfl ⟨.str _, .str _, .str _, .str _, .str _, .str _, .str _, uniqueKeys_strings _, .str _,
      uniqueKeys_strings _, .num _, .str _⟩⟩
    refine hs.valid rfl ⟨rfl, rfl, rfl, rfl, rfl⟩ ⟨?_, ?_, ?_, ?_, ?_, ?_, ?_, ?_, ?_, ?_, ?_, ?_, ?_⟩
    · exact required_of_passes (hs.get rfl (by decide)) (timestamp_passes hissued)
    · exact required_of_passes (hs.get rfl (by decide)) (isoTimestamp_passes hexpires'.1 hexpires'.2)
    · exact notAfter_sealed (hs.get rfl (by decide)) (hs.get rfl (by decide)) (Bool.eq_false_iff.2 hexpiry)
    · exact required_of_passes (hs.get rfl (by decide))
        (optionalRef_passes hgrant (refFrom_passes (by decide) (by decide) (sha256Json_passes hroot)))
    · exact required_of_passes (hs.get rfl (by decide)) (ref_passes hissuer)
    · exact required_of_passes (hs.get rfl (by decide)) (ref_passes hsubject)
    · exact required_of_passes (hs.get rfl (by decide)) (optionalRef_passes haudience (publicRef_passes (by decide)))
    · rw [hrootsGet]
      exact rootCheck_sealed (by rw [digestArray_again hroots]; rfl) hroot (hs.get rfl (by decide))
    · rw [hscopesGet]
      exact required_eq_ok.2 (publicScopes_again hscopes _)
    · rw [husesGet]
      exact required_eq_ok.2 ⟨_, nonNegativeInteger_again huses _⟩
    · exact required_of_passes (hs.get rfl (by decide)) (optionalDigest_passes hnonce (sha256Json_passes hdefault))
    · exact hs.signatureCheck rfl
    · exact hs.identity rfl rfl

theorem createCapabilityRevocation_valid {input a : Json} (h : createCapabilityRevocation P input = .ok a) :
    validateCapabilityRevocation P a = [] ∧ a.UniqueKeys := by
  simp only [createCapabilityRevocation, Except.bind_eq_ok] at h
  obtain ⟨_, -, grantHash, hgrant, defaultRoot, hdefault, nullifierRoot, hroot, revocationRef, hrevocation, grantId, hid, nullifierRef,
    hnullifier, revokedAt, hrevoked, issuerRef, hissuer, reasonRef, hreason, signature, hsignature, hfreeze⟩ := h
  have hs : Sealed P .capabilityRevocation [(js "schema", .str Kind.capabilityRevocation.schema),
    (js "revoked_at", .str revokedAt), (js "revocation_ref", .str revocationRef), (js "grant_id", .str grantId),
    (js "grant_hash", .str grantHash), (js "issuer_ref", .str issuerRef), (js "reason_ref", .str reasonRef),
    (js "nullifier_ref", .str nullifierRef), (js "nullifier_root", .str nullifierRoot)] signature a :=
    ⟨hfreeze, signatureField_ok hsignature⟩
  have hgrant' : Passes digestRef grantHash := testedString_settles _ _ _ _ _ hgrant
  have hroot' : Passes digestRef nullifierRoot := optionalDigest_passes hroot (digestRef_passes (rootTest_of_sha256Json hdefault))
  have hkeys : (Sealed.keys [js "schema", js "revoked_at", js "revocation_ref", js "grant_id", js "grant_hash", js "issuer_ref",
    js "reason_ref", js "nullifier_ref", js "nullifier_root"] .capabilityRevocation).Nodup := by decide
  refine ⟨?_, hs.uniqueKeys hkeys rfl ⟨.str _, .str _, .str _, .str _, .str _, .str _, .str _, .str _, .str _⟩⟩
  refine hs.valid rfl ⟨rfl, rfl, rfl, rfl, rfl⟩ ⟨?_, ?_, ?_, ?_, ?_, ?_, ?_, ?_, ?_, ?_⟩
  · exact required_of_passes (hs.get rfl (by decide)) (timestamp_passes hrevoked)
  · exact required_of_passes (hs.get rfl (by decide)) (optionalRef_passes hrevocation (refFrom_passes (by decide) (by decide) hgrant'))
  · exact required_of_passes (hs.get rfl (by decide)) (optionalRef_passes hid (refFrom_passes (by decide) (by decide) hgrant'))
  · exact required_of_passes (hs.get rfl (by decide)) hgrant'
  · exact required_of_passes (hs.get rfl (by decide)) (optionalRef_passes hissuer (publicRef_passes (by decide)))
  · exact required_of_passes (hs.get rfl (by decide)) (optionalRef_passes hreason (publicRef_passes (by decide)))
  · exact required_of_passes (hs.get rfl (by decide)) (optionalRef_passes hnullifier (refFrom_passes (by decide) (by decide) hroot'))
  · exact required_of_passes (hs.get rfl (by decide)) hroot'
  · exact hs.signatureCheck rfl
  · exact hs.identity rfl rfl

theorem createBenchmarkAttestation_valid {input a : Json} (h : createBenchmarkAttestation P input = .ok a) :
    validateBenchmarkAttestation P a = [] ∧ a.UniqueKeys := by
  simp only [createBenchmarkAttestation, Except.bind_eq_ok] at h
  obtain ⟨_, -, reportHash, hreport, metricRoots, hmetrics, attestedAt, hattested, benchmarkRef, hbenchmark, datasetRef, hdataset,
    runnerRef, hrunner, packageRef, hpackage, metricRoot, hroot, sampleCount, hsamples, runCount, hruns, signature, hsignature,
    hfreeze⟩ := h
  have hs : Sealed P .benchmarkAttestation [(js "schema", .str Kind.benchmarkAttestation.schema),
    (js "attested_at", .str attestedAt), (js "benchmark_ref", .str benchmarkRef), (js "dataset_ref", .str datasetRef),
    (js "runner_ref", .str runnerRef), (js "package_ref", .str packageRef), (js "report_hash", .str reportHash),
    (js "metric_root", .str metricRoot), (js "metric_roots", strings metricRoots), (js "sample_count", .num sampleCount),
    (js "run_count", .num runCount)] signature a := ⟨hfreeze, signatureField_ok hsignature⟩
  have hmetricsGet : a.get (js "metric_roots") = some (strings metricRoots) := hs.get rfl (by decide)
  have hsamplesGet : a.get (js "sample_count") = some (.num sampleCount) := hs.get rfl (by decide)
  have hrunsGet : a.get (js "run_count") = some (.num runCount) := hs.get rfl (by decide)
  have hkeys : (Sealed.keys [js "schema", js "attested_at", js "benchmark_ref", js "dataset_ref", js "runner_ref", js "package_ref",
    js "report_hash", js "metric_root", js "metric_roots", js "sample_count", js "run_count"] .benchmarkAttestation).Nodup := by decide
  refine ⟨?_, hs.uniqueKeys hkeys rfl ⟨.str _, .str _, .str _, .str _, .str _, .str _, .str _, .str _, uniqueKeys_strings _, .num _,
    .num _⟩⟩
  refine hs.valid rfl ⟨rfl, rfl, rfl, rfl, rfl⟩ ⟨?_, ?_, ?_, ?_, ?_, ?_, ?_, ?_, ?_, ?_, ?_⟩
  · exact required_of_passes (hs.get rfl (by decide)) (timestamp_passes hattested)
  · exact required_of_passes (hs.get rfl (by decide)) (optionalRef_passes hbenchmark (publicRef_passes (by decide)))
  · exact required_of_passes (hs.get rfl (by decide)) (ref_passes hdataset)
  · exact required_of_passes (hs.get rfl (by decide)) (ref_passes hrunner)
  · exact required_of_passes (hs.get rfl (by decide)) (ref_passes hpackage)
  · exact required_of_passes (hs.get rfl (by decide)) (digest_passes hreport)
  · rw [hmetricsGet]
    exact rootCheck_sealed (by rw [digestArray_again hmetrics]; rfl) hroot (hs.get rfl (by decide))
  · rw [hsamplesGet]
    exact required_eq_ok.2 ⟨_, nonNegativeInteger_again hsamples _⟩
  · rw [hrunsGet]
    exact required_eq_ok.2 ⟨_, positiveInteger_again hruns _⟩
  · exact hs.signatureCheck rfl
  · exact hs.identity rfl rfl

theorem registryEntryType_mem {value : Option Json} {field type : JsString} (h : registryEntryType value field = .ok type) :
    type ∈ registryEntryTypes := by
  rw [registryEntryType] at h
  split at h
  · cases h
  · obtain ⟨t, -, ht⟩ := Except.bind_eq_ok.1 h
    split at ht
    · rename_i hmem
      obtain rfl : t = type := Except.ok.inj ht
      exact hmem
    · cases ht

theorem createRegistryEntry_valid {input a : Json} (h : createRegistryEntry P input = .ok a) :
    validateRegistryEntry P a = [] ∧ a.UniqueKeys := by
  simp only [createRegistryEntry, Except.bind_eq_ok] at h
  obtain ⟨_, -, entryType, htype, artifactHash, hartifact, schemaRef, hschema, digestRefs, hdigests, signerRefs, hsigners, entryRef, hentry,
    registeredAt, hregistered, registryRef, hregistry, digestRoot, hroot, entryCount, hcount, signature, hsignature, hfreeze⟩ := h
  have hs : Sealed P .registryEntry [(js "schema", .str Kind.registryEntry.schema), (js "registered_at", .str registeredAt),
    (js "entry_type", .str entryType), (js "entry_ref", .str entryRef), (js "registry_ref", .str registryRef),
    (js "artifact_schema_ref", .str schemaRef), (js "artifact_hash", .str artifactHash), (js "digest_root", .str digestRoot),
    (js "digest_refs", strings digestRefs), (js "signer_refs", strings signerRefs), (js "entry_count", .num entryCount)] signature a :=
    ⟨hfreeze, signatureField_ok hsignature⟩
  have htypeGet : a.get (js "entry_type") = some (.str entryType) := hs.get rfl (by decide)
  have hdigestsGet : a.get (js "digest_refs") = some (strings digestRefs) := hs.get rfl (by decide)
  have hsignersGet : a.get (js "signer_refs") = some (strings signerRefs) := hs.get rfl (by decide)
  have hcountGet : a.get (js "entry_count") = some (.num entryCount) := hs.get rfl (by decide)
  have hkeys : (Sealed.keys [js "schema", js "registered_at", js "entry_type", js "entry_ref", js "registry_ref",
    js "artifact_schema_ref", js "artifact_hash", js "digest_root", js "digest_refs", js "signer_refs", js "entry_count"]
    .registryEntry).Nodup := by decide
  refine ⟨?_, hs.uniqueKeys hkeys rfl ⟨.str _, .str _, .str _, .str _, .str _, .str _, .str _, .str _, uniqueKeys_strings _,
    uniqueKeys_strings _, .num _⟩⟩
  refine hs.valid rfl ⟨rfl, rfl, rfl, rfl, rfl⟩ ⟨?_, ?_, ?_, ?_, ?_, ?_, ?_, ?_, ?_, ?_, ?_⟩
  · exact required_of_passes (hs.get rfl (by decide)) (timestamp_passes hregistered)
  · have hany : registryEntryTypes.any (isStr (a.get (js "entry_type"))) = true :=
      List.any_eq_true.2 ⟨entryType, registryEntryType_mem htype, isStr_iff.2 htypeGet⟩
    rw [if_pos hany]
  · exact required_of_passes (hs.get rfl (by decide))
      (optionalRef_passes hentry (refFrom_passes (by decide) (by decide) (digest_passes hartifact)))
  · exact required_of_passes (hs.get rfl (by decide)) (optionalRef_passes hregistry (publicRef_passes (by decide)))
  · exact required_of_passes (hs.get rfl (by decide)) (ref_passes hschema)
  · exact required_of_passes (hs.get rfl (by decide)) (digest_passes hartifact)
  · rw [hdigestsGet]
    exact rootCheck_sealed (by rw [digestArray_again hdigests]; rfl) hroot (hs.get rfl (by decide))
  · rw [hsignersGet]
    exact required_eq_ok.2 (publicRefArray_again hsigners _)
  · rw [hcountGet]
    exact required_eq_ok.2 ⟨_, nonNegativeInteger_again hcount _⟩
  · exact hs.signatureCheck rfl
  · exact hs.identity rfl rfl

/-! ## Artifacts of artifacts -/

section Members

variable {M : Membership} {hash : Json → JsString → Except JsError JsString} {a : Json}

/-- A member that is not refused, and is valid. -/
structure Membership.Admitted (M : Membership) (x : Json) : Prop where
  plain : x.isPlainRecord = true
  refused : M.refused x = none
  valid : M.validate x = []

theorem Membership.admit_ok {x : Json} {name : JsString} (h : M.admitItem x name = .ok ()) : M.Admitted x := by
  rw [Membership.admitItem, Except.check_eq_ok, requiredObject] at h
  obtain ⟨hplain, h⟩ := h
  split at hplain
  · rename_i hrecord
    split at h
    · cases h
    · rename_i hrefused
      split at h
      · rename_i hvalid
        exact ⟨hrecord, hrefused, List.isEmpty_iff.1 hvalid⟩
      · cases h
  · cases hplain

theorem admit_all {items : List Json} {field : JsString} {units : List Unit}
    (h : (items.zipIdx.mapM fun x => M.admitItem x.1 (itemField P field x.2)) = .ok units) : ∀ x ∈ items, M.Admitted x := by
  intro x hx
  obtain ⟨i, hi, rfl⟩ := List.getElem_of_mem hx
  have hmem : (items[i], i) ∈ items.zipIdx := List.mk_mem_zipIdx_iff_getElem?.2 (List.getElem?_eq_getElem hi)
  obtain ⟨_, -, hok⟩ := Except.exists_of_mapM_mem h hmem
  exact Membership.admit_ok hok

/-- The checks of a list of members that were admitted, and whose hashes the artifact lists. -/
theorem memberChecks_ok {digestOf : Json → JsString} {field countKey rootKey hashesKey : String} {items : List Json} {root : JsString}
    (hlow : items.length ≠ 0) (hhigh : items.length ≤ 128) (hadmitted : ∀ x ∈ items, M.Admitted x)
    (hhash : ∀ x ∈ items, ∀ name, hash x name = .ok (digestOf x)) (hcount : a.get (js countKey) = some (.num items.length))
    (hroot : sha256Json P (strings (sortStrings (items.map digestOf))) = .ok root) (hrootKey : a.get (js rootKey) = some (.str root))
    (hhashesKey : a.get (js hashesKey) = some (strings (sortStrings (items.map digestOf)))) :
    (memberChecks P M hash field countKey rootKey hashesKey a items).Forall (· = .ok []) := by
  have hhashes : M.hashes P hash field items = .ok (sortStrings (items.map digestOf)) := by
    have hkept : items.zipIdx.filter (fun x => (M.refused x.1).isNone) = items.zipIdx :=
      List.filter_eq_self.2 fun x hx => by rw [(hadmitted x.1 (List.fst_mem_of_mem_zipIdx hx)).refused]; rfl
    have hitem : ∀ x ∈ items.zipIdx, hash x.1 (itemField P (js field) x.2) = .ok (digestOf x.1) := fun x hx =>
      hhash x.1 (List.fst_mem_of_mem_zipIdx hx) _
    have hmap : items.zipIdx.map (fun x => digestOf x.1) = items.map digestOf := by
      have hfst : (items.zipIdx.map Prod.fst).map digestOf = items.zipIdx.map fun x => digestOf x.1 := List.map_map
      rw [← hfst, List.zipIdx_map_fst]
    rw [Membership.hashes, hkept, Except.mapM_of_forall hitem, hmap]
    rfl
  rw [memberChecks, List.forall_append, List.forall_append]
  refine ⟨⟨?_, ?_⟩, ?_, ?_, ?_⟩
  · simp [errorIf, hlow]
    omega
  · refine List.forall_iff_forall_mem.2 fun c hc => ?_
    obtain ⟨x, hx, hc⟩ := List.mem_flatMap.1 hc
    have hmem := List.fst_mem_of_mem_zipIdx hx
    have h := hadmitted x.1 hmem
    rw [Membership.checks, requiredObject, h.plain, h.refused, h.valid] at hc
    rcases List.mem_pair.1 hc with rfl | rfl
    · rfl
    · exact required_eq_ok.2 ⟨_, hhash x.1 hmem _⟩
  · rw [hcount, isNum_iff.2 rfl]
    rfl
  · exact rootCheck_sealed (by rw [hhashes]; rfl) hroot hrootKey
  · rw [hhashes, hhashesKey]
    simp [Except.map, errorIf]

end Members

/-- The name in its message is nothing to what a hash is. -/
def Nameless (hash : Json → JsString → Except JsError JsString) : Prop :=
  ∀ x name s, hash x name = .ok s → ∀ name', hash x name' = .ok s

/-- The text that a member gives as its hash. -/
def hashOf (hash : Json → JsString → Except JsError JsString) (x : Json) : JsString := ((hash x []).toOption).getD []

theorem Nameless.hashOf_eq {hash : Json → JsString → Except JsError JsString} (h : Nameless hash) {x : Json} {name s : JsString}
    (hs : hash x name = .ok s) : hashOf hash x = s := by
  rw [hashOf, h x name s hs]
  rfl

theorem Nameless.hash {hash : Json → JsString → Except JsError JsString} (h : Nameless hash) {x : Json} {name s : JsString}
    (hs : hash x name = .ok s) (name' : JsString) : hash x name' = .ok (hashOf hash x) := by
  rw [h.hashOf_eq hs]
  exact h x name s hs name'

theorem requiredString_nameless {value : Option Json} {field s : JsString} (h : requiredString value field = .ok s) (field' : JsString) :
    requiredString value field' = .ok s := by
  unfold requiredString at h
  split at h
  · split at h
    · cases h
    · rename_i hne
      rw [requiredString, if_neg hne]
      exact h
  · cases h

theorem entryHash_nameless : Nameless entryHash := fun _ _ _ h _ => requiredString_nameless h _

theorem artifactHash_nameless : Nameless artifactHash := by
  intro x name s h name'
  rw [artifactHash] at h ⊢
  cases hkind : kindOf x with
  | none =>
    rw [hkind] at h
    cases h
  | some kind =>
    rw [hkind] at h
    exact requiredString_nameless h _

/-- A list of hashes is the hashes of the list. -/
theorem Nameless.mapM {hash : Json → JsString → Except JsError JsString} (h : Nameless hash) {items : List Json}
    {name : Json × ℕ → JsString} {hashes : List JsString} (hm : (items.zipIdx.mapM fun x => hash x.1 (name x)) = .ok hashes) :
    hashes = items.map (hashOf hash) ∧ ∀ x ∈ items, ∀ name', hash x name' = .ok (hashOf hash x) := by
  have hitem : ∀ x ∈ items.zipIdx, ∀ name', hash x.1 name' = .ok (hashOf hash x.1) := by
    intro x hx
    obtain ⟨s, -, hs⟩ := Except.exists_of_mapM_mem hm hx
    exact h.hash hs
  have hfst : (items.zipIdx.map Prod.fst).map (hashOf hash) = items.zipIdx.map fun x => hashOf hash x.1 := List.map_map
  have hmap := Except.mapM_of_forall fun x hx => hitem x hx (name x)
  rw [hm, Except.ok.injEq, ← hfst, List.zipIdx_map_fst] at hmap
  refine ⟨hmap, fun x hx name' => ?_⟩
  obtain ⟨i, hi, rfl⟩ := List.getElem_of_mem hx
  exact hitem (items[i], i) (List.mk_mem_zipIdx_iff_getElem?.2 (List.getElem?_eq_getElem hi)) name'

theorem createRegistryBatch_valid {input a : Json} (hu : input.UniqueKeys) (h : createRegistryBatch P input = .ok a) :
    validateRegistryBatch P a = [] ∧ a.UniqueKeys := by
  simp only [createRegistryBatch, Except.throw_if_eq_ok, Except.bind_eq_ok] at h
  obtain ⟨_, -, units, hunits, hlow, hhigh, hashes, hhashes, root, hroot, createdAt, hcreated, registryRef, hregistry, hfreeze⟩ := h
  have hinput : ∀ x ∈ arrayInput (fieldOf input ["entries", "registry_entries", "registryEntries"]), x.UniqueKeys :=
    uniqueKeys_arrayInput (uniqueKeys_fieldOf hu _)
  revert hunits hlow hhigh hhashes hfreeze hinput
  generalize arrayInput (fieldOf input ["entries", "registry_entries", "registryEntries"]) = entries
  intro hunits hlow hhigh hhashes hfreeze hinput
  have hzip : (entries.zipIdx.mapM fun x => entryHash x.1 (js "entries")) = .ok hashes := by
    have hmap : (entries.zipIdx.map Prod.fst).mapM (fun entry => entryHash entry (js "entries")) =
        entries.zipIdx.mapM fun x => entryHash x.1 (js "entries") := List.mapM_map
    rw [← hmap, List.zipIdx_map_fst, hhashes]
  obtain ⟨rfl, hhash⟩ := entryHash_nameless.mapM hzip
  have hs : Sealed P .registryBatch [(js "schema", .str Kind.registryBatch.schema), (js "created_at", .str createdAt),
    (js "registry_ref", .str registryRef), (js "entry_count", .num entries.length), (js "registry_root", .str root),
    (js "entry_hashes", strings (sortStrings (entries.map (hashOf entryHash)))), (js "entries", .arr entries)] [] a :=
    ⟨hfreeze, .inl rfl⟩
  have hentries : a.get (js "entries") = some (.arr entries) := hs.get rfl (by decide)
  have hkeys : (Sealed.keys [js "schema", js "created_at", js "registry_ref", js "entry_count", js "registry_root", js "entry_hashes",
    js "entries"] .registryBatch).Nodup := by decide
  refine ⟨?_, hs.uniqueKeys hkeys rfl ⟨.str _, .str _, .str _, .num _, .str _, uniqueKeys_strings _, .arr hinput⟩⟩
  rw [validateRegistryBatch, List.append_assoc, List.append_assoc]
  refine hs.valid rfl ⟨rfl, rfl, rfl, rfl, rfl⟩ (List.forall_append.2 ⟨⟨?_, ?_⟩, List.forall_append.2 ⟨?_, ?_⟩⟩)
  · exact required_of_passes (hs.get rfl (by decide)) (timestamp_passes hcreated)
  · exact required_of_passes (hs.get rfl (by decide))
      (optionalRef_passes hregistry (refFrom_passes (by decide) (by decide) (sha256Json_passes hroot)))
  · rw [listChecks, hentries]
    exact memberChecks_ok hlow (not_lt.1 hhigh) (admit_all hunits) hhash (hs.get rfl (by decide)) hroot (hs.get rfl (by decide))
      (hs.get rfl (by decide))
  · exact hs.identity rfl rfl

theorem kindOf_packet {x : Json} (h : x.get (js "schema") = some (.str Kind.packet.schema)) : kindOf x = some .packet := by
  rw [kindOf, h]
  decide

/-- What a constructor takes, the validator does not refuse. -/
theorem Membership.Admitted.artifact {x : Json} (h : (artifactAdmission P).Admitted x) : (artifactMembership P).Admitted x where
  plain := h.plain
  refused := by
    have hnot : isStr (x.get (js "schema")) Kind.packet.schema = false := by
      refine Bool.eq_false_iff.2 fun hschema => ?_
      have hrefused := h.refused
      simp only [artifactAdmission, kindOf_packet (isStr_iff.1 hschema)] at hrefused
      cases hrefused
    simp only [artifactMembership, hnot]
    rfl
  valid := h.valid

theorem packet_valid {artifacts : List Json} {units : List Unit} {hashes : List JsString} {root createdAt packetRef field : JsString}
    {created ref : Option Json} {a : Json} (hlow : ¬artifacts.length = 0) (hhigh : ¬128 < artifacts.length)
    (hunits : (artifacts.zipIdx.mapM fun x => (artifactAdmission P).admitItem x.1 (itemField P (js "artifacts") x.2)) = .ok units)
    (hhashes : (artifacts.zipIdx.mapM fun x => artifactHash x.1 (itemField P (js "artifacts") x.2)) = .ok hashes)
    (hroot : sha256Json P (strings (sortStrings hashes)) = .ok root) (hcreated : isoTimestamp P created field = .ok createdAt)
    (hpacket : optionalPublicRef ref (refFromDigest "packet" root) (js "packet_ref") = .ok packetRef)
    (hfreeze : freezeArtifact P .packet (.obj ([(js "schema", .str Kind.packet.schema), (js "created_at", .str createdAt),
      (js "packet_ref", .str packetRef), (js "artifact_count", .num artifacts.length), (js "artifact_root", .str root),
      (js "artifact_hashes", strings (sortStrings hashes)), (js "artifacts", .arr artifacts)] ++ safeBooleanBoundaries)) = .ok a)
    (hinput : ∀ x ∈ artifacts, x.UniqueKeys) : validateProofNetworkPacket P a = [] ∧ a.UniqueKeys := by
  obtain ⟨rfl, hhash⟩ := artifactHash_nameless.mapM hhashes
  have hs : Sealed P .packet [(js "schema", .str Kind.packet.schema), (js "created_at", .str createdAt),
    (js "packet_ref", .str packetRef), (js "artifact_count", .num artifacts.length), (js "artifact_root", .str root),
    (js "artifact_hashes", strings (sortStrings (artifacts.map (hashOf artifactHash)))), (js "artifacts", .arr artifacts)] [] a :=
    ⟨hfreeze, .inl rfl⟩
  have hartifacts : a.get (js "artifacts") = some (.arr artifacts) := hs.get rfl (by decide)
  have hkeys : (Sealed.keys [js "schema", js "created_at", js "packet_ref", js "artifact_count", js "artifact_root",
    js "artifact_hashes", js "artifacts"] .packet).Nodup := by decide
  refine ⟨?_, hs.uniqueKeys hkeys rfl ⟨.str _, .str _, .str _, .num _, .str _, uniqueKeys_strings _, .arr hinput⟩⟩
  rw [validateProofNetworkPacket, List.append_assoc, List.append_assoc]
  refine hs.valid rfl ⟨rfl, rfl, rfl, rfl, rfl⟩ (List.forall_append.2 ⟨⟨?_, ?_⟩, List.forall_append.2 ⟨?_, ?_⟩⟩)
  · exact required_of_passes (hs.get rfl (by decide)) (timestamp_passes hcreated)
  · exact required_of_passes (hs.get rfl (by decide))
      (optionalRef_passes hpacket (refFrom_passes (by decide) (by decide) (sha256Json_passes hroot)))
  · rw [listChecks, hartifacts]
    exact memberChecks_ok hlow (not_lt.1 hhigh) (fun x hx => (admit_all hunits x hx).artifact) hhash (hs.get rfl (by decide)) hroot
      (hs.get rfl (by decide)) (hs.get rfl (by decide))
  · exact hs.identity rfl rfl

theorem createProofNetworkPacket_valid {input a : Json} (hu : input.UniqueKeys) (h : createProofNetworkPacket P input = .ok a) :
    validateProofNetworkPacket P a = [] ∧ a.UniqueKeys := by
  simp only [createProofNetworkPacket, Except.throw_if_eq_ok, Except.bind_eq_ok] at h
  obtain ⟨_, -, hlow, hhigh, units, hunits, hashes, hhashes, root, hroot, createdAt, hcreated, packetRef, hpacket, hfreeze⟩ := h
  refine packet_valid hlow hhigh hunits hhashes hroot hcreated hpacket hfreeze fun x hx => ?_
  simp only [List.mem_append] at hx
  have hfield : ∀ keys : List String, ∀ y ∈ arrayInput (fieldOf input keys), y.UniqueKeys := fun keys =>
    uniqueKeys_arrayInput (uniqueKeys_fieldOf hu _)
  have hget : ∀ key : String, ∀ y ∈ arrayInput (input.get (js key)), y.UniqueKeys := fun key =>
    uniqueKeys_arrayInput fun v hv => hu.get hv
  rcases hx with (((((((hx | hx) | hx) | hx) | hx) | hx) | hx) | hx) | hx
  · exact hget _ x hx
  · exact hfield _ x hx
  · exact hfield _ x hx
  · exact hfield _ x hx
  · exact hget _ x hx
  · exact hfield _ x hx
  · exact hget _ x hx
  · exact hfield _ x hx
  · exact hget _ x hx

/-- **What a constructor returns, its validator accepts.** -/
theorem create_valid (htotal : ∀ s t, P.localeLe s t = true ∨ P.localeLe t s = true)
    (htrans : ∀ s t u, P.localeLe s t = true → P.localeLe t u = true → P.localeLe s u = true) {kind : Kind} {input a : Json}
    (hu : input.UniqueKeys) (h : create P kind input = .ok a) : validate P kind a = [] ∧ a.UniqueKeys := by
  cases kind with
  | anchorBatch => exact createProofNetworkAnchorBatch_valid htotal htrans h
  | capabilityGrant => exact createCapabilityGrant_valid h
  | capabilityRevocation => exact createCapabilityRevocation_valid h
  | benchmarkAttestation => exact createBenchmarkAttestation_valid h
  | packet => exact createProofNetworkPacket_valid hu h
  | registryEntry => exact createRegistryEntry_valid h
  | registryBatch => exact createRegistryBatch_valid hu h

end ProofNetwork

end EnigmaMemory
