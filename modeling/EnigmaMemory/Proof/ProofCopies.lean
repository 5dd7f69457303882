import EnigmaMemory.Proof.ProofDigest

/-!
# Validators on copies

A validator says of the copy of a public value what it says of the value
(`validate_canonicalize`): each check reads fields, a copy has the copies of the fields, and no
check tells a value from its copy.
-/

namespace EnigmaMemory

open Json

/-- The copy of a field that may be missing. -/
abbrev copied (value : Option Json) : Option Json := value.map Settlement.canonicalize

section Values

open Settlement (protoKey)

variable (F : NumberFormat)

theorem copied_eq_str {v : Option Json} {s : JsString} : copied v = some (.str s) ↔ v = some (.str s) := by
  rcases v with _ | v
  · simp
  · cases v <;> simp [Settlement.canonicalize]

theorem isStr_copied (v : Option Json) (s : JsString) : isStr (copied v) s = isStr v s := by
  rw [Bool.eq_iff_iff, isStr_iff, isStr_iff, copied_eq_str]

theorem isNum_copied (v : Option Json) (q : ℚ) : isNum (copied v) q = isNum v q := by
  rcases v with _ | v
  · rfl
  · cases v <;> rfl

theorem orElse_copied (v w : Option Json) : orElse (copied v) (copied w) = copied (orElse v w) := by
  rcases v with _ | v
  · rfl
  · cases v <;> rfl

theorem firstOf_copied (l : List (Option Json)) : firstOf (l.map copied) = copied (firstOf l) := by
  induction l with
  | nil => rfl
  | cons v l ih =>
    cases l with
    | nil => rfl
    | cons w l => rw [List.map_cons, List.map_cons, firstOf, ← List.map_cons, ih, orElse_copied, firstOf]

theorem isPlainRecord_canonicalize (j : Json) : (Settlement.canonicalize j).isPlainRecord = j.isPlainRecord := by
  cases j <;> rfl

theorem path_copied {keys : List String} (h : ∀ key ∈ keys, js key ≠ protoKey) : ∀ v : Option Json,
    path (copied v) keys = copied (path v keys) := by
  induction keys with
  | nil => exact fun _ => rfl
  | cons key keys ih =>
    intro v
    have hget : (copied v).bind (·.get (js key)) = copied (v.bind (·.get (js key))) := by
      rcases v with _ | v
      · rfl
      · exact Settlement.get_canonicalize_of_ne (h key List.mem_cons_self) v
    rw [path, hget, ih (fun k hk => h k (List.mem_cons_of_mem _ hk)), path]

theorem toText_canonicalize (j : Json) : (Settlement.canonicalize j).toText F = j.toText F := by
  induction j using Json.ind with
  | harr xs ih =>
    have hitems : ∀ ys : List Json, (∀ y ∈ ys, (Settlement.canonicalize y).toText F = y.toText F) →
        toTextItems F (ys.map Settlement.canonicalize) = toTextItems F ys := by
      intro ys
      induction ys with
      | nil => exact fun _ => rfl
      | cons y ys ihs =>
        intro hys
        have hrest := ihs fun z hz => hys z (List.mem_cons_of_mem _ hz)
        have hy := hys y List.mem_cons_self
        cases y <;> simp_all [Settlement.canonicalize, toTextItems]
    rw [Settlement.canonicalize_arr, toText, toText, hitems xs ih]
  | hobj fs ih => rfl
  | _ => rfl

theorem toNumeric_copied (v : Option Json) : toNumeric F (copied v) = toNumeric F v := by
  rcases v with _ | v
  · rfl
  · have hprim : toPrimitive F (Settlement.canonicalize v) = toPrimitive F v := by
      cases v with
      | arr xs => exact congrArg Json.str (toText_canonicalize F (.arr xs))
      | _ => rfl
    rw [toNumeric, copied, Option.map_some, Option.map_some, hprim]
    rfl

end Values

namespace ProofNetwork

open Settlement (protoKey)

variable {P : Platform}

/-! ## Checks on values -/

/-- A check that cannot tell a value from its copy. -/
def Blind {α : Type} (check : Option Json → JsString → Except JsError α) : Prop :=
  ∀ value field, check (copied value) field = check value field

theorem requiredString_blind : Blind requiredString := by
  intro v field
  rcases v with _ | v
  · rfl
  · cases v <;> rfl

theorem isBlank_copied (v : Option Json) : isBlank (copied v) = isBlank v := by
  rcases v with _ | v
  · rfl
  · cases v <;> rfl

theorem Blind.optionally {check : Option Json → JsString → Except JsError JsString} (h : Blind check) (fallback : JsString) :
    Blind fun value field => optionally check value fallback field := by
  intro v field
  simp only [ProofNetwork.optionally, isBlank_copied, h v field]

theorem testedString_blind (test : JsString → Bool) (message : String) : Blind (testedString test message) := by
  intro v field
  rw [testedString, requiredString_blind, testedString]

theorem isoTimestampOr_blind (fallback : JsString) : Blind fun value field => isoTimestampOr P value field fallback := by
  intro v field
  simp only [isoTimestampOr, optionalString, requiredString_blind.optionally fallback v field]

theorem isoTimestamp_blind : Blind (isoTimestamp P) := isoTimestampOr_blind _

theorem testedInteger_blind (test : ℚ → Bool) (message : String) : Blind (testedInteger P test message) := by
  intro v field
  rw [testedInteger, toNumeric_copied, testedInteger]

theorem nonNegativeInteger_blind (fallback : ℚ) : Blind fun value field => nonNegativeInteger P value field fallback := by
  intro v field
  have helse : orElse (copied v) (some (.num fallback)) = copied (orElse v (some (.num fallback))) :=
    orElse_copied v (some (.num fallback))
  simp only [nonNegativeInteger, helse, testedInteger_blind _ _ _ field]

theorem positiveInteger_blind : Blind (positiveInteger P) := testedInteger_blind _ _

theorem listOf_copied (v : Option Json) : listOf (copied v) = (listOf v).map copied := by
  rcases v with _ | v
  · rfl
  · cases v with
    | arr xs => rw [copied, Option.map_some, Settlement.canonicalize_arr, listOf, listOf, List.map_map, List.map_map]; rfl
    | _ => rfl

theorem checkItems_copied {check : Option Json → JsString → Except JsError JsString} (h : Blind check)
    (list : List (Option Json)) (field : JsString) : checkItems P check (list.map copied) field = checkItems P check list field := by
  have hitem : ((fun x : Option Json × ℕ => check x.1 (itemField P field x.2)) ∘ Prod.map copied id) =
      fun x => check x.1 (itemField P field x.2) := funext fun x => h x.1 _
  rw [checkItems, checkItems, List.zipIdx_map, List.mapM_map, hitem]

theorem scope_blind : Blind scope := testedString_blind _ _

theorem digestRef_blind : Blind digestRef := testedString_blind _ _

theorem publicRef_blind : Blind publicRef := testedString_blind _ _

theorem signatureRef_blind : Blind signatureRef := testedString_blind _ _

theorem publicScopes_blind : Blind (publicScopes P) := by
  intro v field
  rw [publicScopes, listOf_copied, List.length_map, checkItems_copied scope_blind, publicScopes]

theorem digestArray_blind : Blind (digestArray P) := by
  intro v field
  rw [digestArray, listOf_copied, List.length_map, checkItems_copied digestRef_blind, digestArray]

/-- The references of a list that is given. -/
theorem publicRefArray_some {v : Json} (h : v ≠ .null) (field : JsString) :
    publicRefArray P (some v) field = (do
      if 64 < (listOf (some v)).length then throw (typeError (field ++ js " must contain 0-64 refs"))
      let refs ← checkItems P publicRef (listOf (some v)) field
      return sortStrings refs) := by
  cases v with
  | null => exact absurd rfl h
  | _ => rfl

theorem canonicalize_eq_null {v : Json} : Settlement.canonicalize v = .null ↔ v = .null := by
  cases v <;> simp [Settlement.canonicalize]

theorem publicRefArray_blind : Blind (publicRefArray P) := by
  intro v field
  rcases v with _ | v
  · rfl
  · by_cases h : v = .null
    · rw [h]
      rfl
    · have hcopy : Settlement.canonicalize v ≠ .null := fun hn => h (canonicalize_eq_null.1 hn)
      have hlist : listOf (some (Settlement.canonicalize v)) = (listOf (some v)).map copied := listOf_copied (some v)
      rw [copied, Option.map_some, publicRefArray_some hcopy, publicRefArray_some h, hlist, List.length_map,
        checkItems_copied publicRef_blind]

/-! ## Commitments -/

theorem fieldOf_canonicalize {keys : List String} (h : ∀ key ∈ keys, js key ≠ protoKey) (j : Json) :
    fieldOf (Settlement.canonicalize j) keys = copied (fieldOf j keys) := by
  rw [fieldOf, fieldOf, ← firstOf_copied, List.map_map]
  exact congrArg firstOf (List.map_congr_left fun key hkey => Settlement.get_canonicalize_of_ne (h key hkey) j)

theorem commitmentKind_copied (v : Option Json) : commitmentKind (copied v) = commitmentKind v := by
  have hkind : optionalString (copied v) (js "memory_root") (js "kind") = optionalString v (js "memory_root") (js "kind") :=
    requiredString_blind.optionally _ v _
  rw [commitmentKind, hkind, commitmentKind]

theorem givenRef_blind : Blind givenRef := by
  intro v field
  rw [givenRef, isBlank_copied, publicRef_blind, givenRef]

theorem givenCount_blind : Blind (givenCount P) := by
  intro v field
  rcases v with _ | v
  · rfl
  · have hcount := congrArg (Except.map fun count => some (Json.num count)) (positiveInteger_blind (P := P) (some v) field)
    cases v with
    | null => rfl
    | _ => exact hcount

theorem arrayInput_copied (v : Option Json) : arrayInput (copied v) = (arrayInput v).map Settlement.canonicalize := by
  rcases v with _ | v
  · rfl
  · cases v with
    | arr xs => rw [copied, Option.map_some, Settlement.canonicalize_arr, arrayInput, arrayInput]
    | _ => rfl

theorem commitmentObject_canonicalize (item : Json) (index : ℕ) :
    commitmentObject P (Settlement.canonicalize item) index = commitmentObject P item index := by
  have hget : ∀ key : String, js key ≠ protoKey → (Settlement.canonicalize item).get (js key) = copied (item.get (js key)) :=
    fun key h => Settlement.get_canonicalize_of_ne h item
  have hfirst : ∀ v w u : Option Json, firstOf [copied v, copied w, copied u] = copied (firstOf [v, w, u]) := fun v w u =>
    firstOf_copied [v, w, u]
  have hobject : requiredObject (Settlement.canonicalize item) = requiredObject item := by
    funext field
    rw [requiredObject, isPlainRecord_canonicalize, requiredObject]
  simp only [commitmentObject, hobject, hget "kind" (by decide), hget "root" (by decide), hget "commitment_root" (by decide),
    hget "commitmentRoot" (by decide), hget "ref" (by decide), hget "public_ref" (by decide), hget "publicRef" (by decide),
    hget "count" (by decide), hget "leaf_count" (by decide), hget "leafCount" (by decide), hfirst, commitmentKind_copied,
    digestRef_blind _ _, givenRef_blind _ _, givenCount_blind _ _]

theorem normalizeCommitment_canonicalize (item : Json) (index : ℕ) :
    normalizeCommitment P (Settlement.canonicalize item) index = normalizeCommitment P item index := by
  cases item with
  | str s => rfl
  | _ => exact commitmentObject_canonicalize _ index

/-- The commitments of an artifact, which gives no references beside them. -/
def listCommitments (P : Platform) (list : List Json) : Except JsError (List Json) := do
  if list.isEmpty then throw (typeError (js "commitments must be non-empty"))
  let normalized ← list.zipIdx.mapM fun x => normalizeCommitment P x.1 x.2
  return sortCommitments P normalized

theorem batchCommitments_eq (batch : Json) :
    batchCommitments P batch = listCommitments P (arrayInput (batch.get (js "commitments"))) := by
  have hraw : ∀ v : Option Json, arrayInput (fieldOf (.obj (field (js "commitments") v)) ["commitments", "memory_roots",
      "memoryRoots", "roots", "commitment_roots", "commitmentRoots", "event_roots", "eventRoots"]) = arrayInput v := by
    intro v
    rcases v with _ | v
    · rfl
    · cases v <;> rfl
  have hrefs : ∀ v : Option Json, publicRefArray P (fieldOf (.obj (field (js "commitments") v)) ["refs", "artifact_refs",
      "artifactRefs"]) (js "refs") = .ok [] := by
    intro v
    cases v <;> rfl
  have hwith : ∀ list : List Json, (list.zipIdx.map fun x => withRef [] x.1 x.2) = list := by
    intro list
    have hid : ∀ x : Json × ℕ, withRef [] x.1 x.2 = x.1 := by
      rintro ⟨item, index⟩
      cases item <;> rfl
    simp only [hid, List.zipIdx_map_fst]
  rw [batchCommitments, normalizeCommitments, hrefs, hraw, Except.ok_bind, hwith]
  rfl

theorem batchCommitments_canonicalize (batch : Json) :
    batchCommitments P (Settlement.canonicalize batch) = batchCommitments P batch := by
  have hitem : ((fun x : Json × ℕ => normalizeCommitment P x.1 x.2) ∘ Prod.map Settlement.canonicalize id) =
      fun x => normalizeCommitment P x.1 x.2 := funext fun x => normalizeCommitment_canonicalize x.1 x.2
  rw [batchCommitments_eq, batchCommitments_eq, Settlement.get_canonicalize_of_ne (by decide), arrayInput_copied, listCommitments,
    List.isEmpty_map, List.zipIdx_map, List.mapM_map, hitem, listCommitments]

/-! ## Checks on artifacts -/

variable {a : Json} {kind : Kind}

theorem requiredObject_canonicalize (j : Json) (field : JsString) :
    requiredObject (Settlement.canonicalize j) field = requiredObject j field := by
  rw [requiredObject, isPlainRecord_canonicalize, requiredObject]

theorem required_public (h : Public a) (path : JsString) : required (assertNoPrivateProofPayload P a path) = .ok [] := by
  rw [(assertNoPrivateProofPayload_ok a path).2 h]
  rfl

theorem header_canonicalize (h : Public a) (name : String) :
    header P kind (Settlement.canonicalize a) name = header P kind a name := by
  have hschema := isStr_copied (a.get (js "schema")) kind.schema
  have hsafe : requireSafeBoundaries (Settlement.canonicalize a) name = requireSafeBoundaries a name := by
    have hkeys : ∀ key ∈ safeFieldNames, js key ≠ protoKey := by decide
    refine congrArg Except.ok (List.flatMap_congr fun key hkey => ?_)
    rw [Settlement.get_canonicalize_of_ne (hkeys key hkey), Option.map_map]
    simp only [Function.comp_def, isFalse_canonicalize]
  rw [header, requiredObject_canonicalize, required_public h.canonicalize, Settlement.get_canonicalize_of_ne (by decide), hschema, hsafe,
    header, required_public h]

theorem signatureCheck_canonicalize (a : Json) : signatureCheck (Settlement.canonicalize a) = signatureCheck a := by
  rw [signatureCheck, signatureCheck, Settlement.get_canonicalize_of_ne (by decide)]
  cases a.get (js "signature_ref") with
  | none => rfl
  | some v => exact congrArg required (signatureRef_blind (some v) (js "signature_ref"))

theorem rootCheck_canonicalize {key : String} (h : js key ≠ protoKey) (a : Json) (list : Except JsError Json) :
    rootCheck P (Settlement.canonicalize a) key list = rootCheck P a key list := by
  simp only [rootCheck, Settlement.get_canonicalize_of_ne h, isStr_copied]

theorem Public.without (h : Public a) (key : JsString) : Public (a.without key) := by
  cases h with
  | obj hkeys hvals =>
    exact .obj (fun f hf => hkeys f (List.mem_of_mem_filter hf)) fun f hf => hvals f (List.mem_of_mem_filter hf)
  | _ => exact .obj (by simp [Json.fields]) (by simp [Json.fields])

theorem uniqueKeys_without (h : a.UniqueKeys) (key : JsString) : (a.without key).UniqueKeys := by
  obtain ⟨hn, hvals⟩ := uniqueKeys_obj_iff.1 h.fields
  exact .obj ((List.filter_sublist.map Prod.fst).nodup hn) fun f hf => hvals f (List.mem_of_mem_filter hf)

/-- The body of a copy has the copy of the body. -/
theorem body_canonicalize (h : a.UniqueKeys) :
    Settlement.canonicalize (bodyWithoutIdentity kind (Settlement.canonicalize a)) =
      Settlement.canonicalize (bodyWithoutIdentity kind a) := by
  have hleft := uniqueKeys_without (uniqueKeys_without (Settlement.uniqueKeys_canonicalize h) (js kind.idField)) (js kind.hashField)
  have hright := uniqueKeys_without (uniqueKeys_without h (js kind.idField)) (js kind.hashField)
  refine Settlement.canonicalize_ext (uniqueKeys_obj_iff.1 hleft).1 (uniqueKeys_obj_iff.1 hright).1 fun key hkey => ?_
  have hget : ∀ j : Json, (bodyWithoutIdentity kind j).get key =
      if key = js kind.hashField then none else if key = js kind.idField then none else j.get key := by
    intro j
    rw [bodyWithoutIdentity, get_without, get_without]
  have hcopy : copied (a.get key) = copied ((Settlement.canonicalize a).get key) := by
    rw [Settlement.get_canonicalize_of_ne hkey]
    cases hv : a.get key with
    | none => rfl
    | some v => exact congrArg some (Settlement.canonicalize_canonicalize (h.get hv)).symm
  refine (congrArg copied (hget (Settlement.canonicalize a))).trans (Eq.trans ?_ (congrArg copied (hget a)).symm)
  split
  · rfl
  · split
    · rfl
    · exact hcopy.symm

theorem Public.body (h : Public a) (kind : Kind) : Public (bodyWithoutIdentity kind a) := (h.without _).without _

theorem identity_keys (kind : Kind) : js kind.idField ≠ protoKey ∧ js kind.hashField ≠ protoKey := by
  cases kind <;> decide

theorem validateIdentity_canonicalize (h : Public a) (hu : a.UniqueKeys) :
    validateIdentity P kind (Settlement.canonicalize a) = validateIdentity P kind a := by
  have hdigest : sha256Json P (bodyWithoutIdentity kind (Settlement.canonicalize a)) = sha256Json P (bodyWithoutIdentity kind a) := by
    rw [sha256Json_of_public (h.canonicalize.body kind), sha256Json_of_public (h.body kind), digestText, body_canonicalize hu, digestText]
  simp only [validateIdentity, hdigest, Settlement.get_canonicalize_of_ne (identity_keys kind).1,
    Settlement.get_canonicalize_of_ne (identity_keys kind).2, isStr_copied]

/-! ## The validators -/

theorem validateProofNetworkAnchorBatch_canonicalize (h : Public a) (hu : a.UniqueKeys) :
    validateProofNetworkAnchorBatch P (Settlement.canonicalize a) = validateProofNetworkAnchorBatch P a := by
  have htrue : ∀ v : Option Json, validateProofNetworkAnchorBatch.isTrue (copied v) = validateProofNetworkAnchorBatch.isTrue v := by
    intro v
    rcases v with _ | v
    · rfl
    · cases v <;> rfl
  simp (disch := decide) only [validateProofNetworkAnchorBatch, header_canonicalize h, Settlement.get_canonicalize_of_ne, path_copied,
    isoTimestamp_blind _ _, publicRef_blind _ _, batchCommitments_canonicalize, isNum_copied, Option.isSome_map, isStr_copied, htrue,
    rootCheck_canonicalize, validateIdentity_canonicalize h hu]

/-- `Date.parse` of a copy. -/
theorem notAfter_copied (v w : Option Json) : notAfter P (copied v) (copied w) = notAfter P v w := by
  have hdate : ∀ v : Option Json, parsedDate P (copied v) = parsedDate P v := by
    intro v
    rcases v with _ | v
    · rfl
    · cases v <;> rfl
  rw [notAfter, hdate, hdate, notAfter]

theorem validateCapabilityGrant_canonicalize (h : Public a) (hu : a.UniqueKeys) :
    validateCapabilityGrant P (Settlement.canonicalize a) = validateCapabilityGrant P a := by
  simp (disch := decide) only [validateCapabilityGrant, header_canonicalize h, Settlement.get_canonicalize_of_ne, notAfter_copied,
    isoTimestamp_blind _ _, publicRef_blind _ _, digestArray_blind _ _, publicScopes_blind _ _, nonNegativeInteger_blind _ _ _,
    digestRef_blind _ _, rootCheck_canonicalize, signatureCheck_canonicalize, validateIdentity_canonicalize h hu]

theorem validateCapabilityRevocation_canonicalize (h : Public a) (hu : a.UniqueKeys) :
    validateCapabilityRevocation P (Settlement.canonicalize a) = validateCapabilityRevocation P a := by
  simp (disch := decide) only [validateCapabilityRevocation, header_canonicalize h, Settlement.get_canonicalize_of_ne,
    isoTimestamp_blind _ _, publicRef_blind _ _, digestRef_blind _ _, signatureCheck_canonicalize, validateIdentity_canonicalize h hu]

theorem validateBenchmarkAttestation_canonicalize (h : Public a) (hu : a.UniqueKeys) :
    validateBenchmarkAttestation P (Settlement.canonicalize a) = validateBenchmarkAttestation P a := by
  simp (disch := decide) only [validateBenchmarkAttestation, header_canonicalize h, Settlement.get_canonicalize_of_ne,
    isoTimestamp_blind _ _, publicRef_blind _ _, digestRef_blind _ _, digestArray_blind _ _, nonNegativeInteger_blind _ _ _,
    positiveInteger_blind _ _, rootCheck_canonicalize, signatureCheck_canonicalize, validateIdentity_canonicalize h hu]

theorem validateRegistryEntry_canonicalize (h : Public a) (hu : a.UniqueKeys) :
    validateRegistryEntry P (Settlement.canonicalize a) = validateRegistryEntry P a := by
  have htype : isStr (copied (a.get (js "entry_type"))) = isStr (a.get (js "entry_type")) := funext (isStr_copied _)
  simp (disch := decide) only [validateRegistryEntry, header_canonicalize h, Settlement.get_canonicalize_of_ne, htype,
    isoTimestamp_blind _ _, publicRef_blind _ _, digestRef_blind _ _, digestArray_blind _ _, publicRefArray_blind _ _,
    nonNegativeInteger_blind _ _ _, rootCheck_canonicalize, signatureCheck_canonicalize, validateIdentity_canonicalize h hu]

/-! ## Members -/

/-- What an artifact demands of its members it demands of their copies. -/
structure Membership.Blind (M : Membership) (hash : Json → JsString → Except JsError JsString) : Prop where
  refused : ∀ x, M.refused (Settlement.canonicalize x) = M.refused x
  validate : ∀ x, Public x → x.UniqueKeys → M.validate (Settlement.canonicalize x) = M.validate x
  hash : ∀ x name, hash (Settlement.canonicalize x) name = hash x name

theorem stringify_eq_strings {v : Option Json} {hashes : List JsString} :
    v.map (stringify P.toNumberFormat) = some ((strings hashes).stringify P.toNumberFormat) ↔ v = some (strings hashes) := by
  refine ⟨fun h => ?_, fun h => by rw [h, Option.map_some]⟩
  obtain ⟨x, rfl, hx⟩ := Option.map_eq_some_iff.1 h
  have hstop : Stop [] := by intro c hc; simp at hc
  exact congrArg some (stringify_inj P.toNumberFormat _ _ [] [] hstop hstop (congrArg (· ++ []) hx)).1

theorem copied_eq_strings {v : Option Json} {texts : List JsString} : copied v = some (strings texts) ↔ v = some (strings texts) := by
  have hstr : ∀ s : JsString, Settlement.canonicalize (.str s) = .str s := fun _ => rfl
  have hcopy : Settlement.canonicalize (strings texts) = strings texts := by
    rw [strings, Settlement.canonicalize_arr, List.map_map]
    rfl
  refine ⟨fun h => ?_, fun h => by rw [h, copied, Option.map_some, hcopy]⟩
  obtain ⟨x, rfl, hx⟩ := Option.map_eq_some_iff.1 h
  cases x with
  | arr xs =>
    rw [Settlement.canonicalize_arr, strings, arr.injEq] at hx
    refine congrArg (fun l => some (Json.arr l)) (List.ext_getElem? fun i => ?_)
    have hi := congrArg (fun l => l[i]?) hx
    rw [List.getElem?_map, List.getElem?_map] at hi
    rw [List.getElem?_map]
    cases ht : texts[i]? with
    | none =>
      rw [ht, Option.map_none] at hi
      exact Option.map_eq_none_iff.1 hi
    | some t =>
      rw [ht, Option.map_some] at hi
      exact copied_eq_str.1 hi
  | _ => simp [Settlement.canonicalize, strings] at hx

theorem listed_copied (v : Option Json) : listed (copied v) = (listed v).map Settlement.canonicalize := by
  rcases v with _ | v
  · rfl
  · cases v with
    | arr xs => rw [copied, Option.map_some, Settlement.canonicalize_arr, listed, listed]
    | _ => rfl

theorem Public.listed (h : Public a) {key : JsString} : ∀ x ∈ listed (a.get key), Public x := by
  cases hv : a.get key with
  | none => simp [ProofNetwork.listed]
  | some v =>
    have hp := h.get hv
    cases hp with
    | arr hxs => exact hxs
    | _ => simp [ProofNetwork.listed]

theorem uniqueKeys_listed (h : a.UniqueKeys) {key : JsString} : ∀ x ∈ listed (a.get key), x.UniqueKeys := by
  cases hv : a.get key with
  | none => simp [listed]
  | some v =>
    have hp := h.get hv
    cases hp with
    | arr hxs => exact hxs
    | _ => simp [listed]

section Members

variable {M : Membership} {hash : Json → JsString → Except JsError JsString}

theorem Membership.Blind.checks (hM : M.Blind hash) {x : Json} (h : Public x) (hu : x.UniqueKeys) (name : JsString) :
    M.checks hash (Settlement.canonicalize x) name = M.checks hash x name := by
  rw [Membership.checks, requiredObject_canonicalize, hM.refused, hM.validate x h hu, hM.hash, Membership.checks]

theorem Membership.Blind.hashes (hM : M.Blind hash) (field : String) (items : List Json) :
    M.hashes P hash field (items.map Settlement.canonicalize) = M.hashes P hash field items := by
  have hrefused : ((fun x : Json × ℕ => (M.refused x.1).isNone) ∘ Prod.map Settlement.canonicalize id) =
      fun x => (M.refused x.1).isNone := funext fun x => congrArg Option.isNone (hM.refused x.1)
  have hhash : ((fun x : Json × ℕ => hash x.1 (itemField P (js field) x.2)) ∘ Prod.map Settlement.canonicalize id) =
      fun x => hash x.1 (itemField P (js field) x.2) := funext fun x => hM.hash x.1 _
  rw [Membership.hashes, List.zipIdx_map, List.filter_map, List.mapM_map, hrefused, hhash, Membership.hashes]

theorem listChecks_canonicalize (hM : M.Blind hash) (h : Public a) (hu : a.UniqueKeys)
    {field countKey rootKey hashesKey : String} (hfield : js field ≠ protoKey) (hcount : js countKey ≠ protoKey)
    (hroot : js rootKey ≠ protoKey) (hhashes : js hashesKey ≠ protoKey) : listChecks P M hash field countKey rootKey hashesKey (Settlement.canonicalize a) =
      listChecks P M hash field countKey rootKey hashesKey a := by
  have hchecks : (((listed (a.get (js field))).map Settlement.canonicalize).zipIdx.flatMap fun x =>
      M.checks hash x.1 (itemField P (js field) x.2)) =
        (listed (a.get (js field))).zipIdx.flatMap fun x => M.checks hash x.1 (itemField P (js field) x.2) := by
    rw [List.zipIdx_map, List.flatMap_map]
    refine List.flatMap_congr fun x hx => ?_
    have hmem : x.1 ∈ listed (a.get (js field)) := (List.mem_zipIdx' hx).2 ▸ List.getElem_mem _
    exact hM.checks (h.listed _ hmem) (uniqueKeys_listed hu _ hmem) _
  have hlisted : ∀ hashes : List JsString, (copied (a.get (js hashesKey))).map (stringify P.toNumberFormat) ≠
      some ((strings hashes).stringify P.toNumberFormat) ↔ (a.get (js hashesKey)).map (stringify P.toNumberFormat) ≠
        some ((strings hashes).stringify P.toNumberFormat) := fun hashes =>
    not_congr (stringify_eq_strings.trans (copied_eq_strings.trans stringify_eq_strings.symm))
  simp only [listChecks, memberChecks, Settlement.get_canonicalize_of_ne hfield, Settlement.get_canonicalize_of_ne hcount,
    Settlement.get_canonicalize_of_ne hhashes, rootCheck_canonicalize hroot, listed_copied, List.length_map, hchecks, isNum_copied,
    hM.hashes, hlisted]

theorem schema_ne : js "schema" ≠ protoKey := by decide

theorem entryMembership_blind : (entryMembership P).Blind entryHash where
  refused x := by
    simp only [entryMembership, Settlement.get_canonicalize_of_ne schema_ne, isStr_copied]
  validate x h hu := validateRegistryEntry_canonicalize h hu
  hash x name := by
    rw [entryHash, Settlement.get_canonicalize_of_ne (by decide), requiredString_blind, entryHash]

theorem validateRegistryBatch_canonicalize (h : Public a) (hu : a.UniqueKeys) :
    validateRegistryBatch P (Settlement.canonicalize a) = validateRegistryBatch P a := by
  simp (disch := decide) only [validateRegistryBatch, header_canonicalize h, Settlement.get_canonicalize_of_ne, isoTimestamp_blind _ _,
    publicRef_blind _ _, validateIdentity_canonicalize h hu,
    listChecks_canonicalize entryMembership_blind h hu]

theorem kindOf_canonicalize (x : Json) : kindOf (Settlement.canonicalize x) = kindOf x := by
  simp only [kindOf, Settlement.get_canonicalize_of_ne schema_ne, isStr_copied]

theorem validateSupportedArtifact_canonicalize (h : Public a) (hu : a.UniqueKeys) :
    validateSupportedArtifact P (Settlement.canonicalize a) = validateSupportedArtifact P a := by
  simp only [validateSupportedArtifact, kindOf_canonicalize, validateProofNetworkAnchorBatch_canonicalize h hu,
    validateCapabilityGrant_canonicalize h hu, validateCapabilityRevocation_canonicalize h hu,
    validateBenchmarkAttestation_canonicalize h hu, validateRegistryEntry_canonicalize h hu, validateRegistryBatch_canonicalize h hu]

theorem artifactMembership_blind : (artifactMembership P).Blind artifactHash where
  refused x := by
    simp only [artifactMembership, Settlement.get_canonicalize_of_ne schema_ne, isStr_copied]
  validate x h hu := validateSupportedArtifact_canonicalize h hu
  hash x name := by
    rw [artifactHash, kindOf_canonicalize, artifactHash]
    cases kindOf x with
    | none => rfl
    | some kind =>
      simp only [Settlement.get_canonicalize_of_ne (identity_keys kind).2]
      exact requiredString_blind _ _

theorem validateProofNetworkPacket_canonicalize (h : Public a) (hu : a.UniqueKeys) :
    validateProofNetworkPacket P (Settlement.canonicalize a) = validateProofNetworkPacket P a := by
  simp (disch := decide) only [validateProofNetworkPacket, header_canonicalize h, Settlement.get_canonicalize_of_ne,
    isoTimestamp_blind _ _, publicRef_blind _ _, validateIdentity_canonicalize h hu,
    listChecks_canonicalize artifactMembership_blind h hu]

end Members

/-- **A validator says of a copy what it says of the value.** -/
theorem validate_canonicalize (kind : Kind) (h : Public a) (hu : a.UniqueKeys) :
    validate P kind (Settlement.canonicalize a) = validate P kind a := by
  cases kind with
  | anchorBatch => exact validateProofNetworkAnchorBatch_canonicalize h hu
  | capabilityGrant => exact validateCapabilityGrant_canonicalize h hu
  | capabilityRevocation => exact validateCapabilityRevocation_canonicalize h hu
  | benchmarkAttestation => exact validateBenchmarkAttestation_canonicalize h hu
  | packet => exact validateProofNetworkPacket_canonicalize h hu
  | registryEntry => exact validateRegistryEntry_canonicalize h hu
  | registryBatch => exact validateRegistryBatch_canonicalize h hu

/-- **What a validator says does not depend on the order of keys.** -/
theorem validate_same (kind : Kind) {b : Json} (h : Public a) (ha : a.UniqueKeys) (hb : b.UniqueKeys) (hsame : Same a b) :
    validate P kind b = validate P kind a := by
  rw [← validate_canonicalize kind h ha, Settlement.canonicalize_of_same hsame, validate_canonicalize kind (h.of_same hsame) hb]

end ProofNetwork

end EnigmaMemory
