import EnigmaMemory.Proof.ProofCopies
import Mathlib.Data.List.DropRight

/-!
# Fields that were checked

A field that a constructor took from its input, or filled in, passes the check that the
validator makes of it: strings were trimmed, lists were sorted, and a default is one that the
check accepts (`Passes`).
-/

namespace EnigmaMemory

/-! ## Trimmed strings -/

theorem trim_eq (s : JsString) : trim s = (s.dropWhile isWhite).rdropWhile isWhite := rfl

theorem trim_trim (s : JsString) : trim (trim s) = trim s := by
  have hhead : (trim s).dropWhile isWhite = trim s := by
    refine List.dropWhile_eq_self_iff.2 fun hpos => ?_
    obtain ⟨rest, hrest⟩ : trim s <+: s.dropWhile isWhite := List.rdropWhile_prefix isWhite _
    have hpos' : 0 < (s.dropWhile isWhite).length := by rw [← hrest, List.length_append]; omega
    have hnot := List.dropWhile_get_zero_not isWhite s hpos'
    have hzero : (trim s)[0] = (s.dropWhile isWhite)[0] := by simp [← hrest, List.getElem_append_left hpos]
    rw [hzero]
    exact hnot
  rw [trim_eq (trim s), hhead, trim_eq, List.rdropWhile_idempotent]

theorem trim_of_no_white {s : JsString} (h : ∀ c ∈ s, isWhite c = false) : trim s = s := by
  have hdrop : s.dropWhile isWhite = s := by
    cases s with
    | nil => rfl
    | cons c s => rw [List.dropWhile_cons_of_neg (by simp [h c List.mem_cons_self])]
  rw [trim_eq, hdrop]
  refine List.rdropWhile_eq_self_iff.2 fun hne => ?_
  simp [h _ (List.getLast_mem hne)]

namespace ProofNetwork

open Json

variable {P : Platform}

/-- A text that a check gives back as it is. -/
def Passes (check : Option Json → JsString → Except JsError JsString) (s : JsString) : Prop :=
  ∀ field, check (some (.str s)) field = .ok s

/-- A check gives texts that it gives back as they are. -/
def Settles (check : Option Json → JsString → Except JsError JsString) : Prop :=
  ∀ value field s, check value field = .ok s → Passes check s

theorem requiredString_passes {s : JsString} (hne : s ≠ []) (htrim : trim s = s) : Passes requiredString s := by
  intro field
  rw [requiredString, htrim, if_neg hne]

theorem requiredString_ok {value : Option Json} {field s : JsString} (h : requiredString value field = .ok s) :
    s ≠ [] ∧ trim s = s := by
  unfold requiredString at h
  split at h
  · rename_i t
    split at h
    · cases h
    · rename_i hne
      cases h
      exact ⟨hne, trim_trim t⟩
  · cases h

theorem requiredString_settles : Settles requiredString := fun _ _ _ h =>
  requiredString_passes (requiredString_ok h).1 (requiredString_ok h).2

theorem testedString_passes {test : JsString → Bool} {message : String} {s : JsString} (h : Passes requiredString s)
    (ht : test s = true) : Passes (testedString test message) s := by
  intro field
  rw [testedString, h, Except.ok_bind, if_pos ht]

theorem testedString_ok {test : JsString → Bool} {message : String} {value : Option Json} {field s : JsString}
    (h : testedString test message value field = .ok s) : Passes requiredString s ∧ test s = true := by
  rw [testedString, Except.bind_eq_ok] at h
  obtain ⟨t, ht, hs⟩ := h
  split at hs
  · rename_i htest
    cases hs
    exact ⟨requiredString_settles _ _ _ ht, htest⟩
  · cases hs

theorem testedString_settles (test : JsString → Bool) (message : String) : Settles (testedString test message) := fun _ _ _ h =>
  testedString_passes (testedString_ok h).1 (testedString_ok h).2

theorem optionally_passes {check : Option Json → JsString → Except JsError JsString} (hcheck : Settles check)
    {value : Option Json} {fallback field s : JsString} (h : optionally check value fallback field = .ok s)
    (hfallback : Passes check fallback) : Passes check s := by
  rw [optionally] at h
  split at h
  · cases h
    exact hfallback
  · exact hcheck _ _ _ h

/-! ## Dates -/

theorem isoTimestampOr_passes {value : Option Json} {field fallback s : JsString}
    (h : isoTimestampOr P value field fallback = .ok s) (hfallback : Passes requiredString fallback) :
    Passes requiredString s ∧ (P.parseDate s).isSome = true := by
  rw [isoTimestampOr, Except.bind_eq_ok] at h
  obtain ⟨t, ht, hs⟩ := h
  split at hs
  · cases hs
  · rename_i hdate
    obtain rfl : t = s := Except.ok.inj hs
    refine ⟨optionally_passes requiredString_settles ht hfallback, ?_⟩
    rw [← Option.not_isNone, Bool.eq_false_iff.2 hdate]
    rfl

theorem isoTimestamp_passes {s : JsString} (h : Passes requiredString s) (hdate : (P.parseDate s).isSome = true) :
    Passes (isoTimestamp P) s := by
  intro field
  have hblank : isBlank (some (.str s)) = false := by
    have hs := h []
    cases s with
    | nil => cases hs
    | cons c s => rfl
  have hstring : optionalString (some (.str s)) (js "1970-01-01T00:00:00.000Z") field = .ok s := by
    rw [optionalString, optionally, hblank, if_neg Bool.false_ne_true, h]
  have hnone : (P.parseDate s).isNone = false := by rw [← Option.not_isSome, hdate]; rfl
  rw [isoTimestamp, isoTimestampOr, hstring, Except.ok_bind, hnone, if_neg Bool.false_ne_true]

/-! ## Numbers -/

theorem testedInteger_again {test : ℚ → Bool} {message message' : String} {value : Option Json} {field : JsString} {q : ℚ}
    (h : testedInteger P test message value field = .ok q) (field' : JsString) :
    testedInteger P test message' (some (.num q)) field' = .ok q := by
  unfold testedInteger at h
  split at h
  · rename_i r hr
    split at h
    · rename_i htest
      cases h
      rw [testedInteger, toNumeric_num]
      exact if_pos htest
    · cases h
  · cases h

theorem nonNegativeInteger_again {value : Option Json} {field : JsString} {fallback q : ℚ}
    (h : nonNegativeInteger P value field fallback = .ok q) (field' : JsString) :
    nonNegativeInteger P (some (.num q)) field' 0 = .ok q := testedInteger_again h field'

theorem positiveInteger_again {value : Option Json} {field : JsString} {q : ℚ} (h : positiveInteger P value field = .ok q)
    (field' : JsString) : positiveInteger P (some (.num q)) field' = .ok q := testedInteger_again h field'

/-! ## Lists -/

theorem checkItems_again {check : Option Json → JsString → Except JsError JsString} {texts : List JsString}
    (h : ∀ s ∈ texts, Passes check s) (field : JsString) :
    checkItems P check (listOf (some (strings texts))) field = .ok texts := by
  have hlist : listOf (some (strings texts)) = texts.map fun s => some (.str s) := by
    rw [strings, listOf, List.map_map]
    rfl
  have hitem : ∀ x ∈ texts.zipIdx, check (some (.str x.1)) (itemField P field x.2) = .ok x.1 := fun x hx =>
    h x.1 (List.fst_mem_of_mem_zipIdx hx) _
  rw [hlist, checkItems, List.zipIdx_map, List.mapM_map]
  exact (Except.mapM_of_forall hitem).trans (congrArg Except.ok (List.zipIdx_map_fst 0 texts))

theorem checkItems_ok {check : Option Json → JsString → Except JsError JsString} (hcheck : Settles check)
    {list : List (Option Json)} {field : JsString} {texts : List JsString} (h : checkItems P check list field = .ok texts) :
    texts.length = list.length ∧ ∀ s ∈ texts, Passes check s := by
  refine ⟨(Except.length_of_mapM h).trans List.length_zipIdx, fun s hs => ?_⟩
  obtain ⟨x, -, hx⟩ := Except.exists_of_mem_mapM h hs
  exact hcheck _ _ _ hx

theorem digestArray_again {value : Option Json} {field : JsString} {digests : List JsString}
    (h : digestArray P value field = .ok digests) (field' : JsString) : digestArray P (some (strings digests)) field' = .ok digests := by
  rw [digestArray] at h
  split at h
  · cases h
  · rename_i hlength
    obtain ⟨hlen, hpass⟩ := checkItems_ok (testedString_settles _ _) h
    have hlist : (listOf (some (strings digests))).length = digests.length := by simp [strings, listOf]
    rw [digestArray, hlist, hlen, if_neg hlength]
    exact checkItems_again hpass field'

theorem sortStrings_passes {check : Option Json → JsString → Except JsError JsString} {texts : List JsString}
    (h : ∀ s ∈ texts, Passes check s) : ∀ s ∈ sortStrings texts, Passes check s := fun s hs =>
  h s ((List.mem_insertionSort _).1 hs)

/-- Some result; a validator drops what it is. -/
def Succeeds {α : Type} (x : Except JsError α) : Prop := ∃ a, x = .ok a

theorem required_eq_ok {α : Type} {x : Except JsError α} : required x = .ok [] ↔ Succeeds x := by
  rw [required, Except.map_eq_ok]
  exact ⟨fun ⟨a, ha, _⟩ => ⟨a, ha⟩, fun ⟨a, ha⟩ => ⟨a, ha, rfl⟩⟩

theorem Passes.succeeds {check : Option Json → JsString → Except JsError JsString} {s : JsString} (h : Passes check s)
    (field : JsString) : Succeeds (check (some (.str s)) field) := ⟨s, h field⟩

theorem publicScopes_again {value : Option Json} {field : JsString} {scopes : List JsString}
    (h : publicScopes P value field = .ok scopes) (field' : JsString) : Succeeds (publicScopes P (some (strings scopes)) field') := by
  rw [publicScopes] at h
  split at h
  · cases h
  · rename_i hlength
    obtain ⟨checked, hchecked, hscopes⟩ := Except.bind_eq_ok.1 h
    obtain ⟨hlen, hpass⟩ := checkItems_ok (testedString_settles _ _) hchecked
    obtain rfl : sortStrings (OrdSet.ofList checked).elems = scopes := Except.ok.inj hscopes
    have hall : ∀ s ∈ sortStrings (OrdSet.ofList checked).elems, Passes scope s :=
      sortStrings_passes fun s hs => hpass s (OrdSet.mem_ofList.1 hs)
    have hlist : (listOf (some (strings (sortStrings (OrdSet.ofList checked).elems)))).length =
        (OrdSet.ofList checked).elems.length := by simp [strings, listOf, sortStrings]
    have hmost : (OrdSet.ofList checked).elems.length ≤ checked.length :=
      (List.subperm_of_subset (OrdSet.ofList checked).nodup fun _ hs => OrdSet.mem_ofList.1 hs).length_le
    have hbounds : ¬((OrdSet.ofList checked).elems.length = 0 ∨ 32 < (OrdSet.ofList checked).elems.length) := by
      rintro (hnone | hmany)
      · -- a list that is not empty has an element, and the set has it too
        obtain ⟨s, hs⟩ := List.exists_mem_of_length_pos (l := checked) (by omega)
        have hmem : s ∈ (OrdSet.ofList checked).elems := OrdSet.mem_ofList.2 hs
        rw [List.length_eq_zero_iff.1 hnone] at hmem
        cases hmem
      · omega
    rw [publicScopes, hlist, if_neg hbounds]
    exact ⟨_, by rw [checkItems_again hall field']; rfl⟩

theorem publicRefArray_passes {value : Option Json} {field : JsString} {refs : List JsString}
    (h : publicRefArray P value field = .ok refs) : refs.length ≤ 64 ∧ ∀ s ∈ refs, Passes publicRef s := by
  have hsome : ∀ v : Json, v ≠ .null → publicRefArray P (some v) field = .ok refs →
      refs.length ≤ 64 ∧ ∀ s ∈ refs, Passes publicRef s := by
    intro v hv h
    rw [publicRefArray_some hv] at h
    split at h
    · cases h
    · rename_i hlength
      obtain ⟨checked, hchecked, hrefs⟩ := Except.bind_eq_ok.1 h
      obtain ⟨hlen, hpass⟩ := checkItems_ok (testedString_settles _ _) hchecked
      obtain rfl : sortStrings checked = refs := Except.ok.inj hrefs
      refine ⟨?_, sortStrings_passes hpass⟩
      rw [sortStrings, List.length_insertionSort]
      omega
  rcases value with _ | v
  · obtain rfl : [] = refs := Except.ok.inj h
    exact ⟨by simp, by simp⟩
  · by_cases hv : v = .null
    · subst hv
      obtain rfl : [] = refs := Except.ok.inj h
      exact ⟨by simp, by simp⟩
    · exact hsome v hv h

theorem publicRefArray_again {value : Option Json} {field : JsString} {refs : List JsString}
    (h : publicRefArray P value field = .ok refs) (field' : JsString) : Succeeds (publicRefArray P (some (strings refs)) field') := by
  obtain ⟨hlen, hpass⟩ := publicRefArray_passes h
  have hlist : (listOf (some (strings refs))).length = refs.length := by simp [strings, listOf]
  rw [publicRefArray_some (by simp [strings]), hlist, if_neg (by omega), checkItems_again hpass field']
  exact ⟨_, rfl⟩

/-! ## Commitments -/

/-- A reference that a commitment may carry. -/
def CarriesRef (ref : Option Json) : Prop := ref = none ∨ ∃ r, ref = some (.str r) ∧ Passes publicRef r

def CarriesCount (P : Platform) (count : Option Json) : Prop :=
  count = none ∨ ∃ n, count = some (.num n) ∧ ∀ field, positiveInteger P (some (.num n)) field = .ok n

/-- A commitment as `normalizeCommitment` makes them. -/
inductive Normalized (P : Platform) : Json → Prop
  | mk {kind root : JsString} {ref count : Option Json} : Passes requiredString kind → scopeTest kind = true →
      Passes digestRef root → CarriesRef ref → CarriesCount P count →
      Normalized P (.obj ([(js "kind", .str kind), (js "root", .str root)] ++ field (js "ref") ref ++ field (js "count") count))

theorem givenRef_carries {value ref : Option Json} {field : JsString} (h : givenRef value field = .ok ref) : CarriesRef ref := by
  rw [givenRef] at h
  split at h
  · cases h
    exact .inl rfl
  · obtain ⟨r, hr, rfl⟩ := Except.map_eq_ok.1 h
    exact .inr ⟨r, rfl, testedString_settles _ _ _ _ _ hr⟩

theorem givenCount_carries {value count : Option Json} {field : JsString} (h : givenCount P value field = .ok count) :
    CarriesCount P count := by
  unfold givenCount at h
  split at h
  · cases h
    exact .inl rfl
  · cases h
    exact .inl rfl
  · obtain ⟨n, hn, rfl⟩ := Except.map_eq_ok.1 h
    exact .inr ⟨n, rfl, positiveInteger_again hn⟩

theorem commitmentKind_passes {value : Option Json} {kind : JsString} (h : commitmentKind value = .ok kind) :
    Passes requiredString kind ∧ scopeTest kind = true := by
  rw [commitmentKind, Except.bind_eq_ok] at h
  obtain ⟨k, hk, hkind⟩ := h
  split at hkind
  · rename_i hscope
    obtain rfl : k = kind := Except.ok.inj hkind
    exact ⟨optionally_passes requiredString_settles hk (requiredString_passes (by decide) rfl), hscope⟩
  · cases hkind

theorem normalizeCommitment_normalized {item c : Json} {index : ℕ} (h : normalizeCommitment P item index = .ok c) :
    Normalized P c := by
  have hobject : ∀ {item : Json}, commitmentObject P item index = .ok c → Normalized P c := by
    intro item h
    rw [commitmentObject, Except.check_eq_ok] at h
    obtain ⟨-, h⟩ := h
    obtain ⟨kind, hkind, h⟩ := Except.bind_eq_ok.1 h
    obtain ⟨root, hroot, h⟩ := Except.bind_eq_ok.1 h
    obtain ⟨ref, href, h⟩ := Except.bind_eq_ok.1 h
    obtain ⟨count, hcount, h⟩ := Except.bind_eq_ok.1 h
    obtain rfl := Except.pure_eq_ok.1 h
    exact .mk (commitmentKind_passes hkind).1 (commitmentKind_passes hkind).2 (testedString_settles _ _ _ _ _ hroot)
      (givenRef_carries href) (givenCount_carries hcount)
  cases item with
  | str s =>
    obtain ⟨root, hroot, rfl⟩ := Except.map_eq_ok.1 h
    have hmemory : Passes requiredString (js "memory_root") := requiredString_passes (by decide) rfl
    have hplain : Normalized P (.obj ([(js "kind", .str (js "memory_root")), (js "root", .str root)] ++ field (js "ref") none
      ++ field (js "count") none)) := .mk hmemory rfl (testedString_settles _ _ _ _ _ hroot) (.inl rfl) (.inl rfl)
    exact hplain
  | _ => exact hobject h

theorem isBlank_of_passes {check : Option Json → JsString → Except JsError JsString} {s : JsString} (h : Passes check s)
    (hcheck : Passes check [] → False) : isBlank (some (.str s)) = false := by
  cases s with
  | nil => exact absurd h hcheck
  | cons c s => rfl

theorem publicRef_nil : Passes publicRef [] → False := fun h => nomatch h []

theorem requiredString_nil : Passes requiredString [] → False := fun h => nomatch h []

/-- A normalized commitment is normalized to itself. -/
theorem Normalized.again {c : Json} (h : Normalized P c) (index : ℕ) : normalizeCommitment P c index = .ok c := by
  obtain ⟨hkind, hscope, hroot, href, hcount⟩ := h
  rename_i kind root ref count
  have hk : commitmentKind (some (.str kind)) = .ok kind := by
    have hstring : optionalString (some (.str kind)) (js "memory_root") (js "kind") = .ok kind := by
      rw [optionalString, optionally, isBlank_of_passes hkind requiredString_nil, if_neg Bool.false_ne_true, hkind]
    rw [commitmentKind, hstring, Except.ok_bind, if_pos hscope]
  have hr : ∀ field : JsString, givenRef ref field = .ok ref := by
    intro field
    rcases href with rfl | ⟨r, rfl, hr⟩
    · rfl
    · rw [givenRef, isBlank_of_passes hr publicRef_nil, if_neg Bool.false_ne_true, hr]
      rfl
  have hn : ∀ field : JsString, givenCount P count field = .ok count := by
    intro field
    rcases hcount with rfl | ⟨n, rfl, hn⟩
    · rfl
    · rw [givenCount, hn]
      · rfl
      · exact Option.some_ne_none _
      · simp
  have hobject : ∀ c : Json, c.isPlainRecord = true → c.get (js "kind") = some (.str kind) →
      firstOf [c.get (js "root"), c.get (js "commitment_root"), c.get (js "commitmentRoot")] = some (.str root) →
      firstOf [c.get (js "ref"), c.get (js "public_ref"), c.get (js "publicRef")] = ref →
      firstOf [c.get (js "count"), c.get (js "leaf_count"), c.get (js "leafCount")] = count →
      commitmentObject P c index = .ok (.obj ([(js "kind", .str kind), (js "root", .str root)] ++ field (js "ref") ref
        ++ field (js "count") count)) := by
    intro c hplain hgetKind hgetRoot hgetRef hgetCount
    rw [commitmentObject, requiredObject, if_pos hplain, Except.ok_bind, hgetKind, hk, Except.ok_bind, hgetRoot, hroot, Except.ok_bind,
      hgetRef, hr, Except.ok_bind, hgetCount, hn]
    rfl
  have href' : ref = none ∨ ∃ r, ref = some (.str r) := by
    rcases href with h | ⟨r, h, -⟩
    · exact Or.inl h
    · exact Or.inr ⟨r, h⟩
  have hcount' : count = none ∨ ∃ n, count = some (.num n) := by
    rcases hcount with h | ⟨n, h, -⟩
    · exact Or.inl h
    · exact Or.inr ⟨n, h⟩
  refine hobject _ rfl rfl ?_ ?_ ?_
  · rcases href' with rfl | ⟨r, rfl⟩ <;> rcases hcount' with rfl | ⟨n, rfl⟩ <;> rfl
  · rcases href' with rfl | ⟨r, rfl⟩ <;> rcases hcount' with rfl | ⟨n, rfl⟩ <;> rfl
  · rcases href' with rfl | ⟨r, rfl⟩ <;> rcases hcount' with rfl | ⟨n, rfl⟩ <;> rfl

/-- A list that was normalized and sorted is normalized and sorted to itself. -/
theorem listCommitments_again (htotal : ∀ s t, P.localeLe s t = true ∨ P.localeLe t s = true)
    (htrans : ∀ s t u, P.localeLe s t = true → P.localeLe t u = true → P.localeLe s u = true) {list : List Json} (hne : list ≠ [])
    (h : ∀ c ∈ list, Normalized P c) : listCommitments P (sortCommitments P list) = .ok (sortCommitments P list) := by
  have hempty : (sortCommitments P list).isEmpty = false := by
    rw [List.isEmpty_eq_false_iff, ← List.length_pos_iff, sortCommitments, List.length_insertionSort]
    exact List.length_pos_iff.2 hne
  have hsorted : sortCommitments P (sortCommitments P list) = sortCommitments P list := by
    have : Std.Total fun a b : Json => P.localeLe (commitmentText a) (commitmentText b) = true := ⟨fun a b => htotal _ _⟩
    have : IsTrans Json fun a b => P.localeLe (commitmentText a) (commitmentText b) = true := ⟨fun a b c => htrans _ _ _⟩
    exact (List.pairwise_insertionSort _ list).insertionSort_eq
  have hitem : ∀ x ∈ (sortCommitments P list).zipIdx, normalizeCommitment P x.1 x.2 = .ok x.1 := fun x hx =>
    (h x.1 ((List.mem_insertionSort _).1 (List.fst_mem_of_mem_zipIdx hx))).again x.2
  have hall := (Except.mapM_of_forall hitem).trans (congrArg Except.ok (List.zipIdx_map_fst 0 (sortCommitments P list)))
  simp only [listCommitments, hempty, hall, Except.ok_bind, hsorted]
  rfl

theorem listCommitments_ok {raw commitments : List Json} (h : listCommitments P raw = .ok commitments) :
    ∃ list, list ≠ [] ∧ (∀ c ∈ list, Normalized P c) ∧ commitments = sortCommitments P list := by
  rw [listCommitments] at h
  split at h
  · cases h
  · rename_i hne
    obtain ⟨list, hlist, hsort⟩ := Except.bind_eq_ok.1 h
    refine ⟨list, ?_, fun c hc => ?_, (Except.pure_eq_ok.1 hsort).symm⟩
    · rintro rfl
      have hlength := Except.length_of_mapM hlist
      rw [List.length_zipIdx, List.length_nil] at hlength
      exact hne (List.isEmpty_iff.2 (List.length_eq_zero_iff.1 hlength.symm))
    · obtain ⟨x, -, hx⟩ := Except.exists_of_mem_mapM hlist hc
      exact normalizeCommitment_normalized hx

theorem normalizeCommitments_ok {input : Json} {commitments : List Json} (h : normalizeCommitments P input = .ok commitments) :
    ∃ list, list ≠ [] ∧ (∀ c ∈ list, Normalized P c) ∧ commitments = sortCommitments P list := by
  rw [normalizeCommitments] at h
  obtain ⟨refs, -, h⟩ := Except.bind_eq_ok.1 h
  change listCommitments P _ = _ at h
  exact listCommitments_ok h

end ProofNetwork

end EnigmaMemory
