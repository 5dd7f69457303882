import EnigmaMemory.Lib.StableSort
import EnigmaMemory.Proof.ProofNetwork

/-!
# The commitments of an anchor batch

A batch lists its commitments in the order of their texts, which are made of the kind, the root and the reference of a
commitment, but not of its count.

* `batch_unordered_iff`: a batch does not depend on the order of its commitments exactly when those that agree on kind,
  root and reference agree on their counts.
* `batch_keeps_refs_iff`: roots keep the references given beside them exactly when sorting the references leaves those of
  each root with it.
-/

namespace EnigmaMemory

namespace ProofNetwork

open Json

variable {P : Platform}

/-! ## Normalized commitments -/

theorem testedString_nameless {test : JsString → Bool} {message : String} {value : Option Json} {field s : JsString}
    (h : testedString test message value field = .ok s) (field' : JsString) : testedString test message value field' = .ok s := by
  obtain ⟨t, ht, h⟩ := Except.bind_eq_ok.1 h
  refine Except.bind_eq_ok.2 ⟨t, requiredString_nameless ht field', ?_⟩
  split at h
  · rename_i htest
    rw [if_pos htest]
    exact h
  · cases h

theorem givenRef_nameless {value ref : Option Json} {field : JsString} (h : givenRef value field = .ok ref) (field' : JsString) :
    givenRef value field' = .ok ref := by
  rw [givenRef] at h ⊢
  split at h
  · rename_i hblank
    rw [if_pos hblank]
    exact h
  · rename_i hblank
    obtain ⟨r, hr, rfl⟩ := Except.map_eq_ok.1 h
    rw [if_neg hblank]
    exact Except.map_eq_ok.2 ⟨r, testedString_nameless hr field', rfl⟩

theorem positiveInteger_nameless {value : Option Json} {field : JsString} {q : ℚ} (h : positiveInteger P value field = .ok q)
    (field' : JsString) : positiveInteger P value field' = .ok q := by
  unfold positiveInteger testedInteger at h ⊢
  split at h
  · split at h
    · rename_i htest
      rw [if_pos htest]
      exact h
    · cases h
  · cases h

theorem givenCount_nameless {value count : Option Json} {field : JsString} (h : givenCount P value field = .ok count)
    (field' : JsString) : givenCount P value field' = .ok count := by
  unfold givenCount at h ⊢
  split at h
  · exact h
  · exact h
  · obtain ⟨n, hn, rfl⟩ := Except.map_eq_ok.1 h
    exact Except.map_eq_ok.2 ⟨n, positiveInteger_nameless hn field', rfl⟩

/-- The place of a commitment is only in the messages. -/
theorem normalizeCommitment_placeless {item c : Json} {index : ℕ} (h : normalizeCommitment P item index = .ok c) (index' : ℕ) :
    normalizeCommitment P item index' = .ok c := by
  have hobject : commitmentObject P item index = .ok c → commitmentObject P item index' = .ok c := by
    intro h
    rw [commitmentObject, Except.check_eq_ok] at h
    obtain ⟨hplain, h⟩ := h
    obtain ⟨kind, hkind, h⟩ := Except.bind_eq_ok.1 h
    obtain ⟨root, hroot, h⟩ := Except.bind_eq_ok.1 h
    obtain ⟨ref, href, h⟩ := Except.bind_eq_ok.1 h
    obtain ⟨count, hcount, h⟩ := Except.bind_eq_ok.1 h
    have hplain' : requiredObject item (itemField P (js "commitments") index') = .ok () := by
      rw [requiredObject] at hplain ⊢
      split at hplain
      · rename_i hrecord
        rw [if_pos hrecord]
      · cases hplain
    rw [commitmentObject, Except.check_eq_ok]
    exact ⟨hplain', Except.bind_eq_ok.2 ⟨kind, hkind, Except.bind_eq_ok.2 ⟨root, testedString_nameless hroot _,
      Except.bind_eq_ok.2 ⟨ref, givenRef_nameless href _, Except.bind_eq_ok.2 ⟨count, givenCount_nameless hcount _, h⟩⟩⟩⟩⟩
  cases item with
  | str s =>
    obtain ⟨root, hroot, rfl⟩ := Except.map_eq_ok.1 h
    exact Except.map_eq_ok.2 ⟨root, testedString_nameless hroot _, rfl⟩
  | _ => exact hobject h

/-- What a commitment is normalized to. -/
def commitmentOf (P : Platform) (item : Json) : Json := ((normalizeCommitment P item 0).toOption).getD .null

theorem commitmentOf_eq {item c : Json} {index : ℕ} (h : normalizeCommitment P item index = .ok c) : commitmentOf P item = c := by
  rw [commitmentOf, normalizeCommitment_placeless h 0]
  rfl

/-- A commitment that is accepted. -/
def AcceptedCommitment (P : Platform) (item : Json) : Prop := ∃ c, normalizeCommitment P item 0 = .ok c

theorem AcceptedCommitment.normalized {item : Json} (h : AcceptedCommitment P item) : Normalized P (commitmentOf P item) := by
  obtain ⟨c, hc⟩ := h
  rw [commitmentOf_eq hc]
  exact normalizeCommitment_normalized hc

theorem mapM_commitments {items : List Json} (h : ∀ x ∈ items, AcceptedCommitment P x) :
    items.zipIdx.mapM (fun x => normalizeCommitment P x.1 x.2) = .ok (items.map (commitmentOf P)) := by
  have hitem : ∀ x ∈ items.zipIdx, normalizeCommitment P x.1 x.2 = .ok (commitmentOf P x.1) := by
    intro x hx
    obtain ⟨c, hc⟩ := h x.1 (List.fst_mem_of_mem_zipIdx hx)
    rw [commitmentOf_eq hc]
    exact normalizeCommitment_placeless hc x.2
  rw [Except.mapM_of_forall hitem]
  have hmap : (items.zipIdx.map Prod.fst).map (commitmentOf P) = items.zipIdx.map (fun x => commitmentOf P x.1) := List.map_map
  rw [← hmap, List.zipIdx_map_fst]

theorem listCommitments_eq_ok {items commitments : List Json} : listCommitments P items = .ok commitments ↔
    items ≠ [] ∧ (∀ x ∈ items, AcceptedCommitment P x) ∧ commitments = sortCommitments P (items.map (commitmentOf P)) := by
  rw [listCommitments, Except.throw_if_eq_ok, List.isEmpty_iff]
  refine and_congr_right fun _ => ?_
  constructor
  · intro h
    obtain ⟨list, hlist, hsort⟩ := Except.bind_eq_ok.1 h
    have haccepted : ∀ x ∈ items, AcceptedCommitment P x := by
      intro x hx
      obtain ⟨index, hindex, rfl⟩ := List.mem_iff_getElem.1 hx
      obtain ⟨c, -, hc⟩ := Except.exists_of_mapM_mem hlist (List.mk_mem_zipIdx_iff_getElem?.2 (List.getElem?_eq_getElem hindex))
      exact ⟨c, normalizeCommitment_placeless hc 0⟩
    rw [mapM_commitments haccepted] at hlist
    obtain rfl := Except.ok.inj hlist
    exact ⟨haccepted, (Except.pure_eq_ok.1 hsort).symm⟩
  · rintro ⟨haccepted, hsorted⟩
    rw [mapM_commitments haccepted, hsorted]
    rfl

/-! ## The text of a commitment -/

/-- The fields that a commitment is ordered by. -/
def orderFields : List String := ["kind", "root", "ref"]

theorem rootTest_eq {root : JsString} (h : rootTest root = true) :
    ∃ hex, root = js "sha256" ++ 58 :: hex ∧ hex.length = 64 ∧ ∀ c ∈ hex, isHexDigit c = true := by
  rw [rootTest, Bool.and_eq_true, isHash, Bool.and_eq_true, List.isPrefixOf_iff_prefix] at h
  obtain ⟨⟨hex, rfl⟩, hlength, hall⟩ := h
  rw [List.drop_left' (by decide)] at hlength hall
  exact ⟨hex, rfl, beq_iff_eq.1 hlength, List.all_eq_true.1 hall⟩

/-- No kind is long enough to hide the root behind it. -/
theorem kind_end {kind kind' root root' ref ref' tail : JsString} (hroot : rootTest root = true) (hroot' : rootTest root' = true)
    (hlength : kind'.length ≤ 64) (hkind : kind' = kind ++ tail)
    (h : 58 :: (root ++ 58 :: ref) = tail ++ 58 :: (root' ++ 58 :: ref')) : tail = [] := by
  obtain ⟨hex, rfl, hhex, hdigits⟩ := rootTest_eq hroot
  obtain ⟨hex', rfl, -, -⟩ := rootTest_eq hroot'
  cases tail with
  | nil => rfl
  | cons c tail =>
    exfalso
    have hname : (js "sha256").length = 6 := rfl
    obtain ⟨hc, hbody⟩ := List.cons.inj h
    simp only [hkind, List.length_append, List.length_cons] at hlength
    rcases List.append_eq_append_iff.1 hbody with ⟨rest, hrest, -⟩ | ⟨rest, hrest, hbehind⟩
    · have := congrArg List.length hrest
      simp only [List.length_append, List.length_cons, hhex, hname] at this
      omega
    · cases rest with
      | nil =>
        have := congrArg List.length hrest
        simp only [List.length_append, List.length_cons, List.length_nil, hhex, hname] at this
        omega
      | cons d rest =>
        -- the colon behind the longer kind is the one in the root
        obtain ⟨rfl, hafter⟩ := List.cons.inj hbehind
        have hname58 : (58 : CodeUnit) ∉ js "sha256" := by decide
        have hhex58 : (58 : CodeUnit) ∉ hex := fun hmem => absurd (hdigits 58 hmem) (by decide)
        obtain ⟨-, -, rfl⟩ := (List.append_cons_inj_of_notMem hname58 hhex58).1 hrest
        cases hex with
        | nil => cases hhex
        | cons e hex =>
          have hstart : js "sha256" = 115 :: js "ha256" := rfl
          rw [hstart] at hafter
          obtain rfl := (List.cons.inj hafter).1
          exact absurd (hdigits _ List.mem_cons_self) (by decide)

/-- **The text of a commitment determines its kind, its root and its reference.** -/
theorem commitmentText_inj {kind kind' root root' ref ref' : JsString} (hroot : rootTest root = true)
    (hroot' : rootTest root' = true) (hlength : kind.length ≤ 64) (hlength' : kind'.length ≤ 64)
    (h : kind ++ js ":" ++ root ++ js ":" ++ ref = kind' ++ js ":" ++ root' ++ js ":" ++ ref') :
    kind = kind' ∧ root = root' ∧ ref = ref' := by
  have hcolon : js ":" = [58] := rfl
  simp only [hcolon, List.append_assoc, List.singleton_append] at h
  have hkind : kind = kind' ∧ 58 :: (root ++ 58 :: ref) = 58 :: (root' ++ 58 :: ref') := by
    rcases List.append_eq_append_iff.1 h with ⟨tail, hk, hrest⟩ | ⟨tail, hk, hrest⟩
    · obtain rfl := kind_end hroot hroot' hlength' hk hrest
      exact ⟨by rw [hk, List.append_nil], hrest⟩
    · obtain rfl := kind_end hroot' hroot hlength hk hrest
      exact ⟨by rw [hk, List.append_nil], hrest.symm⟩
  have hroots := (List.cons.inj hkind.2).2
  obtain ⟨hex, heq, hhex, -⟩ := rootTest_eq hroot
  obtain ⟨hex', heq', hhex', -⟩ := rootTest_eq hroot'
  have hsame : root.length = root'.length := by
    rw [heq, heq', List.length_append, List.length_append, List.length_cons, List.length_cons, hhex, hhex']
  obtain ⟨hr, hf⟩ := List.append_inj hroots hsame
  exact ⟨hkind.1, hr, (List.cons.inj hf).2⟩

/-- Commitments that agree in a field. -/
def AgreeOn (names : List String) (c d : Json) : Prop := ∀ name ∈ names, c.get (js name) = d.get (js name)

theorem length_scopeTest {kind : JsString} (h : scopeTest kind = true) : kind.length ≤ 64 := by
  cases kind with
  | nil => simp
  | cons c rest =>
    rw [scopeTest, Bool.and_eq_true, Bool.and_eq_true, decide_eq_true_eq] at h
    have hrest := h.1.2.2
    rw [List.length_cons]
    omega

/-- The text of a reference, which is empty if there is none. -/
def refText (ref : Option Json) : JsString :=
  match ref with
  | some (.str s) => s
  | _ => []

theorem refText_inj {ref ref' : Option Json} (h : CarriesRef ref) (h' : CarriesRef ref') (heq : refText ref = refText ref') :
    ref = ref' := by
  rcases h with rfl | ⟨r, rfl, hr⟩ <;> rcases h' with rfl | ⟨r', rfl, hr'⟩
  · rfl
  · obtain rfl : [] = r' := heq
    exact absurd hr' publicRef_nil
  · obtain rfl : r = [] := heq
    exact absurd hr publicRef_nil
  · obtain rfl : r = r' := heq
    rfl

theorem commitmentText_normalized {kind root : JsString} {ref count : Option Json} (href : CarriesRef ref) :
    commitmentText (.obj ([(js "kind", .str kind), (js "root", .str root)] ++ field (js "ref") ref ++ field (js "count") count)) =
      kind ++ js ":" ++ root ++ js ":" ++ refText ref := by
  rcases href with rfl | ⟨r, rfl, -⟩
  · cases count <;> rfl
  · rfl

/-- Commitments with one text that agree on their counts are the same. -/
theorem Normalized.eq_of_text {c d : Json} (hc : Normalized P c) (hd : Normalized P d) (h : commitmentText c = commitmentText d) :
    AgreeOn orderFields c d ∧ (c.get (js "count") = d.get (js "count") → c = d) := by
  obtain ⟨-, hscope, hroot, href, -⟩ := hc
  obtain ⟨-, hscope', hroot', href', -⟩ := hd
  rename_i kind root ref count kind' root' ref' count'
  rw [commitmentText_normalized href, commitmentText_normalized href'] at h
  obtain ⟨rfl, rfl, hrefs⟩ := commitmentText_inj (rootTest_of_passes hroot) (rootTest_of_passes hroot') (length_scopeTest hscope)
    (length_scopeTest hscope') h
  obtain rfl := refText_inj href href' hrefs
  constructor
  · intro name hname
    have hne : js name ≠ js "count" := by
      rintro heq
      rw [js_inj.1 heq] at hname
      exact absurd hname (by simp [orderFields])
    rw [get_obj_append, get_obj_append (_ ++ _), get_field, if_neg hne, get_field, if_neg hne]
  · intro hcount
    have hget : ∀ count, (Json.obj ([(js "kind", .str kind), (js "root", .str root)] ++ field (js "ref") ref ++
        field (js "count") count)).get (js "count") = count := by
      intro count
      simp [get_obj_append]
    rw [hget, hget] at hcount
    rw [hcount]

/-! ## Reordered inputs -/

/-- The names under which the commitments of an input are looked for, the first one that is given counting. -/
def commitmentNames : List String :=
  ["commitments", "memory_roots", "memoryRoots", "roots", "commitment_roots", "commitmentRoots", "event_roots", "eventRoots"]

/-- The commitments of an input stand under this name. -/
structure ListedUnder (input : Json) (key : String) (items : List Json) : Prop where
  given : input.get (js key) = some (.arr items)
  first : ∃ before after, commitmentNames = before ++ key :: after ∧ ∀ name ∈ before, orElse (input.get (js name)) none = none
  objects : ∀ x ∈ items, x.isPlainRecord = true

theorem firstOf_append {before after : List (Option Json)} {v : Json} (hv : v ≠ .null)
    (h : ∀ x ∈ before, orElse x none = none) : firstOf (before ++ some v :: after) = some v := by
  have hhead : firstOf (some v :: after) = some v := by
    cases after with
    | nil => rfl
    | cons w after => cases v <;> first | rfl | exact absurd rfl hv
  induction before with
  | nil => exact hhead
  | cons x before ih =>
    have hrest := ih fun y hy => h y (List.mem_cons_of_mem _ hy)
    obtain ⟨y, l, hl⟩ : ∃ y l, before ++ some v :: after = y :: l := List.exists_cons_of_ne_nil (by simp)
    rw [List.cons_append, hl, firstOf, ← hl, hrest]
    have hx := h x List.mem_cons_self
    rcases x with _ | x
    · rfl
    · cases x <;> first | rfl | cases hx

theorem ListedUnder.fieldOf {input : Json} {key : String} {items : List Json} (h : ListedUnder input key items) :
    fieldOf input commitmentNames = some (.arr items) := by
  obtain ⟨before, after, hnames, hbefore⟩ := h.first
  rw [ProofNetwork.fieldOf, hnames, List.map_append, List.map_cons, h.given]
  refine firstOf_append (by simp) fun x hx => ?_
  obtain ⟨name, hname, rfl⟩ := List.mem_map.1 hx
  exact hbefore name hname

theorem fieldOf_absent {input : Json} {names : List String} (h : ∀ name ∈ names, input.get (js name) = none) :
    ProofNetwork.fieldOf input names = none := by
  cases hfield : ProofNetwork.fieldOf input names with
  | none => rfl
  | some v =>
    obtain ⟨name, hname, hget⟩ := List.mem_map.1 (mem_of_firstOf hfield)
    cases (h name hname).symm.trans hget

/-- The input with its commitments in another order. -/
def reordered (input : Json) (key : String) (items : List Json) : Json := input.set (js key) (.arr items)

theorem fieldOf_reordered {input : Json} {key : String} {items : List Json} {names : List String} (h : key ∉ names) :
    fieldOf (reordered input key items) names = fieldOf input names := by
  have hname : ∀ name ∈ names, (reordered input key items).get (js name) = input.get (js name) := by
    intro name hname
    have hne : js name ≠ js key := by
      intro heq
      rw [js_inj.1 heq] at hname
      exact h hname
    rw [reordered, get_set, if_neg hne]
  rw [fieldOf, List.map_congr_left hname, fieldOf]

variable {input : Json} {key : String} {items items' : List Json}

theorem ListedUnder.reordered (h : ListedUnder input key items) (hperm : items'.Perm items) :
    ListedUnder (reordered input key items') key items' := by
  obtain ⟨before, after, hnames, hbefore⟩ := h.first
  have hnodup : commitmentNames.Nodup := by simp [commitmentNames]
  rw [hnames] at hnodup
  refine ⟨by rw [ProofNetwork.reordered, get_set, if_pos rfl], ⟨before, after, hnames, fun name hname => ?_⟩,
    fun x hx => h.objects x (hperm.mem_iff.1 hx)⟩
  have hne : js name ≠ js key := fun heq =>
    (List.nodup_append.1 hnodup).2.2 name hname key List.mem_cons_self (js_inj.1 heq)
  rw [ProofNetwork.reordered, get_set, if_neg hne]
  exact hbefore name hname

theorem ListedUnder.mem (h : ListedUnder input key items) : key ∈ commitmentNames := by
  obtain ⟨before, after, hnames, -⟩ := h.first
  rw [hnames]
  simp

/-- Objects take no references from beside them. -/
theorem ListedUnder.normalizeCommitments (h : ListedUnder input key items) : normalizeCommitments P input = (do
    let _ ← publicRefArray P (ProofNetwork.fieldOf input ["refs", "artifact_refs", "artifactRefs"]) (js "refs")
    listCommitments P items) := by
  have hwith : ∀ refs, (items.zipIdx.map fun x => withRef refs x.1 x.2) = items := by
    intro refs
    have hid : ∀ x ∈ items.zipIdx, withRef refs x.1 x.2 = x.1 := by
      rintro ⟨item, index⟩ hx
      have hplain := h.objects item (List.fst_mem_of_mem_zipIdx hx)
      cases item with
      | str s => cases hplain
      | _ => rfl
    rw [List.map_congr_left hid, List.zipIdx_map_fst]
  have hraw := h.fieldOf
  unfold commitmentNames at hraw
  rw [ProofNetwork.normalizeCommitments]
  simp only [hraw, arrayInput, hwith]
  rfl

theorem Public.reordered (h : Public input) (hlist : ListedUnder input key items) (hperm : items'.Perm items) :
    Public (reordered input key items') := by
  have hvalue : Public (.arr items) := h.get hlist.given
  cases hvalue with
  | arr hitems =>
    cases h with
    | obj hkeys hvals =>
      rename_i fs
      have hold : (js key, Json.arr items) ∈ fs := mem_of_get hlist.given
      have hkey : publicField (js key) (.arr items') = true := by
        rw [publicField_congr (show isFalse (.arr items') = isFalse (.arr items) from rfl)]
        exact hkeys _ hold
      refine .obj (fun f hf => ?_) fun f hf => ?_
      · rcases mem_setField fs hf with rfl | hf
        · exact hkey
        · exact hkeys f hf
      · rcases mem_setField fs hf with rfl | hf
        · exact .arr fun x hx => hitems x (hperm.mem_iff.1 hx)
        · exact hvals f hf
    | _ => cases hlist.given

theorem checkInput_of_public (hplain : input.isPlainRecord = true) (h : Public input) : checkInput P input = .ok () := by
  rw [checkInput, requiredObject, if_pos hplain]
  exact Except.bind_eq_ok.2 ⟨(), rfl, (assertNoPrivateProofPayload_ok _ _).2 h⟩

theorem public_of_create {batch : Json} (h : createProofNetworkAnchorBatch P input = .ok batch) : Public input := by
  obtain ⟨hcheck, -⟩ := Except.check_eq_ok.1 h
  exact (assertNoPrivateProofPayload_ok _ _).1 (Except.check_eq_ok.1 hcheck).2

/-- The names of the fields that a batch takes beside its commitments. -/
def besideNames : List (List String) :=
  [["generated_at", "generatedAt", "created_at", "createdAt"], ["anchor_ref", "anchorRef", "batch_ref", "batchRef"],
    ["chain", "network", "public_chain_ref", "publicChainRef"], ["cluster_ref", "clusterRef", "cluster"],
    ["instruction_ref", "instructionRef"], ["refs", "artifact_refs", "artifactRefs"]]

/-- A batch is made of the normalized commitments and of the other fields. -/
theorem create_congr {input' : Json} (hcheck : checkInput P input' = checkInput P input)
    (hlist : normalizeCommitments P input' = normalizeCommitments P input)
    (hbeside : ∀ names ∈ besideNames, fieldOf input' names = fieldOf input names) :
    createProofNetworkAnchorBatch P input' = createProofNetworkAnchorBatch P input := by
  simp only [besideNames, List.forall_mem_cons, List.not_mem_nil, false_implies, implies_true, and_true] at hbeside
  obtain ⟨hgenerated, hanchor, hchain, hcluster, hinstruction, -⟩ := hbeside
  rw [createProofNetworkAnchorBatch, createProofNetworkAnchorBatch, hcheck, hlist, hgenerated, hanchor, hchain, hcluster,
    hinstruction]

theorem beside_reordered (h : ListedUnder input key items) (items' : List Json) :
    ∀ names ∈ besideNames, fieldOf (reordered input key items') names = fieldOf input names := by
  have hdisjoint : ∀ names ∈ besideNames, ∀ name ∈ commitmentNames, name ∉ names := by
    simp [besideNames, commitmentNames]
  exact fun names hnames => fieldOf_reordered (hdisjoint names hnames key h.mem)

/-- What is read of a batch that was created. -/
theorem created_commitments {batch : Json} (h : createProofNetworkAnchorBatch P input = .ok batch) :
    ∃ commitments root, normalizeCommitments P input = .ok commitments ∧ sha256Json P (.arr commitments) = .ok root ∧
      batch.get (js "commitments") = some (.arr commitments) ∧ batch.get (js "commitment_root") = some (.str root) := by
  simp only [createProofNetworkAnchorBatch, Except.bind_eq_ok] at h
  obtain ⟨_, -, commitments, hcommitments, root, hroot, generatedAt, -, anchorRef, -, chain, -, clusterRef, -, instructionRef, -,
    hfreeze⟩ := h
  obtain ⟨d, -, hrest⟩ := Except.bind_eq_ok.1 hfreeze
  obtain ⟨-, hbatch⟩ := Except.check_eq_ok.1 hrest
  obtain rfl := Except.pure_eq_ok.1 hbatch
  exact ⟨commitments, root, hcommitments, hroot, rfl, rfl⟩

/-! ## The order of commitments -/

/-- The batch is the same for every order of its commitments. -/
def Unordered (P : Platform) (input : Json) (key : String) (items : List Json) (batch : Json) : Prop :=
  ∀ items', items'.Perm items → ∃ batch', createProofNetworkAnchorBatch P (reordered input key items') = .ok batch' ∧
    AgreeOn ["commitment_root", "anchor_batch_id", "anchor_batch_hash"] batch' batch

/-- Commitments of one kind with one root and one reference have one count. -/
def CountsAgree (P : Platform) (items : List Json) : Prop :=
  ∀ x ∈ items, ∀ y ∈ items, AgreeOn orderFields (commitmentOf P x) (commitmentOf P y) →
    (commitmentOf P x).get (js "count") = (commitmentOf P y).get (js "count")

/-- The texts that the roots of the batches are digests of. -/
def orderTexts (P : Platform) (items : List Json) : Set JsString :=
  { t | ∃ items' : List Json, items'.Perm items ∧ t = digestText P (.arr (sortCommitments P (items'.map (commitmentOf P)))) }

/-- `localeCompare` orders strings, and tells those of ASCII characters apart. -/
structure LocaleOrder (P : Platform) : Prop where
  total : ∀ s t, P.localeLe s t = true ∨ P.localeLe t s = true
  trans : ∀ s t u, P.localeLe s t = true → P.localeLe t u = true → P.localeLe s u = true
  ascii : ∀ s t : JsString, (∀ c ∈ s, c.val < 128) → (∀ c ∈ t, c.val < 128) → P.localeLe s t = true → P.localeLe t s = true → s = t

theorem commitmentText_congr {c d : Json} (h : AgreeOn orderFields c d) : commitmentText c = commitmentText d := by
  have hfield : ∀ name ∈ orderFields, textField c name = textField d name := fun name hname => by
    rw [textField, h name hname, textField]
  rw [commitmentText, hfield "kind" (by simp [orderFields]), hfield "root" (by simp [orderFields]),
    hfield "ref" (by simp [orderFields]), commitmentText]

theorem Normalized.get_canonicalize {c : Json} (h : Normalized P c) :
    ∀ name ∈ ["kind", "root", "ref", "count"], (Settlement.canonicalize c).get (js name) = c.get (js name) := by
  intro name hname
  have hne : js name ≠ Settlement.protoKey := by
    revert name
    decide
  rw [Settlement.get_canonicalize_of_ne hne]
  obtain ⟨-, -, -, href, hcount⟩ := h
  rename_i kind root ref count
  have hself : ∀ f ∈ [(js "kind", .str kind), (js "root", .str root)] ++ field (js "ref") ref ++ field (js "count") count,
      Settlement.canonicalize f.2 = f.2 := by
    simp only [List.forall_mem_append, List.forall_mem_cons, List.not_mem_nil, false_implies, implies_true, and_true]
    refine ⟨⟨⟨rfl, rfl⟩, ?_⟩, ?_⟩
    · rcases href with rfl | ⟨r, rfl, -⟩ <;> simp [field, Settlement.canonicalize]
    · rcases hcount with rfl | ⟨n, rfl, -⟩ <;> simp [field, Settlement.canonicalize]
  cases hget : (Json.obj ([(js "kind", .str kind), (js "root", .str root)] ++ field (js "ref") ref ++
      field (js "count") count)).get (js name) with
  | none => rfl
  | some v => rw [Option.map_some, hself _ (mem_of_get hget)]

theorem Normalized.canonicalize_inj {c d : Json} (hc : Normalized P c) (hd : Normalized P d)
    (h : Settlement.canonicalize c = Settlement.canonicalize d) : c = d := by
  have hagree : AgreeOn ["kind", "root", "ref", "count"] c d := by
    intro name hname
    rw [← hc.get_canonicalize name hname, h, hd.get_canonicalize name hname]
  have htext : commitmentText c = commitmentText d := by
    refine commitmentText_congr fun name hname => hagree name ?_
    simp only [orderFields, List.mem_cons, List.not_mem_nil, or_false] at hname ⊢
    tauto
  exact (hc.eq_of_text hd htext).2 (hagree "count" (by simp))

theorem ascii_of_class {test : CodeUnit → Bool} (punctuation : JsString)
    (hclass : ∀ c, test c = true → isLowerUnit c = true ∨ isDigitUnit c = true ∨ c ∈ punctuation)
    (hpunct : punctuation.all (fun c => decide (c.val < 128)) = true) {s : JsString} (h : ∀ c ∈ s, test c = true) : ∀ c ∈ s, c.val < 128 := by
  intro c hc
  rcases hclass c (h c hc) with hlower | hdigit | hmem
  · have hrange : 97 ≤ c.val ∧ c.val ≤ 122 := of_decide_eq_true hlower
    omega
  · have hrange : 48 ≤ c.val ∧ c.val ≤ 57 := of_decide_eq_true hdigit
    omega
  · exact of_decide_eq_true (List.all_eq_true.1 hpunct c hmem)

theorem ascii_refUnits {s : JsString} (h : ∀ c ∈ s, isRefUnit c = true) : ∀ c ∈ s, c.val < 128 := by
  refine ascii_of_class (js "._:/@+-") (fun c hc => ?_) (by decide) h
  rw [isRefUnit, Bool.or_eq_true, Bool.or_eq_true, decide_eq_true_eq, or_assoc] at hc
  exact hc

theorem ascii_scope {s : JsString} (h : scopeTest s = true) : ∀ c ∈ s, c.val < 128 := by
  have hunits : ∀ c ∈ s, isScopeUnit c = true := by
    cases s with
    | nil => cases h
    | cons c s =>
      rw [scopeTest, Bool.and_eq_true, Bool.and_eq_true, List.all_eq_true] at h
      refine List.forall_mem_cons.2 ⟨?_, h.2⟩
      rw [isScopeUnit, h.1.1]
      rfl
  refine ascii_of_class (js "._:-") (fun c hc => ?_) (by decide) hunits
  rw [isScopeUnit, Bool.or_eq_true, Bool.or_eq_true, decide_eq_true_eq, or_assoc] at hc
  exact hc

theorem Normalized.ascii {c : Json} (h : Normalized P c) : ∀ u ∈ commitmentText c, u.val < 128 := by
  obtain ⟨-, hscope, hroot, href, -⟩ := h
  rename_i kind root ref count
  have hcolon : ∀ u ∈ js ":", u.val < 128 := by
    intro u hu
    obtain rfl : u = 58 := List.mem_singleton.1 hu
    decide
  have hrefs : ∀ u ∈ refText ref, u.val < 128 := by
    rcases href with rfl | ⟨r, rfl, hr⟩
    · exact fun u hu => absurd hu List.not_mem_nil
    · exact ascii_refUnits (refUnits_of_refTest (testedString_ok (hr [])).2).2
  rw [commitmentText_normalized href]
  simp only [List.forall_mem_append]
  exact ⟨⟨⟨⟨ascii_scope hscope, hcolon⟩, ascii_refUnits (refUnits_of_rootTest (rootTest_of_passes hroot))⟩, hcolon⟩, hrefs⟩

/-- The sorted commitments are the same for every order exactly when the counts agree. -/
theorem sorted_unordered_iff (hlocale : LocaleOrder P) (haccepted : ∀ x ∈ items, AcceptedCommitment P x) :
    (∀ items' : List Json, items'.Perm items →
        sortCommitments P (items'.map (commitmentOf P)) = sortCommitments P (items.map (commitmentOf P))) ↔ CountsAgree P items := by
  have : Std.Total fun a b : Json => P.localeLe (commitmentText a) (commitmentText b) = true := ⟨fun a b => hlocale.total _ _⟩
  have : IsTrans Json fun a b => P.localeLe (commitmentText a) (commitmentText b) = true := ⟨fun a b c => hlocale.trans _ _ _⟩
  refine (StableSort.sort_unordered_iff (fun a b : Json => P.localeLe (commitmentText a) (commitmentText b) = true)
    (commitmentOf P) items).trans ⟨fun h x hx y hy hagree => ?_, fun h x hx y hy hxy hyx => ?_⟩
  · have htext := commitmentText_congr hagree
    have hself := (hlocale.total (commitmentText (commitmentOf P y)) (commitmentText (commitmentOf P y))).elim id id
    rw [h x hx y hy (by rw [htext]; exact hself) (by rw [htext]; exact hself)]
  · have hnx := (haccepted x hx).normalized
    have hny := (haccepted y hy).normalized
    have htext := hlocale.ascii _ _ hnx.ascii hny.ascii hxy hyx
    obtain ⟨hagree, hsame⟩ := hnx.eq_of_text hny htext
    exact hsame (h x hx y hy hagree)

theorem map_injOn {α β : Type} {f : α → β} : ∀ {l m : List α}, (∀ x ∈ l, ∀ y ∈ m, f x = f y → x = y) → l.map f = m.map f → l = m
  | [], [], _, _ => rfl
  | [], _ :: _, _, h | _ :: _, [], _, h => nomatch h
  | x :: l, y :: m, hinj, h => by
    obtain ⟨hxy, hrest⟩ := List.cons.inj h
    rw [hinj x List.mem_cons_self y List.mem_cons_self hxy, map_injOn (fun a ha b hb =>
      hinj a (List.mem_cons_of_mem _ ha) b (List.mem_cons_of_mem _ hb)) hrest]

/-- **When the order of its commitments is nothing to a batch.** -/
theorem batch_unordered_iff (P : Platform) (hlocale : LocaleOrder P) (input : Json) (key : String) (items : List Json) (batch : Json)
    (hlist : ListedUnder input key items) (h : createProofNetworkAnchorBatch P input = .ok batch) :
    (CountsAgree P items → Unordered P input key items batch) ∧
      (CollisionFree (orderTexts P items) → (Unordered P input key items batch ↔ CountsAgree P items)) := by
  obtain ⟨commitments, root, hcommitments, hroot, -, hrootGet⟩ := created_commitments h
  have hpublic := public_of_create h
  rw [hlist.normalizeCommitments, Except.bind_eq_ok] at hcommitments
  obtain ⟨refs, hrefs, hlisted⟩ := hcommitments
  obtain ⟨hne, haccepted, hsorted⟩ := listCommitments_eq_ok.1 hlisted
  -- what is normalized in another order
  have hother : ∀ items', items'.Perm items → normalizeCommitments P (reordered input key items') =
      .ok (sortCommitments P (items'.map (commitmentOf P))) := by
    intro items' hperm
    rw [(hlist.reordered hperm).normalizeCommitments, beside_reordered hlist items' _ (by simp [besideNames]), hrefs, Except.ok_bind]
    exact listCommitments_eq_ok.2 ⟨fun hnil => hne (by rw [hnil] at hperm; exact hperm.symm.eq_nil),
      fun x hx => haccepted x (hperm.mem_iff.1 hx), rfl⟩
  have hif : CountsAgree P items → Unordered P input key items batch := by
    intro hcounts items' hperm
    have hsame := (sorted_unordered_iff hlocale haccepted).2 hcounts items' hperm
    have hplain : input.isPlainRecord = true := by
      have hgiven := hlist.given
      cases input with
      | obj fs => rfl
      | _ => cases hgiven
    refine ⟨batch, ?_, fun _ _ => rfl⟩
    rw [create_congr ?_ ?_ (beside_reordered hlist items'), h]
    · rw [checkInput_of_public rfl (hpublic.reordered hlist hperm), checkInput_of_public hplain hpublic]
    · rw [hother items' hperm, hsame, hlist.normalizeCommitments, hrefs, Except.ok_bind, hlisted, hsorted]
  refine ⟨hif, fun hcf => ⟨fun hunordered => ?_, hif⟩⟩
  refine (sorted_unordered_iff hlocale haccepted).1 fun items' hperm => ?_
  obtain ⟨batch', hbatch', hagree⟩ := hunordered items' hperm
  obtain ⟨commitments', root', hcommitments', hroot', -, hrootGet'⟩ := created_commitments hbatch'
  rw [hother items' hperm] at hcommitments'
  obtain rfl := Except.ok.inj hcommitments'
  have hroots := hagree "commitment_root" (by simp)
  rw [hrootGet, hrootGet'] at hroots
  obtain rfl := Json.str.inj (Option.some.inj hroots)
  rw [hsorted] at hroot
  have hcopies := digest_copies hroot' hroot (hcf.mono (by
    rintro t (rfl | rfl)
    · exact ⟨items', hperm, rfl⟩
    · exact ⟨items, List.Perm.refl items, rfl⟩))
  rw [Settlement.canonicalize_arr, Settlement.canonicalize_arr] at hcopies
  have hnormal : ∀ items' : List Json, items'.Perm items → ∀ c ∈ sortCommitments P (items'.map (commitmentOf P)), Normalized P c := by
    intro items' hperm c hc
    obtain ⟨x, hx, rfl⟩ := List.mem_map.1 ((List.mem_insertionSort _).1 hc)
    exact (haccepted x (hperm.mem_iff.1 hx)).normalized
  exact map_injOn (fun c hc d hd => (hnormal _ hperm c hc).canonicalize_inj (hnormal _ (List.Perm.refl items) d hd))
    (Json.arr.inj hcopies)

/-! ## Two counts of one root -/

theorem localeOrder_reference : LocaleOrder reference where
  total s t := (le_total s t).imp decide_eq_true decide_eq_true
  trans _ _ _ h h' := decide_eq_true ((of_decide_eq_true h).trans (of_decide_eq_true h'))
  ascii _ _ _ _ h h' := le_antisymm (of_decide_eq_true h) (of_decide_eq_true h')

/-- The names in a batch that is made of commitments alone. -/
def batchNames : List JsString :=
  [js "schema", js "generated_at", js "anchor_ref", js "chain", js "cluster_ref", js "commitment_count", js "root_count",
    js "commitment_root", js "commitments", js "solana_ready_anchor", js "payload_hash", js "account_derivation_ref",
    js "instruction_ref", js "opaque_payload_only", js "kind", js "root", js "ref", js "count", js "roots", js "refs"]

theorem batchNames_plain {names : List JsString} (h : names ⊆ batchNames) : plainNames names = true := by
  have hall : plainNames batchNames = true := by
    unfold batchNames
    repeat rw [js_ofList]
    decide
  exact List.all_eq_true.2 fun key hkey => List.all_eq_true.1 hall key (h hkey)

theorem batchTexts_public : ∀ text ∈ [Kind.anchorBatch.schema, js "1970-01-01T00:00:00.000Z", js "solana", js "solana:mainnet-ready",
    js "proof-network-anchor-batch-v1", js "memory_root"], Public (.str text) := by
  have hall : [Kind.anchorBatch.schema, js "1970-01-01T00:00:00.000Z", js "solana", js "solana:mainnet-ready",
      js "proof-network-anchor-batch-v1", js "memory_root"].all publicText = true := by decide
  exact fun text htext => .str (List.all_eq_true.1 hall text htext)

/-- An input with public commitments and no other field makes a batch. -/
theorem batch_created {commitments : List Json} (hplain : input.isPlainRecord = true) (hpublic : Public input)
    (hlist : normalizeCommitments reference input = .ok commitments) (hcommitments : ∀ c ∈ commitments, Public c)
    (hbeside : ∀ names ∈ besideNames.dropLast, fieldOf input names = none) :
    ∃ batch, createProofNetworkAnchorBatch reference input = .ok batch := by
  have hroot : Public (.arr commitments) := .arr hcommitments
  have hready : ∀ text : JsString, Public (.obj [(js "payload_hash", .str (prefixedSha256 text)),
      (js "account_derivation_ref", .str (js "proofnet:" ++ shortDigest (prefixedSha256 text))),
      (js "instruction_ref", .str (js "proof-network-anchor-batch-v1")), (js "opaque_payload_only", .bool true)]) := fun text =>
    public_obj (batchNames_plain (by simp [batchNames])) rfl
      ⟨public_digest _, public_short (by decide) _, batchTexts_public _ (by simp), .bool true⟩
  have hbody : ∀ text : JsString, Public (.obj ([(js "schema", .str Kind.anchorBatch.schema),
      (js "generated_at", .str (js "1970-01-01T00:00:00.000Z")), (js "anchor_ref", .str (refFromDigest "anchor" (prefixedSha256 text))),
      (js "chain", .str (js "solana")), (js "cluster_ref", .str (js "solana:mainnet-ready")),
      (js "commitment_count", .num commitments.length), (js "root_count", .num commitments.length),
      (js "commitment_root", .str (prefixedSha256 text)), (js "commitments", .arr commitments),
      (js "solana_ready_anchor", .obj [(js "payload_hash", .str (prefixedSha256 text)),
        (js "account_derivation_ref", .str (js "proofnet:" ++ shortDigest (prefixedSha256 text))),
        (js "instruction_ref", .str (js "proof-network-anchor-batch-v1")), (js "opaque_payload_only", .bool true)])] ++
      safeBooleanBoundaries)) := fun text =>
    Public.append (public_obj (batchNames_plain (by simp [batchNames])) rfl ⟨batchTexts_public _ (by simp), batchTexts_public _ (by simp),
      public_short (by decide) _, batchTexts_public _ (by simp), batchTexts_public _ (by simp), .num _, .num _, public_digest _, hroot,
      hready text⟩) public_safe
  obtain ⟨batch, hbatch⟩ := freezeArtifact_of_public (P := reference) .anchorBatch (hbody (digestText reference (.arr commitments)))
  have homitted : ∀ check names fallback field, names ∈ besideNames.dropLast →
      optionally check (fieldOf input names) fallback field = .ok fallback := by
    intro check names fallback field hnames
    rw [hbeside names hnames]
    rfl
  have hdate : ∀ names field, names ∈ besideNames.dropLast →
      isoTimestamp reference (fieldOf input names) field = .ok (js "1970-01-01T00:00:00.000Z") := by
    intro names field hnames
    rw [hbeside names hnames]
    rfl
  refine ⟨batch, Except.check_eq_ok.2 ⟨checkInput_of_public hplain hpublic, ?_⟩⟩
  refine Except.bind_eq_ok.2 ⟨_, hlist, Except.bind_eq_ok.2 ⟨_, sha256Json_of_public hroot, ?_⟩⟩
  refine Except.bind_eq_ok.2 ⟨_, hdate _ _ (by simp [besideNames]), Except.bind_eq_ok.2 ⟨_, homitted _ _ _ _ (by simp [besideNames]), ?_⟩⟩
  refine Except.bind_eq_ok.2 ⟨_, homitted _ _ _ _ (by simp [besideNames]),
    Except.bind_eq_ok.2 ⟨_, homitted _ _ _ _ (by simp [besideNames]), ?_⟩⟩
  exact Except.bind_eq_ok.2 ⟨_, homitted _ _ _ _ (by simp [besideNames]), hbatch⟩

def countedRoot : JsString := prefixedSha256 (js "a")

/-- A commitment to the root, with a count. -/
def counted (count : ℚ) : Json :=
  .obj [(js "kind", .str (js "memory_root")), (js "root", .str countedRoot), (js "count", .num count)]

def countedInput (items : List Json) : Json := .obj [(js "commitments", .arr items)]

theorem counted_normalized (n : ℕ) (hpos : 0 < n) : Normalized P (counted n) := by
  have hmemory : Passes requiredString (js "memory_root") := requiredString_passes (by decide) rfl
  have hcount : CarriesCount P (some (.num n)) := by
    refine .inr ⟨n, rfl, fun field => ?_⟩
    have hnumeric : toNumeric P.toNumberFormat (some (.num (n : ℚ))) = .finite n := rfl
    rw [positiveInteger, testedInteger, hnumeric]
    simp [hpos]
  exact .mk hmemory rfl (digestRef_passes (rootTest_sha256 _)) (.inl rfl) hcount

theorem counted_public (count : ℚ) : Public (counted count) :=
  public_obj (batchNames_plain (by simp [batchNames])) rfl ⟨batchTexts_public _ (by simp), public_digest _, .num count⟩

theorem counted_listed (items : List Json) (h : ∀ x ∈ items, x.isPlainRecord = true) :
    ListedUnder (countedInput items) "commitments" items :=
  ⟨rfl, ⟨[], commitmentNames.tail, rfl, fun _ h => absurd h List.not_mem_nil⟩, h⟩

/-- Two commitments to the root with these counts. -/
def twoCounts (m n : ℕ) : List Json := [counted m, counted n]

theorem forall_twoCounts {Q : Json → Prop} {m n : ℕ} (hm : Q (counted m)) (hn : Q (counted n)) : ∀ c ∈ twoCounts m n, Q c := by
  simp only [twoCounts, List.forall_mem_cons, List.not_mem_nil, false_implies, implies_true, and_true]
  exact ⟨hm, hn⟩

theorem twoCounts_listed (m n : ℕ) : ListedUnder (countedInput (twoCounts m n)) "commitments" (twoCounts m n) :=
  counted_listed _ (forall_twoCounts rfl rfl)

theorem twoCounts_normalized {m n : ℕ} (hm : 0 < m) (hn : 0 < n) :
    normalizeCommitments reference (countedInput (twoCounts m n)) = .ok (twoCounts m n) := by
  have hself : ∀ k : ℕ, 0 < k → normalizeCommitment reference (counted k) 0 = .ok (counted k) := fun k hk =>
    (counted_normalized k hk).again 0
  have hrefs : publicRefArray reference (fieldOf (countedInput (twoCounts m n)) ["refs", "artifact_refs", "artifactRefs"]) (js "refs") =
      .ok [] := rfl
  -- the texts are the same, so the commitments stay as they are
  have hsorted : sortCommitments reference (twoCounts m n) = twoCounts m n := by
    have htext : commitmentText (counted m) = commitmentText (counted n) := rfl
    have : Std.Total fun a b : Json => reference.localeLe (commitmentText a) (commitmentText b) = true :=
      ⟨fun a b => localeOrder_reference.total _ _⟩
    have : IsTrans Json fun a b => reference.localeLe (commitmentText a) (commitmentText b) = true :=
      ⟨fun a b c => localeOrder_reference.trans _ _ _⟩
    refine List.Pairwise.insertionSort_eq (List.pairwise_pair.2 ?_)
    rw [htext]
    exact decide_eq_true le_rfl
  rw [(twoCounts_listed m n).normalizeCommitments, hrefs, Except.ok_bind, listCommitments_eq_ok]
  refine ⟨by simp [twoCounts], forall_twoCounts ⟨_, hself m hm⟩ ⟨_, hself n hn⟩, ?_⟩
  have hmap : (twoCounts m n).map (commitmentOf reference) = twoCounts m n := by
    rw [twoCounts, List.map_cons, List.map_cons, List.map_nil, commitmentOf_eq (hself m hm), commitmentOf_eq (hself n hn)]
  rw [hmap, hsorted]

theorem twoCounts_created {m n : ℕ} (hm : 0 < m) (hn : 0 < n) :
    ∃ batch, createProofNetworkAnchorBatch reference (countedInput (twoCounts m n)) = .ok batch := by
  have hitems : ∀ c ∈ twoCounts m n, Public c := forall_twoCounts (counted_public _) (counted_public _)
  refine batch_created rfl (public_obj (batchNames_plain (by simp [batchNames])) rfl (.arr hitems)) (twoCounts_normalized hm hn) hitems ?_
  have hnot : ∀ names ∈ besideNames.dropLast, "commitments" ∉ names := by simp [besideNames]
  intro names hnames
  refine fieldOf_absent fun name hname => ?_
  have hne : name ≠ "commitments" := fun heq => hnot names hnames (heq ▸ hname)
  simp [countedInput, hne]

theorem batch_unordered_twoCounts : ∃ batch, createProofNetworkAnchorBatch reference (countedInput (twoCounts 1 1)) = .ok batch ∧
    ((CountsAgree reference (twoCounts 1 1) → Unordered reference (countedInput (twoCounts 1 1)) "commitments" (twoCounts 1 1) batch) ∧
      (CollisionFree (orderTexts reference (twoCounts 1 1)) →
        (Unordered reference (countedInput (twoCounts 1 1)) "commitments" (twoCounts 1 1) batch ↔
          CountsAgree reference (twoCounts 1 1)))) := by
  obtain ⟨batch, hbatch⟩ := twoCounts_created one_pos one_pos
  exact ⟨batch, hbatch, batch_unordered_iff reference localeOrder_reference _ _ _ _ (twoCounts_listed 1 1) hbatch⟩

theorem twoCounts_digests : prefixedSha256 (digestText reference (.arr (twoCounts 1 2))) ≠
    prefixedSha256 (digestText reference (.arr (twoCounts 2 1))) := by decide +kernel

/-- Two commitments that differ in their counts alone give another root in the other order. -/
theorem ordered_counts : ∃ batch, createProofNetworkAnchorBatch reference (countedInput (twoCounts 1 2)) = .ok batch ∧
    ListedUnder (countedInput (twoCounts 1 2)) "commitments" (twoCounts 1 2) ∧
    ¬ Unordered reference (countedInput (twoCounts 1 2)) "commitments" (twoCounts 1 2) batch := by
  obtain ⟨batch, hbatch⟩ := twoCounts_created one_pos two_pos
  refine ⟨batch, hbatch, twoCounts_listed 1 2, fun hunordered => ?_⟩
  obtain ⟨batch', hbatch', hagree⟩ := hunordered (twoCounts 2 1) (List.Perm.swap _ _ _)
  obtain ⟨commitments, root, hcommitments, hroot, -, hget⟩ := created_commitments hbatch
  obtain ⟨commitments', root', hcommitments', hroot', -, hget'⟩ := created_commitments hbatch'
  rw [twoCounts_normalized one_pos two_pos] at hcommitments
  have hinput : reordered (countedInput (twoCounts 1 2)) "commitments" (twoCounts 2 1) = countedInput (twoCounts 2 1) := rfl
  rw [hinput, twoCounts_normalized two_pos one_pos] at hcommitments'
  obtain rfl := Except.ok.inj hcommitments
  obtain rfl := Except.ok.inj hcommitments'
  have hroots := hagree "commitment_root" (by simp)
  rw [hget, hget'] at hroots
  have hequal := Json.str.inj (Option.some.inj hroots)
  rw [(sha256Json_ok_iff.1 hroot).2, (sha256Json_ok_iff.1 hroot').2] at hequal
  exact twoCounts_digests hequal.symm

/-! ## Roots with references beside them -/

/-- Roots and references as two lists. -/
def pairedInput (roots refs : List JsString) : Json := .obj [(js "roots", strings roots), (js "refs", strings refs)]

/-- The commitment to a root that carries a reference. -/
def anchored (root ref : JsString) : Json :=
  .obj [(js "kind", .str (js "memory_root")), (js "root", .str (trim root)), (js "ref", .str (trim ref))]

/-- The commitment for each root carries the reference at its place. -/
def KeepsRefs (roots refs : List JsString) (batch : Json) : Prop :=
  ∃ commitments, batch.get (js "commitments") = some (.arr commitments) ∧ commitments.Perm (List.zipWith anchored roots refs)

/-- The references at the places of a root. -/
def refsAt (root : JsString) (roots refs : List JsString) : List JsString :=
  ((roots.zip refs).filter fun p => decide (p.1 = root)).map Prod.snd

/-- Sorting the references leaves those of each root with it. -/
def RefsMatch (roots refs : List JsString) : Prop :=
  ∀ root, (refsAt root roots (sortStrings refs)).Perm (refsAt root roots refs)

/-- Pairs are the same up to their order exactly when they are the same for each first component. -/
theorem pairs_perm_iff {α β : Type} [DecidableEq α] [DecidableEq β] (l m : List (α × β)) : l.Perm m ↔
    ∀ a, ((l.filter fun p => decide (p.1 = a)).map Prod.snd).Perm ((m.filter fun p => decide (p.1 = a)).map Prod.snd) := by
  have hcount : ∀ (a : α) (b : β) (l : List (α × β)),
      ((l.filter fun p => decide (p.1 = a)).map Prod.snd).count b = l.count (a, b) := by
    intro a b l
    induction l with
    | nil => rfl
    | cons p l ih =>
      obtain ⟨c, d⟩ := p
      by_cases hc : c = a
      · simp [hc, List.count_cons, ih]
      · simp [hc, ih]
  refine ⟨fun h a => (h.filter _).map _, fun h => List.perm_iff_count.2 ?_⟩
  rintro ⟨a, b⟩
  rw [← hcount, ← hcount, (h a).count_eq]

theorem pairs_eq_of_perm {α β : Type} : ∀ {l : List α} {m n : List β}, l.Nodup → l.length = m.length → l.length = n.length →
    (l.zip m).Perm (l.zip n) → m = n
  | [], [], [], _, _, _, _ => rfl
  | a :: l, b :: m, c :: n, hnodup, hm, hn, h => by
    obtain ⟨hfresh, hnodup⟩ := List.nodup_cons.1 hnodup
    have hmem : (a, b) ∈ (a, c) :: l.zip n := h.mem_iff.1 List.mem_cons_self
    obtain rfl : b = c := by
      rcases List.mem_cons.1 hmem with heq | hrest
      · exact (Prod.mk.inj heq).2
      · exact absurd (List.of_mem_zip hrest).1 hfresh
    rw [pairs_eq_of_perm hnodup (Nat.succ.inj hm) (Nat.succ.inj hn) (List.perm_cons _ |>.1 h)]

theorem testedString_trim {test : JsString → Bool} {message : String} {s t field : JsString}
    (h : testedString test message (some (.str s)) field = .ok t) : t = trim s := by
  obtain ⟨u, hu, hrest⟩ := Except.bind_eq_ok.1 h
  have htrim : u = trim s := by
    rw [requiredString] at hu
    split at hu
    · cases hu
    · exact (Except.ok.inj hu).symm
  split at hrest
  · obtain rfl := Except.ok.inj hrest
    exact htrim
  · cases hrest

/-- Strings that pass a check one by one are trimmed. -/
theorem checkItems_trim {test : JsString → Bool} {message : String} {texts checked : List JsString} {field : JsString}
    (h : checkItems P (testedString test message) (texts.map fun s => some (.str s)) field = .ok checked) :
    checked = texts.map trim := by
  rw [checkItems, List.zipIdx_map, List.mapM_map] at h
  have hitem : ∀ x ∈ texts.zipIdx, testedString test message (some (.str x.1)) (itemField P field x.2) = .ok (trim x.1) := by
    intro x hx
    obtain ⟨t, -, ht⟩ := Except.exists_of_mapM_mem h hx
    have ht' : testedString test message (some (.str x.1)) (itemField P field x.2) = .ok t := ht
    rw [ht', testedString_trim ht']
  have hall := (Except.mapM_of_forall hitem).symm.trans h
  have hmap : (texts.zipIdx.map Prod.fst).map trim = texts.zipIdx.map (fun x => trim x.1) := List.map_map
  rw [← Except.ok.inj hall, ← hmap, List.zipIdx_map_fst]

theorem publicRefArray_strings {refs sorted : List JsString} {field : JsString}
    (h : publicRefArray P (some (strings refs)) field = .ok sorted) : sorted = sortStrings (refs.map trim) := by
  have hlist : listOf (some (strings refs)) = refs.map fun s => some (.str s) := by
    rw [strings, listOf, List.map_map]
    rfl
  rw [publicRefArray_some (by simp [strings]), hlist] at h
  split at h
  · cases h
  · obtain ⟨checked, hchecked, hsorted⟩ := Except.bind_eq_ok.1 h
    rw [← Except.pure_eq_ok.1 hsorted, checkItems_trim hchecked]

/-- Each root takes the reference at its place. -/
theorem zipIdx_withRef {roots refs : List JsString} (hlen : roots.length = refs.length) :
    ((roots.map Json.str).zipIdx.map fun x => withRef refs x.1 x.2) = List.zipWith (fun root ref =>
      .obj [(js "kind", .str (js "memory_root")), (js "root", .str root), (js "ref", .str ref)]) roots refs := by
  refine List.ext_getElem (by simp [hlen]) fun i hi hi' => ?_
  have hroot : i < roots.length := by simpa using hi
  have href : i < refs.length := hlen ▸ hroot
  simp [withRef, List.getElem?_eq_getElem href]

theorem trim_of_passes {ref : JsString} (h : Passes publicRef ref) : trim ref = ref := (testedString_trim (h [])).symm

theorem commitmentOf_withRef {root ref : JsString} (href : Passes publicRef ref)
    (h : AcceptedCommitment P (.obj [(js "kind", .str (js "memory_root")), (js "root", .str root), (js "ref", .str ref)])) :
    commitmentOf P (.obj [(js "kind", .str (js "memory_root")), (js "root", .str root), (js "ref", .str ref)]) =
      anchored root ref := by
  obtain ⟨c, hc⟩ := h
  rw [commitmentOf_eq hc]
  obtain ⟨-, h⟩ := Except.check_eq_ok.1 hc
  obtain ⟨kind, hkind, h⟩ := Except.bind_eq_ok.1 h
  obtain ⟨root', hroot, h⟩ := Except.bind_eq_ok.1 h
  obtain ⟨given, hgiven, h⟩ := Except.bind_eq_ok.1 h
  obtain ⟨count, hcount, h⟩ := Except.bind_eq_ok.1 h
  have hmemory : commitmentKind (some (.str (js "memory_root"))) = .ok (js "memory_root") := rfl
  have hsame : ∀ field, givenRef (some (.str ref)) field = .ok (some (.str ref)) := by
    intro field
    rw [givenRef, isBlank_of_passes href publicRef_nil, if_neg Bool.false_ne_true]
    exact Except.map_eq_ok.2 ⟨ref, href field, rfl⟩
  obtain rfl := Except.ok.inj (hmemory.symm.trans hkind)
  obtain rfl := testedString_trim hroot
  obtain rfl := Except.ok.inj ((hsame _).symm.trans hgiven)
  obtain rfl : none = count := Except.ok.inj hcount
  rw [anchored, trim_of_passes href]
  exact (Except.pure_eq_ok.1 h).symm

/-- The references are sorted before the roots take them. -/
theorem normalizeCommitments_paired {roots refs : List JsString} {commitments : List Json} (hlen : roots.length = refs.length)
    (h : normalizeCommitments P (pairedInput roots refs) = .ok commitments) :
    commitments.Perm (List.zipWith anchored roots (sortStrings (refs.map trim))) := by
  have hrefs : fieldOf (pairedInput roots refs) ["refs", "artifact_refs", "artifactRefs"] = some (strings refs) := rfl
  rw [normalizeCommitments, hrefs] at h
  obtain ⟨sorted, hsorted, hlist⟩ := Except.bind_eq_ok.1 h
  have hpasses : ∀ ref ∈ sorted, Passes publicRef ref := (publicRefArray_passes hsorted).2
  obtain rfl := publicRefArray_strings hsorted
  have hsame : roots.length = (sortStrings (refs.map trim)).length := by
    rw [sortStrings, List.length_insertionSort, List.length_map, hlen]
  have hraw' : (arrayInput (some (strings roots))).zipIdx.map (fun x => withRef (sortStrings (refs.map trim)) x.1 x.2) = _ :=
    zipIdx_withRef hsame
  have hok : listCommitments P _ = .ok commitments := hraw' ▸ hlist
  obtain ⟨-, haccepted, rfl⟩ := listCommitments_eq_ok.1 hok
  refine (List.perm_insertionSort _ _).trans (List.Perm.of_eq (List.ext_getElem (by simp) fun i hi _ => ?_))
  have hpair : i < (List.zipWith (fun root ref => Json.obj [(js "kind", .str (js "memory_root")), (js "root", .str root),
      (js "ref", .str ref)]) roots (sortStrings (refs.map trim))).length := by simpa using hi
  have haccept := haccepted _ (List.getElem_mem hpair)
  rw [List.getElem_zipWith] at haccept
  rw [List.getElem_map, List.getElem_zipWith, List.getElem_zipWith]
  exact commitmentOf_withRef (hpasses _ (List.getElem_mem _)) haccept

/-- The commitments for roots that carry references, as pairs. -/
theorem zipWith_anchored (roots refs : List JsString) : List.zipWith anchored roots refs =
    ((roots.map trim).zip (refs.map trim)).map fun p =>
      .obj [(js "kind", .str (js "memory_root")), (js "root", .str p.1), (js "ref", .str p.2)] := by
  rw [List.zip_map, List.map_map, List.zip, List.map_zipWith]
  rfl

/-- The references of a batch stay with their roots exactly when sorting them leaves those of each root with it. -/
theorem batch_keeps_refs_iff (P : Platform) (roots refs : List JsString) (batch : Json) (hlen : roots.length = refs.length)
    (h : createProofNetworkAnchorBatch P (pairedInput roots refs) = .ok batch) :
    (KeepsRefs roots refs batch ↔ RefsMatch (roots.map trim) (refs.map trim)) ∧
      ((roots.map trim).Nodup → (KeepsRefs roots refs batch ↔ sortStrings (refs.map trim) = refs.map trim)) := by
  obtain ⟨commitments, root, hcommitments, -, hget, -⟩ := created_commitments h
  have hsorted := normalizeCommitments_paired hlen hcommitments
  have htrim : (sortStrings (refs.map trim)).map trim = sortStrings (refs.map trim) := by
    have hself : ∀ ref ∈ sortStrings (refs.map trim), trim ref = ref := by
      intro ref href
      obtain ⟨ref', -, rfl⟩ := List.mem_map.1 ((List.mem_insertionSort _).1 href)
      exact trim_trim ref'
    rw [List.map_congr_left hself, List.map_id']
  have hpairs : KeepsRefs roots refs batch ↔
      ((roots.map trim).zip (sortStrings (refs.map trim))).Perm ((roots.map trim).zip (refs.map trim)) := by
    rw [zipWith_anchored, htrim] at hsorted
    have hinj : Function.Injective fun p : JsString × JsString =>
        Json.obj [(js "kind", .str (js "memory_root")), (js "root", .str p.1), (js "ref", .str p.2)] := by
      rintro ⟨root, ref⟩ ⟨root', ref'⟩ heq
      simpa using heq
    rw [← List.map_perm_map_iff hinj, ← zipWith_anchored]
    refine ⟨fun ⟨list, hlist, hperm⟩ => ?_, fun hperm => ⟨commitments, hget, hsorted.trans hperm⟩⟩
    obtain rfl : commitments = list := Json.arr.inj (Option.some.inj (hget.symm.trans hlist))
    exact hsorted.symm.trans hperm
  refine ⟨hpairs.trans (pairs_perm_iff _ _), fun hnodup => hpairs.trans ⟨fun hperm => ?_, fun heq => ?_⟩⟩
  · exact pairs_eq_of_perm hnodup (by simp [sortStrings, hlen]) (by simp [hlen]) hperm
  · rw [heq]

/-! ## References that are not sorted -/

theorem accepted_withRef {root ref : JsString} (hroot : rootTest root = true) (href : Passes publicRef ref) :
    AcceptedCommitment P (.obj [(js "kind", .str (js "memory_root")), (js "root", .str root), (js "ref", .str ref)]) := by
  have hmemory : Passes requiredString (js "memory_root") := requiredString_passes (by decide) rfl
  have hnormal : Normalized P (.obj ([(js "kind", .str (js "memory_root")), (js "root", .str root)] ++
      field (js "ref") (some (.str ref)) ++ field (js "count") none)) :=
    .mk hmemory rfl (digestRef_passes hroot) (.inr ⟨ref, rfl, href⟩) (.inl rfl)
  exact ⟨_, hnormal.again 0⟩

theorem paired_normalized {roots refs : List JsString} (hlen : roots.length = refs.length) (hne : roots ≠ [])
    (hcount : refs.length ≤ 64) (hroots : ∀ root ∈ roots, rootTest root = true) (hrefs : ∀ ref ∈ refs, Passes publicRef ref) :
    ∃ commitments, normalizeCommitments P (pairedInput roots refs) = .ok commitments := by
  have hchecked : publicRefArray P (fieldOf (pairedInput roots refs) ["refs", "artifact_refs", "artifactRefs"]) (js "refs") =
      .ok (sortStrings refs) := by
    have hfield : fieldOf (pairedInput roots refs) ["refs", "artifact_refs", "artifactRefs"] = some (strings refs) := rfl
    have hlist : (listOf (some (strings refs))).length = refs.length := by simp [strings, listOf]
    rw [hfield, publicRefArray_some (by simp [strings]), hlist, if_neg (by omega), checkItems_again hrefs]
    rfl
  have hsame : roots.length = (sortStrings refs).length := by rw [sortStrings, List.length_insertionSort, hlen]
  have haccepted : ∀ x ∈ List.zipWith (fun root ref => Json.obj [(js "kind", .str (js "memory_root")), (js "root", .str root),
      (js "ref", .str ref)]) roots (sortStrings refs), AcceptedCommitment P x := by
    intro x hx
    obtain ⟨i, hi, rfl⟩ := List.mem_iff_getElem.1 hx
    rw [List.getElem_zipWith]
    exact accepted_withRef (hroots _ (List.getElem_mem _)) (sortStrings_passes hrefs _ (List.getElem_mem _))
  have hlist := zipIdx_withRef hsame
  have hfull : ∀ texts : List JsString, texts.length = roots.length → List.zipWith (fun root ref => Json.obj
      [(js "kind", .str (js "memory_root")), (js "root", .str root), (js "ref", .str ref)]) roots texts ≠ [] := by
    intro texts htexts hnil
    rcases List.zipWith_eq_nil_iff.1 hnil with hnil | hnil
    · exact hne hnil
    · exact hne (List.length_eq_zero_iff.1 (htexts.symm.trans (List.length_eq_zero_iff.2 hnil)))
  have hok := listCommitments_eq_ok.2 ⟨hfull _ hsame.symm, haccepted, rfl⟩
  rw [← hlist] at hok
  exact ⟨_, Except.bind_eq_ok.2 ⟨_, hchecked, hok⟩⟩

/-- Two roots with these references. -/
def pairRoots : List JsString := [countedRoot, prefixedSha256 (js "b")]

def pairRefs : List JsString := [js "ref:a", js "ref:b"]

theorem pairRefs_passes {ref : JsString} (h : ref ∈ pairRefs) : Passes publicRef ref ∧ Public (.str ref) := by
  have hall : pairRefs.all (fun ref => refTest ref && publicText ref) = true := by decide
  have hboth := List.all_eq_true.1 hall ref h
  rw [Bool.and_eq_true] at hboth
  exact ⟨publicRef_passes hboth.1, .str hboth.2⟩

theorem pairRoots_digest {root : JsString} (h : root ∈ pairRoots) : ∃ text, root = prefixedSha256 text := by
  rcases List.mem_pair.1 h with rfl | rfl
  · exact ⟨_, rfl⟩
  · exact ⟨_, rfl⟩

theorem pairRoots_public {root : JsString} (h : root ∈ pairRoots) :
    rootTest root = true ∧ trim root = root ∧ Public (.str root) := by
  obtain ⟨text, rfl⟩ := pairRoots_digest h
  exact ⟨rootTest_sha256 text, (testedString_trim (digestRef_passes (rootTest_sha256 text) [])).symm, public_digest text⟩

theorem strings_public {texts : List JsString} (h : ∀ text ∈ texts, Public (.str text)) : Public (strings texts) := by
  refine .arr fun x hx => ?_
  obtain ⟨text, htext, rfl⟩ := List.mem_map.1 hx
  exact h text htext

theorem paired_created (refs : List JsString) (hlen : refs.length = 2) (hrefs : refs ⊆ pairRefs) :
    ∃ batch, createProofNetworkAnchorBatch reference (pairedInput pairRoots refs) = .ok batch := by
  have htrim : refs.map trim = refs := by
    rw [List.map_congr_left fun ref href => trim_of_passes (pairRefs_passes (hrefs href)).1, List.map_id']
  have hsame : pairRoots.length = refs.length := hlen.symm
  obtain ⟨commitments, hcommitments⟩ := paired_normalized (P := reference) hsame (by simp [pairRoots])
    (by omega) (fun root hroot => (pairRoots_public hroot).1) fun ref href => (pairRefs_passes (hrefs href)).1
  have hsorted := normalizeCommitments_paired hsame hcommitments
  rw [htrim] at hsorted
  refine batch_created rfl (public_obj (batchNames_plain (by simp [batchNames])) rfl
    ⟨strings_public fun root hroot => (pairRoots_public hroot).2.2, strings_public fun ref href => (pairRefs_passes (hrefs href)).2⟩)
    hcommitments (fun c hc => ?_) ?_
  · obtain ⟨i, hi, rfl⟩ := List.mem_iff_getElem.1 (hsorted.mem_iff.1 hc)
    rw [List.getElem_zipWith]
    obtain ⟨-, htrimRoot, hroot⟩ := pairRoots_public (List.getElem_mem (l := pairRoots) (n := i) _)
    obtain ⟨hpasses, href⟩ := pairRefs_passes (hrefs ((List.mem_insertionSort _).1 (List.getElem_mem (l := sortStrings refs) (n := i) _)))
    rw [anchored, htrimRoot, trim_of_passes hpasses]
    exact public_obj (batchNames_plain (by simp [batchNames])) rfl ⟨batchTexts_public _ (by simp), hroot, href⟩
  · have hnot : ∀ names ∈ besideNames.dropLast, "roots" ∉ names ∧ "refs" ∉ names := by simp [besideNames]
    intro names hnames
    refine fieldOf_absent fun name hname => ?_
    have hroots : name ≠ "roots" := fun heq => (hnot names hnames).1 (heq ▸ hname)
    have hrefs : name ≠ "refs" := fun heq => (hnot names hnames).2 (heq ▸ hname)
    simp [pairedInput, hroots, hrefs]

theorem batch_keeps_refs_sorted : ∃ batch, createProofNetworkAnchorBatch reference (pairedInput pairRoots pairRefs) = .ok batch ∧
    ((KeepsRefs pairRoots pairRefs batch ↔ RefsMatch (pairRoots.map trim) (pairRefs.map trim)) ∧
      ((pairRoots.map trim).Nodup → (KeepsRefs pairRoots pairRefs batch ↔ sortStrings (pairRefs.map trim) = pairRefs.map trim))) := by
  obtain ⟨batch, hbatch⟩ := paired_created pairRefs rfl (List.Subset.refl pairRefs)
  exact ⟨batch, hbatch, batch_keeps_refs_iff reference _ _ _ rfl hbatch⟩

/-- References in the other order go to the other roots. -/
theorem unsorted_refs : ∃ batch, createProofNetworkAnchorBatch reference (pairedInput pairRoots pairRefs.reverse) = .ok batch ∧
    ¬ KeepsRefs pairRoots pairRefs.reverse batch := by
  obtain ⟨batch, hbatch⟩ := paired_created pairRefs.reverse rfl (by simp)
  refine ⟨batch, hbatch, fun ⟨list, hlist, hperm⟩ => ?_⟩
  obtain ⟨commitments, root, hcommitments, -, hget, -⟩ := created_commitments hbatch
  obtain rfl : commitments = list := Json.arr.inj (Option.some.inj (hget.symm.trans hlist))
  have hsame : pairRoots.length = pairRefs.reverse.length := rfl
  have hsorted := (normalizeCommitments_paired hsame hcommitments).symm.trans hperm
  have hsort : sortStrings (pairRefs.reverse.map trim) = pairRefs := by decide +kernel
  have hroots : countedRoot ≠ prefixedSha256 (js "b") := by decide +kernel
  rw [hsort] at hsorted
  -- the first reference stands with the second root
  have hmem : anchored countedRoot (js "ref:a") ∈ [anchored countedRoot (js "ref:b"), anchored (prefixedSha256 (js "b")) (js "ref:a")] :=
    hsorted.mem_iff.1 List.mem_cons_self
  rcases List.mem_pair.1 hmem with heq | heq
  · have href : trim (js "ref:a") = trim (js "ref:b") := by simpa [anchored] using heq
    exact absurd href (by decide +kernel)
  · have hroot : trim countedRoot = trim (prefixedSha256 (js "b")) := by simpa [anchored] using heq
    rw [(pairRoots_public (by simp [pairRoots])).2.1, (pairRoots_public (by simp [pairRoots])).2.1] at hroot
    exact hroots hroot

end ProofNetwork

end EnigmaMemory
