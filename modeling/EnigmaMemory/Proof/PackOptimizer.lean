import EnigmaMemory.Proof.CompiledPack
import EnigmaMemory.Proof.Optimizer
import EnigmaMemory.Spec.PackOptimizer

/-!
# The token budget of a pack

The items of a plan are taken in its order while what they cost fits into the budget, and the plan of the pack
is made from the candidates that were taken. It has the items that were taken, so the figures of the pack are
those that the budget was checked against.

* `selectItems_fits`: what is taken stays within the budget.
* `replanned`: the second plan has the items that were taken from the first.
-/

namespace EnigmaMemory

namespace PackOptimizer

open Json MemoryPlan

variable {P : Platform}

/-! ## The loop over the items -/

/-- **What is taken**: some of the items in their order, which fit into the budget. -/
theorem selectItems_fits (limit : ℕ) (budget : Option ℚ) (items : List (JsString × ℚ)) :
    ∀ (selected : List JsString) (used : ℚ), ∃ taken, taken.Sublist items ∧
      selectItems limit budget items selected used = selected ++ taken.map Prod.fst ∧
      ∀ m, budget = some m → taken ≠ [] → Double.addUp used (taken.map Prod.snd) ≤ m := by
  induction items with
  | nil => exact fun selected used => ⟨[], .slnil, by simp [selectItems], fun _ _ h => absurd rfl h⟩
  | cons item rest ih =>
    intro selected used
    obtain ⟨address, cost⟩ := item
    rw [selectItems]
    split
    · exact ⟨[], List.nil_sublist _, by simp, fun _ _ h => absurd rfl h⟩
    · split
      · obtain ⟨taken, hsub, heq, hfits⟩ := ih selected used
        exact ⟨taken, hsub.cons _, heq, hfits⟩
      · rename_i hroom
        obtain ⟨taken, hsub, heq, hfits⟩ := ih (selected ++ [address]) (Double.round (used + cost))
        refine ⟨(address, cost) :: taken, hsub.cons_cons _, by rw [heq]; simp, fun m hm _ => ?_⟩
        rw [List.map_cons, Double.addUp, List.foldl_cons]
        cases taken with
        | nil =>
          subst hm
          simpa using hroom
        | cons t ts => exact hfits m hm (List.cons_ne_nil _ _)

/-! ## Candidates -/

@[simp] theorem toJson_get_address (c : PackCandidate) : c.toJson.get (js "address") = some (.str c.address) := by
  simp [PackCandidate.toJson]

theorem estimateCandidateTokens_toJson (c : PackCandidate) :
    estimateCandidateTokens P c.toJson = .ok (estimateTextTokens P (some (.str c.content))) := by
  cases hi : c.importance <;> cases hl : c.last_accessed_at <;> cases hk : c.kind <;> cases hs : c.sensitivity <;>
    simp [estimateCandidateTokens, PackCandidate.toJson, hi, hl, hk, hs, firstOf, path, Json.field, Json.orElse]

/-- A candidate brings its content and nothing that replaces its hash or its count. -/
theorem normalized_memory {options : PlanOptions} {c : PackCandidate} {x : Candidate}
    (h : NormalizesTo P options c.toJson x) (hne : c.address ≠ []) :
    x.address = c.address ∧ x.estimated_tokens = estimateTextTokens P (some (.str c.content)) := by
  have hplain : c.toJson.isPlainRecord = true := rfl
  unfold NormalizesTo at h
  simp only [normalizeCandidate, hplain, estimateCandidateTokens_toJson, Except.bind_eq_ok, Bool.not_true, Bool.false_eq_true, if_false] at h
  obtain ⟨hash, -, commitment, -, tokens, htokens, importance, -, h⟩ := h
  cases Except.pure_eq_ok.1 h
  cases htokens
  refine ⟨?_, rfl⟩
  simp [candidateAddress, isBlank, hne, Json.toText]

/-- No address is empty, and an address stands for one candidate. -/
structure Keyed (cs : List PackCandidate) : Prop where
  ne : ∀ c ∈ cs, c.address ≠ []
  eq : ∀ c ∈ cs, ∀ d ∈ cs, c.address = d.address → c = d

/-- A candidate with an address is normalized to one with the same. -/
def Becomes (P : Platform) (options : PlanOptions) (c : PackCandidate) (x : Candidate) : Prop :=
  c.address ≠ [] ∧ NormalizesTo P options c.toJson x

theorem becomes_iff {options : PlanOptions} {cs : List PackCandidate} {xs : List Candidate} (hcs : Keyed cs) :
    normalizeCandidates P options (cs.map PackCandidate.toJson) = .ok xs ↔ List.Forall₂ (Becomes P options) cs xs := by
  rw [normalizeCandidates_iff, List.forall₂_map_left_iff]
  exact ⟨fun h => (List.forall₂_and_left _ _).2 ⟨hcs.ne, h⟩, fun h => ((List.forall₂_and_left _ _).1 h).2⟩

theorem exists_of_becomes {options : PlanOptions} {cs : List PackCandidate} {xs : List Candidate}
    (h : List.Forall₂ (Becomes P options) cs xs) : ∀ x ∈ xs, ∃ c ∈ cs, Becomes P options c x := by
  induction h with
  | nil => exact fun x hx => absurd hx List.not_mem_nil
  | cons hc _ ih =>
    intro x hx
    rcases List.mem_cons.1 hx with rfl | hx
    · exact ⟨_, List.mem_cons_self, hc⟩
    · obtain ⟨c, hmem, hbecomes⟩ := ih x hx
      exact ⟨c, List.mem_cons_of_mem _ hmem, hbecomes⟩

/-- Normalized candidates are told apart by their addresses. -/
theorem normalized_inj {options : PlanOptions} {cs : List PackCandidate} {xs : List Candidate} (hcs : Keyed cs)
    (h : List.Forall₂ (Becomes P options) cs xs) : ∀ x ∈ xs, ∀ y ∈ xs, x.address = y.address → x = y := by
  intro x hx y hy haddress
  obtain ⟨c, hc, hcne, hcx⟩ := exists_of_becomes h x hx
  obtain ⟨d, hd, hdne, hdy⟩ := exists_of_becomes h y hy
  rw [(normalized_memory hcx hcne).1, (normalized_memory hdy hdne).1] at haddress
  cases hcs.eq c hc d hd haddress
  exact Except.ok.inj (hcx.symm.trans hdy)

/-- The candidates with some of the addresses become the normalized ones with them. -/
theorem becomes_filter {options : PlanOptions} {cs : List PackCandidate} {xs : List Candidate} (S : List JsString)
    (h : List.Forall₂ (Becomes P options) cs xs) :
    List.Forall₂ (Becomes P options) (cs.filter fun c => decide (c.address ∈ S))
      (xs.filter fun x => decide (x.address ∈ S)) :=
  List.rel_filter (fun c x hcx => by simp only [(normalized_memory hcx.2 hcx.1).1]) h

/-! ## The second plan -/

/-- A sublist is what is left of a list when its own keys are asked for. -/
theorem sublist_eq_filter {α β : Type} [DecidableEq β] (f : α → β) {xs ys : List α} (h : ys.Sublist xs)
    (hnodup : (xs.map f).Nodup) : ys = xs.filter fun x => decide (f x ∈ ys.map f) := by
  induction h with
  | slnil => rfl
  | @cons ys xs x hsub ih =>
    rw [List.map_cons, List.nodup_cons] at hnodup
    have hother : ¬ decide (f x ∈ ys.map f) = true := fun hx => by
      obtain ⟨y, hy, he⟩ := List.mem_map.1 (of_decide_eq_true hx)
      exact hnodup.1 (List.mem_map.2 ⟨y, hsub.subset hy, he⟩)
    rw [List.filter_cons, if_neg hother]
    exact ih hnodup.2
  | @cons_cons ys xs x hsub ih =>
    rw [List.map_cons, List.nodup_cons] at hnodup
    rw [List.filter_cons_of_pos (by simp)]
    refine congrArg _ ((ih hnodup.2).trans (List.filter_congr fun z hz => ?_))
    have hne : f z ≠ f x := fun he => hnodup.1 (he ▸ List.mem_map_of_mem hz)
    simp [hne]

theorem mem_keptItems {options : PlanOptions} {xs : List Candidate} {item : PlanItem} : item ∈ keptItems options xs ↔
    ∃ c ∈ Champions.champions Candidate.content_hash replaces xs, planItemFromCandidate options c = item := by
  rw [keptItems, sortItems, List.mem_insertionSort, List.mem_map]

theorem champion_mem {xs : List Candidate} {c : Candidate}
    (h : c ∈ Champions.champions Candidate.content_hash replaces xs) : c ∈ xs :=
  (Champions.holds_champions preference xs).mem c h

theorem nodup_content_hash (xs : List Candidate) :
    ((Champions.champions Candidate.content_hash replaces xs).map Candidate.content_hash).Nodup :=
  (Champions.holds_champions preference xs).nodup

theorem keptItems_perm_map (options : PlanOptions) (xs : List Candidate) : (keptItems options xs).Perm
    ((Champions.champions Candidate.content_hash replaces xs).map (planItemFromCandidate options)) :=
  List.perm_insertionSort _ _

/-- **Planned again**, the candidates of some items give these items. -/
theorem replanned {options : PlanOptions} {xs : List Candidate} {taken : List PlanItem}
    (hinj : ∀ x ∈ xs, ∀ y ∈ xs, x.address = y.address → x = y) (hsub : taken.Sublist (keptItems options xs)) :
    keptItems options (xs.filter fun x => decide (x.address ∈ taken.map PlanItem.address)) = taken := by
  have haddresses : ((keptItems options xs).map PlanItem.address).Nodup := by
    refine ((keptItems_perm_map options xs).map PlanItem.address).nodup_iff.2 ?_
    rw [List.map_map]
    exact List.Nodup.map_on (fun c hc d hd he => hinj c (champion_mem hc) d (champion_mem hd) he)
      (List.Nodup.of_map _ (nodup_content_hash xs))
  have hkept : ∀ x ∈ xs, decide (x.address ∈ taken.map PlanItem.address) = true →
      x ∈ Champions.champions Candidate.content_hash replaces xs := by
    intro x hx hmem
    obtain ⟨item, hitem, he⟩ := List.mem_map.1 (of_decide_eq_true hmem)
    obtain ⟨c, hc, rfl⟩ := mem_keptItems.1 (hsub.subset hitem)
    rw [← hinj c (champion_mem hc) x hx he]
    exact hc
  have hperm : (keptItems options (xs.filter fun x => decide (x.address ∈ taken.map PlanItem.address))).Perm taken := by
    refine (keptItems_perm_map options _).trans (((Champions.filter_champions preference _ hkept).map _).trans ?_)
    rw [sublist_eq_filter PlanItem.address hsub haddresses]
    refine .trans ?_ ((keptItems_perm_map options xs).symm.filter _)
    rw [List.filter_map, ← sublist_eq_filter PlanItem.address hsub haddresses]
    exact .of_eq (congrArg _ (List.filter_congr fun c _ => decide_eq_decide.2 Iff.rfl))
  refine List.Perm.eq_of_pairwise (fun a b ha hb hab hba => ?_) (List.pairwise_insertionSort _ _)
    ((List.pairwise_insertionSort _ _).sublist hsub) hperm
  obtain ⟨c, hc, rfl⟩ := mem_keptItems.1 (hsub.subset (hperm.subset ha))
  obtain ⟨d, hd, rfl⟩ := mem_keptItems.1 (hsub.subset hb)
  rw [List.inj_on_of_nodup_map (nodup_content_hash xs) hc hd (hash_of_tie hab hba)]

/-! ## Candidates of a vault -/

variable {v v' : Vault}

/-- A candidate shows the content of the active memory at its address. -/
def Shows (P : Platform) (v : Vault) (c : PackCandidate) : Prop :=
  isActive (v.memories.get c.address) = true ∧
    decryptContent P v ((v.memories.get c.address).getD .null) = .ok c.content

theorem optimizationCandidateFrom_ok {a : JsString} {c : PackCandidate}
    (h : optimizationCandidateFrom P v a = .ok (some c)) : c.address = a ∧ Shows P v c := by
  unfold optimizationCandidateFrom at h
  split at h
  · cases h
  · rename_i hactive
    obtain ⟨content, hcontent, h⟩ := Except.bind_eq_ok.1 h
    cases Except.pure_eq_ok.1 h
    exact ⟨rfl, by simpa using hactive, hcontent⟩

/-- An active memory has an address. -/
theorem active_ne (hfiled : Filed v) {a : JsString} (h : isActive (v.memories.get a) = true) : a ≠ [] := by
  obtain ⟨record, hget, hstate⟩ := isActive_iff.1 h
  obtain ⟨fate, hrecord, hstanding⟩ := hfiled.record a record hget
  have hname : js fate.state = js "active" := by
    have hstates := hrecord.state.symm.trans hstate
    exact Json.str.inj (Option.some.inj hstates)
  cases hstanding with
  | active hmem => exact (hfiled.address a hmem).ne
  | retired _ _ hop =>
    cases fate with
    | active => cases hop
    | superseded => exact absurd hname (by decide)
    | deleted => exact absurd hname (by decide)

theorem candidates_keyed (hfiled : Filed v) {addrs : List JsString} {found : List (Option PackCandidate)}
    (h : addrs.mapM (optimizationCandidateFrom P v) = .ok found) :
    Keyed (found.filterMap id) ∧ ∀ c ∈ found.filterMap id, Shows P v c := by
  have hfound : ∀ c ∈ found.filterMap id, optimizationCandidateFrom P v c.address = .ok (some c) := by
    intro c hc
    obtain ⟨o, ho, hoc⟩ := List.mem_filterMap.1 hc
    obtain ⟨a, -, ha⟩ := Except.exists_of_mem_mapM h ho
    rw [show o = some c from hoc] at ha
    rw [(optimizationCandidateFrom_ok ha).1, ha]
  refine ⟨⟨fun c hc => active_ne hfiled (optimizationCandidateFrom_ok (hfound c hc)).2.1, fun c hc d hd he => ?_⟩,
    fun c hc => (optimizationCandidateFrom_ok (hfound c hc)).2⟩
  have hsame := (hfound c hc).symm.trans (he ▸ hfound d hd)
  exact Option.some.inj (Except.ok.inj hsame)

theorem relevantCandidate_ok {queryTokens : OrdSet JsString} {c c' : PackCandidate}
    (h : relevantCandidate P queryTokens c = .ok (some c')) : c'.address = c.address ∧ c'.content = c.content := by
  unfold relevantCandidate at h
  obtain ⟨tokens, -, h⟩ := Except.bind_eq_ok.1 h
  have hsome := Except.pure_eq_ok.1 h
  split at hsome
  · cases hsome
    exact ⟨rfl, rfl⟩
  · cases hsome

/-- Relevance leaves addresses and contents as they are. -/
theorem relevant_keyed {options : Json} {query : Option Json} {cs cs' : List PackCandidate}
    (h : relevanceCandidateSet P options query cs = .ok cs') (hcs : Keyed cs) (hshows : ∀ c ∈ cs, Shows P v c) :
    Keyed cs' ∧ ∀ c ∈ cs', Shows P v c := by
  unfold relevanceCandidateSet at h
  split at h
  · cases h
    exact ⟨hcs, hshows⟩
  · obtain ⟨found, hfound, h⟩ := Except.bind_eq_ok.1 h
    have hrelevant : ∀ c' ∈ found.filterMap id, ∃ c ∈ cs,
        relevantCandidate P (queryTokens P query) c = .ok (some c') := by
      intro c' hc'
      obtain ⟨o, ho, hoc⟩ := List.mem_filterMap.1 hc'
      obtain ⟨c, hc, hrel⟩ := Except.exists_of_mem_mapM hfound ho
      exact ⟨c, hc, hrel.trans (congrArg _ hoc)⟩
    cases Except.pure_eq_ok.1 h
    split
    · refine ⟨⟨fun c' hc' => ?_, fun c' hc' d' hd' he => ?_⟩, fun c' hc' => ?_⟩
      · obtain ⟨c, hc, hrel⟩ := hrelevant c' hc'
        rw [(relevantCandidate_ok hrel).1]
        exact hcs.ne c hc
      · obtain ⟨c, hc, hrelc⟩ := hrelevant c' hc'
        obtain ⟨d, hd, hreld⟩ := hrelevant d' hd'
        rw [(relevantCandidate_ok hrelc).1, (relevantCandidate_ok hreld).1] at he
        cases hcs.eq c hc d hd he
        exact Option.some.inj (Except.ok.inj (hrelc.symm.trans hreld))
      · obtain ⟨c, hc, hrel⟩ := hrelevant c' hc'
        rw [Shows, (relevantCandidate_ok hrel).1, (relevantCandidate_ok hrel).2]
        exact hshows c hc
    · split
      · exact ⟨⟨fun c hc => absurd hc List.not_mem_nil, fun c hc => absurd hc List.not_mem_nil⟩,
          fun c hc => absurd hc List.not_mem_nil⟩
      · exact ⟨hcs, hshows⟩

/-! ## The selection -/

theorem planOfMemories_ok {r : PlanRequest} {cs : List PackCandidate} {plan : Json}
    (h : planOfMemories P r cs = .ok plan) : planOf P (planInput P r) (cs.map PackCandidate.toJson) = .ok plan := by
  unfold planOfMemories at h
  obtain ⟨_, -, h⟩ := Except.bind_eq_ok.1 h
  rw [Except.throw_if_eq_ok] at h
  exact h.2

theorem itemCost_toJson (item : PlanItem) : itemCost (item.toJson P) = (item.address, item.optimized_prompt_tokens) := by
  cases hm : item.metadata_commitment <;>
    simp [itemCost, PlanItem.toJson, PlanItem.body, Json.fields, Json.field, hm]

theorem planItemsOf_orderPlan (t : Totals) (items : List PlanItem) (planId : JsString) :
    (planItemsOf (orderPlan P t items (some planId))).map itemCost =
      items.map fun item => (item.address, item.optimized_prompt_tokens) := by
  rw [planItemsOf, orderPlan_items]
  simp only [List.map_map]
  exact List.map_congr_left fun item _ => itemCost_toJson item

/-- What is planned for a pack, what is taken of it, and the plan of what is taken. -/
theorem optimizedSelectionFrom_ok (hfiled : Filed v) {r : PlanRequest} {explicit : Bool} {addrs : List JsString} {limit : ℕ}
    {selected : List JsString} {plan : Json} {m : ℚ} (hm : maxTokens P r.options = .ok (some m))
    (h : optimizedSelectionFrom P v r explicit addrs limit = .ok (selected, plan)) :
    ∃ cs plan₁, Keyed cs ∧ (∀ c ∈ cs, Shows P v c) ∧ planOf P (planInput P r) (cs.map PackCandidate.toJson) = .ok plan₁ ∧
      selected = selectItems limit (some m) ((planItemsOf plan₁).map itemCost) []
        (estimateTextTokens P (some (withDefault r.query (.str [])))) ∧
      planOf P (planInput P r) ((cs.filter fun c => decide (c.address ∈ selected)).map PackCandidate.toJson) = .ok plan := by
  unfold optimizedSelectionFrom at h
  obtain ⟨found, hfound, h⟩ := Except.bind_eq_ok.1 h
  obtain ⟨cs, hcs, h⟩ := Except.bind_eq_ok.1 h
  obtain ⟨plan₁, hplan₁, h⟩ := Except.bind_eq_ok.1 h
  obtain ⟨budget, hbudget, h⟩ := Except.bind_eq_ok.1 h
  obtain ⟨plan', hplan, h⟩ := Except.bind_eq_ok.1 h
  cases Except.ok.inj (hbudget.symm.trans hm)
  cases Except.pure_eq_ok.1 h
  obtain ⟨hkeyed, hshows⟩ := candidates_keyed hfiled hfound
  have hrelevant : Keyed cs ∧ ∀ c ∈ cs, Shows P v c := by
    unfold planCandidates at hcs
    split at hcs
    · cases hcs
      exact ⟨hkeyed, hshows⟩
    · exact relevant_keyed hcs hkeyed hshows
  exact ⟨cs, plan₁, hrelevant.1, hrelevant.2, planOfMemories_ok hplan₁, rfl, planOfMemories_ok hplan⟩

/-- **The plan of a selection**: its items are what was taken of the items of a first plan, in order. -/
theorem selected_plan (hfiled : Filed v) {r : PlanRequest} {explicit : Bool} {addrs : List JsString} {limit : ℕ}
    {selected : List JsString} {plan : Json} {m : ℚ} (hm : maxTokens P r.options = .ok (some m))
    (h : optimizedSelectionFrom P v r explicit addrs limit = .ok (selected, plan)) :
    ∃ options items n t planId, normalizePlanOptions P (planInput P r) = .ok options ∧
      selected = items.map PlanItem.address ∧ planTotals P (planInput P r) n (tokensOf items) = .ok t ∧
      plan = orderPlan P t items (some planId) ∧
      (items ≠ [] → Double.addUp (estimateTextTokens P (some (withDefault r.query (.str []))))
        (items.map PlanItem.optimized_prompt_tokens) ≤ m) ∧
      ∀ item ∈ items, ∃ c x, Shows P v c ∧ Becomes P options c x ∧ item = planItemFromCandidate options x := by
  obtain ⟨cs, plan₁, hkeyed, hshows, hplan₁, hselected, hplan⟩ := optimizedSelectionFrom_ok hfiled hm h
  obtain ⟨options, xs, t₁, given₁, hoptions, hxs, -, -, -, rfl⟩ := (planOf_eq_ok P).1 hplan₁
  rw [becomes_iff hkeyed] at hxs
  rw [planItemsOf_orderPlan] at hselected
  obtain ⟨taken, hsub, heq, hfits⟩ := selectItems_fits limit (some m)
    ((keptItems options xs).map fun item => (item.address, item.optimized_prompt_tokens)) []
    (estimateTextTokens P (some (withDefault r.query (.str []))))
  obtain ⟨items, hitems, rfl⟩ := List.sublist_map_iff.1 hsub
  rw [List.map_map] at heq hfits
  have haddresses : selected = items.map PlanItem.address := hselected.trans heq
  have hinj := normalized_inj hkeyed hxs
  obtain ⟨options', ys, t, given, hoptions', hys, ht, -, -, rfl⟩ := (planOf_eq_ok P).1 hplan
  cases Except.ok.inj (hoptions'.symm.trans hoptions)
  -- the candidates that were taken are normalized as before
  have hfiltered : Keyed (cs.filter fun c => decide (c.address ∈ selected)) :=
    ⟨fun c hc => hkeyed.ne c (List.mem_filter.1 hc).1, fun c hc d hd =>
      hkeyed.eq c (List.mem_filter.1 hc).1 d (List.mem_filter.1 hd).1⟩
  have hagain := (becomes_iff hfiltered).2 (becomes_filter selected hxs)
  cases Except.ok.inj (hys.symm.trans hagain)
  rw [haddresses, replanned hinj hitems] at ht
  rw [haddresses, replanned hinj hitems]
  refine ⟨options, items, _, t, _, hoptions, rfl, ht, rfl, fun hne => ?_, fun item hitem => ?_⟩
  · exact hfits m rfl (by simpa using hne)
  · obtain ⟨x, hx, rfl⟩ := mem_keptItems.1 (hitems.subset hitem)
    obtain ⟨c, hc, hbecomes⟩ := exists_of_becomes hxs x (champion_mem hx)
    exact ⟨c, x, hshows c hc, hbecomes, rfl⟩

/-! ## What a memory is charged -/

/-- What a memory of so many tokens costs in a tier of a pack. -/
def tierCharge (tokens : ℕ) : Tier → ℕ
  | .hot => tokens
  | .warm => min tokens ⌈Double.round (tokens * Double.round (35 / 100))⌉₊
  | .cold => min tokens 24
  | .proof_only => min tokens 8

theorem planInput_get {r : PlanRequest} {key : JsString} (h : key ∉ [js "candidates", js "prompt", js "pricing", js "now",
    js "default_importance"]) : (planInput P r).get key = none := by
  simp only [List.mem_cons, List.not_mem_nil, or_false, not_or] at h
  obtain ⟨hcandidates, hprompt, hpricing, hnow, hdefault⟩ := h
  simp [planInput, get_obj_append, hcandidates, hprompt, hpricing, hnow, hdefault]

theorem defaultRatio : nonNegativeNumber P (some (.num (35 / 100))) "warm_token_ratio" = .ok (Double.round (35 / 100)) := by
  have hrange : Double.inRange (Double.round (35 / 100)) = true := by decide +kernel
  have hpos : 0 ≤ Double.round (35 / 100) := Double.round_nonneg (by norm_num)
  simp [nonNegativeNumber, finiteNumber, hrange, hpos]

theorem nonNegativeInteger_natCast {n : ℕ} (h : n < 2 ^ 53) (name : String) :
    nonNegativeInteger P (some (.num n)) name = .ok n := by
  have hround := Double.round_natCast h
  have hrange : Double.inRange n = true := by
    rw [Double.inRange, decide_eq_true_iff, Nat.abs_cast]
    exact_mod_cast h.trans (Nat.pow_lt_pow_right (by norm_num) (by norm_num))
  simp [nonNegativeInteger, finiteNumber, hround, hrange]

theorem defaultPointer : nonNegativeInteger P (some (.num 24)) "cold_pointer_tokens" = .ok 24 :=
  by
  exact_mod_cast nonNegativeInteger_natCast (P := P) (n := 24) (by norm_num) "cold_pointer_tokens"

theorem defaultProof : nonNegativeInteger P (some (.num 8)) "proof_only_tokens" = .ok 8 :=
  by
  exact_mod_cast nonNegativeInteger_natCast (P := P) (n := 8) (by norm_num) "proof_only_tokens"

/-- A plan for a pack has the default ratio and the default counts. -/
theorem planOptions_defaults {r : PlanRequest} {options : PlanOptions}
    (h : normalizePlanOptions P (planInput P r) = .ok options) :
    options.warmTokenRatio = Double.round (35 / 100) ∧ options.coldPointerTokens = 24 ∧ options.proofOnlyTokens = 8 := by
  simp (disch := decide) only [normalizePlanOptions, planInput_get, firstOf, Json.orElse, defaultRatio, defaultPointer,
    defaultProof, Except.bind_eq_ok] at h
  obtain ⟨importance, -, reference, -, hot, -, warm, -, cold, -, ratio, hratio, pointer, hpointer, only, honly, h⟩ := h
  cases Except.pure_eq_ok.1 h
  exact ⟨(Except.ok.inj hratio).symm, (Except.ok.inj hpointer).symm, (Except.ok.inj honly).symm⟩

theorem optimizedTokens_eq_charge {r : PlanRequest} {options : PlanOptions}
    (h : normalizePlanOptions P (planInput P r) = .ok options) (n : ℕ) (tier : Tier) :
    optimizedTokensForTier options n tier = tierCharge n tier := by
  obtain ⟨hratio, hcold, hproof⟩ := planOptions_defaults h
  cases tier with
  | hot => rfl
  | warm =>
    have hpos : 0 ≤ Double.round ((n : ℚ) * Double.round (35 / 100)) :=
      Double.round_nonneg (mul_nonneg (Nat.cast_nonneg n) (Double.round_nonneg (by norm_num)))
    rw [optimizedTokensForTier, hratio, tierCharge, Nat.cast_min, natCast_ceil_eq_intCast_ceil hpos]
  | cold => rw [optimizedTokensForTier, hcold, tierCharge, Nat.cast_min, Nat.cast_ofNat]
  | proof_only => rw [optimizedTokensForTier, hproof, tierCharge, Nat.cast_min, Nat.cast_ofNat]

theorem sharedTokens_planInput (r : PlanRequest) : sharedTokens P (planInput P r) =
    .ok (estimateTextTokens P (some (withDefault r.query (.str [])))) := by
  have hprompt : (planInput P r).get (js "prompt") = some (withDefault r.query (.str [])) := by
    simp [planInput]
  have hne : withDefault r.query (.str []) ≠ .null := by
    unfold withDefault
    rcases r.query with - | j
    · simp [orElse]
    · cases j <;> simp [orElse]
  simp (disch := decide) only [sharedTokens, planInput_get, firstOf, Json.orElse, hprompt]
  cases hq : withDefault r.query (.str []) with
  | null => exact absurd hq hne
  | _ => rfl

theorem planTotals_tokens {args : Json} {n : ℕ} {tokens : List (ℚ × ℚ)} {t : Totals} {shared : ℚ}
    (hshared : sharedTokens P args = .ok shared) (h : planTotals P args n tokens = .ok t) :
    t.optimized_prompt_tokens = Double.addUp shared (tokens.map Prod.snd) := by
  simp only [planTotals, hshared, Except.bind_eq_ok] at h
  obtain ⟨_, hsum, pricing, -, baseline, -, optimized, -, h⟩ := h
  cases hsum
  cases Except.pure_eq_ok.1 h
  rfl

/-! ## The budget of a pack -/

theorem optimizerEnabled_of_budget {options : Json} {m : ℚ} (hm : maxTokens P options = .ok (some m)) :
    optimizerEnabled options = true := by
  have hgiven : (options.get (js "max_estimated_tokens")).isSome = true ∨ (options.get (js "maxEstimatedTokens")).isSome = true := by
    by_contra hnone
    simp only [not_or, Bool.not_eq_true, Option.isSome_eq_false_iff, Option.isNone_iff_eq_none] at hnone
    rw [maxTokens, hnone.1, hnone.2] at hm
    cases hm
  unfold optimizerEnabled
  rcases hgiven with h | h <;> simp [h]

variable (P) in
/-- The tokens of the content that a pack carries for a memory. -/
def memoryTokens (memory : Json) : ℕ := estimateTextTokens P (memory.get (js "content"))

variable (P) in
/-- An item of the plan counts the content of a memory and is charged for it by its tier. -/
def ChargedFor (item : PlanItem) (memory : Json) : Prop :=
  item.estimated_tokens = (memoryTokens P memory : ℚ) ∧
    item.optimized_prompt_tokens = (tierCharge (memoryTokens P memory) item.tier : ℚ)

variable (P) in
/-- What the memories of a pack are charged. -/
def packCharges (items : List PlanItem) (memories : List Json) : List ℕ :=
  List.zipWith (fun item memory => tierCharge (memoryTokens P memory) item.tier) items memories

theorem item_charge {r : PlanRequest} {options : PlanOptions} (hoptions : normalizePlanOptions P (planInput P r) = .ok options)
    {c : PackCandidate} {x : Candidate} (hshows : Shows P v c) (hbecomes : Becomes P options c x) {memory : Json}
    (hpacks : Packs P v x.address memory) : ChargedFor P (planItemFromCandidate options x) memory := by
  obtain ⟨haddress, htokens⟩ := normalized_memory hbecomes.2 hbecomes.1
  obtain ⟨record, content, hrecord, hcontent, hmemory⟩ := hpacks
  have hsame : content = c.content := by
    have hread := hshows.2
    rw [← haddress, hrecord, Option.getD_some, hcontent] at hread
    exact Except.ok.inj hread
  have hcarried : memoryTokens P memory = estimateTextTokens P (some (.str c.content)) := by
    rw [memoryTokens, hmemory, hsame]
    simp [publicMemory, get_obj_append]
  rw [ChargedFor, hcarried, ← optimizedTokens_eq_charge hoptions]
  simp only [planItemFromCandidate, htokens, and_self]

theorem items_charged {r : PlanRequest} {options : PlanOptions}
    (hoptions : normalizePlanOptions P (planInput P r) = .ok options) {items : List PlanItem}
    (hitems : ∀ item ∈ items, ∃ c x, Shows P v c ∧ Becomes P options c x ∧ item = planItemFromCandidate options x)
    {memories : List Json} (hpacks : List.Forall₂ (Packs P v) (items.map PlanItem.address) memories) :
    List.Forall₂ (ChargedFor P) items memories := by
  rw [List.forall₂_map_left_iff] at hpacks
  refine ((List.forall₂_and_left items memories).2 ⟨hitems, hpacks⟩).imp ?_
  rintro _ memory ⟨⟨c, x, hshows, hbecomes, rfl⟩, hpack⟩
  exact item_charge hoptions hshows hbecomes hpack

theorem map_charges {items : List PlanItem} {memories : List Json} (h : List.Forall₂ (ChargedFor P) items memories) :
    items.map PlanItem.optimized_prompt_tokens = (packCharges P items memories).map (Nat.cast : ℕ → ℚ) := by
  induction h with
  | nil => rfl
  | cons hitem _ ih => rw [packCharges, List.zipWith_cons_cons, List.map_cons, List.map_cons, hitem.2, ih, packCharges]

theorem compileContextPack_query {env : Ambient} {args : PackArgs} {pack : ContextPack}
    (h : compileContextPack P env args v = .ok pack v') : pack.query = withDefault args.query (.str []) := by
  unfold compileContextPack at h
  rw [get_bind] at h
  simp only [ofExcept_bind_ok, rejectInvalid_bind_ok] at h
  obtain ⟨passport, -, limit, -, selection, -, -, now, -, h⟩ := h
  obtain ⟨packed, t, -, h⟩ := EStateM.bind_eq_ok.1 h
  simp only [ofExcept_bind_ok, get_bind] at h
  obtain ⟨receipts, -, h⟩ := h
  obtain ⟨rfl, -⟩ := pure_ok.1 h
  rfl

/-! ## Access receipts -/

theorem hashRe_of_isRoot {s : JsString} (h : isRoot s = true) : hashRe s = true := by
  rw [isRoot, Bool.and_eq_true, List.isPrefixOf_iff_prefix] at h
  obtain ⟨⟨hash, rfl⟩, hhash⟩ := h
  have hdrop : (sha256Prefix ++ hash).drop 7 = hash := List.drop_left' (by decide)
  have htake : (sha256Prefix ++ hash).take 7 = sha256Prefix := List.take_left' (by decide)
  have hlower : sha256Prefix.flatMap lowerUnit = sha256Prefix := by decide
  rw [hdrop, isHash, Bool.and_eq_true] at hhash
  have hunits : hash.all isHexUnit = true := by
    refine List.all_eq_true.2 fun c hc => ?_
    have hdigit := List.all_eq_true.1 hhash.2 c hc
    simp only [isHexDigit, decide_eq_true_eq] at hdigit
    simp only [isHexUnit, decide_eq_true_eq]
    exact hdigit.imp_right Or.inl
  rw [hashRe, htake, hdrop, hlower, isHashText, isHashText, hhash.1, hunits, beq_self_eq_true, Bool.and_self, Bool.and_self,
    Bool.or_true]

theorem normalizeSha256Root_ok {s : JsString} (h : isRoot s = true) (name : String) :
    ∃ hash, MemoryPlan.normalizeSha256Root P (.str s) name = .ok hash := by
  have hbefore : sha256Prefix.isPrefixOf s = true := (Bool.and_eq_true_iff.1 h).1
  unfold MemoryPlan.normalizeSha256Root
  simp only [Json.toText, hashRe_of_isRoot h, hbefore, Bool.not_true, Bool.false_eq_true, if_false, if_true]
  exact ⟨_, rfl⟩

/-- **No receipt has a field for raw memory**, if its date is a text. -/
theorem assertNoRaw_orderReceipt {r : AccessReceipt} {planHash date : JsString} (hplan : r.plan_hash = some (.str planHash))
    (hdate : r.timestamp = .str date) (id : JsString) :
    assertNoRawMemoryOutput P (orderReceipt r (some id)) = .ok (orderReceipt r (some id)) := by
  have hboundary : ∀ path, scanPublicOutput P.toNumberFormat accessBoundary path = none :=
    scan_fields [js "permissionless_access", js "settlement", js "proof_anchor", js "decentralized_storage_claim"]
      (by decide) rfl (by simp [scanPublicOutput])
  have hscan : scanPublicOutput P.toNumberFormat (orderReceipt r (some id)) (js "$") = none := by
    rw [orderReceipt, hplan, hdate]
    refine scan_fields [js "schema", js "product_thesis", js "receipt_id", js "operation", js "commitment_scheme", js "address",
      js "content_hash", js "commitment", js "plan_hash", js "timestamp", js "sequence", js "estimated_prompt_tokens",
      js "pricing", js "estimated_cost", js "access_boundary"] (by decide) rfl ?_ _
    simp [Json.field, scanPublicOutput, scan_optional, scan_pricing, hboundary]
  rw [assertNoRawMemoryOutput, hscan]

theorem orElse_of_plain {v : Json} (h : v.isPlainRecord = true) (other : Option Json) :
    Json.orElse (some v) other = some v := by
  cases v with
  | obj => rfl
  | _ => cases h

theorem receiptInput_get {plan item : Json} {generatedAt : JsString} {sequence : ℕ} {key : JsString}
    (h : key ∉ [js "item", js "plan", js "timestamp", js "sequence", js "pricing"]) :
    (receiptInput plan item generatedAt sequence).get key = none := by
  simp only [List.mem_cons, List.not_mem_nil, or_false, not_or] at h
  obtain ⟨hitem, hplan, htimestamp, hsequence, hpricing⟩ := h
  simp [receiptInput, hitem, hplan, htimestamp, hsequence, hpricing]

/-- What a receipt for an item reads from it. -/
theorem normalizeReceiptSource_ok {plan : Json} {item : PlanItem} (generatedAt : JsString) (sequence : ℕ)
    (haddress : item.address ≠ []) (hhash : isRoot item.content_hash = true) : ∃ hash commitment,
    normalizeReceiptSource P (receiptInput plan (item.toJson P) generatedAt sequence) =
      .ok ⟨item.address, hash, some commitment, item.toJson P⟩ := by
  obtain ⟨hash, hnormal⟩ := normalizeSha256Root_ok (P := P) hhash "content_hash"
  obtain ⟨commitment, hcommitment⟩ := normalizeSha256Root_ok (P := P)
    (isRoot_prefixedSha256 (item.body.canonicalize P.toNumberFormat)) "commitment"
  have hinput : (receiptInput plan (item.toJson P) generatedAt sequence).get (js "item") = some (item.toJson P) := by
    simp [receiptInput]
  have hitemHash : (item.toJson P).get (js "content_hash") = some (.str item.content_hash) := by
    cases hm : item.metadata_commitment <;> simp [PlanItem.toJson, PlanItem.body, Json.fields, Json.field, hm]
  have hitemAddress : (item.toJson P).get (js "address") = some (.str item.address) := by
    cases hm : item.metadata_commitment <;> simp [PlanItem.toJson, PlanItem.body, Json.fields, Json.field, hm]
  have hitemCommitment : (item.toJson P).get (js "commitment") = some (.str (commitmentFor P item.body)) := by
    cases hm : item.metadata_commitment <;> simp [PlanItem.toJson, PlanItem.body, Json.fields, Json.field, hm]
  have hcontent (content : Option Json) : normalizeContentHash P (some (.str item.content_hash)) content = .ok hash := by
    cases hitem : item.content_hash with
    | nil => rw [hitem] at hhash; exact absurd hhash (by decide)
    | cons c cs => rw [← hnormal, hitem]; rfl
  have hplain : (item.toJson P).isPlainRecord = true := rfl
  have hrequired : MemoryPlan.requiredString (some (.str item.address)) "address" = .ok item.address := by
    cases hitem : item.address with
    | nil => exact absurd hitem haddress
    | cons c cs => rfl
  refine ⟨hash, commitment, ?_⟩
  have hsource : (firstOf [some (item.toJson P), (receiptInput plan (item.toJson P) generatedAt sequence).get (js "accessed"),
      (receiptInput plan (item.toJson P) generatedAt sequence).get (js "access"),
      (receiptInput plan (item.toJson P) generatedAt sequence).get (js "memory"),
      (receiptInput plan (item.toJson P) generatedAt sequence).get (js "candidate"),
      some (receiptInput plan (item.toJson P) generatedAt sequence)]).getD
        (receiptInput plan (item.toJson P) generatedAt sequence) = item.toJson P := by
    rw [firstOf, orElse_of_plain hplain, Option.getD_some]
  unfold normalizeReceiptSource
  rw [hinput]
  simp only [hsource, hplain, hitemHash, hitemAddress, hitemCommitment]
  simp only [Json.orElse, hcontent, hrequired, hcommitment, commitmentFor]
  rfl

/-- **An item of a plan gets its receipt.** -/
theorem createMemoryAccessReceipt_ok {plan : Json} {item : PlanItem} {cost n : ℕ} (generatedAt : JsString)
    (hplain : plan.isPlainRecord = true) (hpricing : plan.get (js "pricing") = some .null) (haddress : item.address ≠ [])
    (hhash : isRoot item.content_hash = true) (hcost : item.optimized_prompt_tokens = cost) (hsmall : cost < 2 ^ 53)
    (hsequence : n < 2 ^ 53) :
    ∃ receipt, createMemoryAccessReceipt P (receiptInput plan (item.toJson P) generatedAt n) = .ok receipt := by
  obtain ⟨hash, commitment, hsource⟩ : ∃ hash commitment,
      normalizeReceiptSource P (receiptInput plan (item.toJson P) generatedAt n) =
        .ok ⟨item.address, hash, some commitment, item.toJson P⟩ :=
    normalizeReceiptSource_ok generatedAt n haddress hhash
  have hinputPlan : (receiptInput plan (item.toJson P) generatedAt n).get (js "plan") = some plan := by
    simp [receiptInput]
  have hinputDate : (receiptInput plan (item.toJson P) generatedAt n).get (js "timestamp") = some (.str generatedAt) := by
    simp [receiptInput]
  have hinputSequence : (receiptInput plan (item.toJson P) generatedAt n).get (js "sequence") = some (.num n) := by
    simp [receiptInput]
  have hinputPricing : (receiptInput plan (item.toJson P) generatedAt n).get (js "pricing") = some .null := by
    simp [receiptInput, hpricing, Json.field]
  have htokens : (item.toJson P).get (js "optimized_prompt_tokens") = some (.num cost) := by
    rw [← hcost]
    cases hm : item.metadata_commitment <;> simp [PlanItem.toJson, PlanItem.body, Json.fields, Json.field, hm]
  have hplanHash : planHashOrUndefined P (some plan) = .ok (some (.str (commitmentFor P plan))) := by
    cases plan with
    | obj => rfl
    | _ => cases hplain
  obtain ⟨r, hr, hrplan, hrdate, hrcost⟩ : ∃ r, accessReceipt P (receiptInput plan (item.toJson P) generatedAt n) = .ok r ∧
      r.plan_hash = some (.str (commitmentFor P plan)) ∧ r.timestamp = .str generatedAt ∧ r.estimated_cost = none := by
    unfold accessReceipt receiptPlanHash
    simp (disch := decide) only [hsource, hinputPlan, hinputDate, hinputSequence, hinputPricing, htokens, receiptInput_get,
      firstOf, Json.orElse, hplanHash, normalizePricing, nonNegativeInteger_natCast hsmall, nonNegativeInteger_natCast hsequence,
      costOf, Except.ok_bind, Bool.false_eq_true, if_false]
    exact ⟨_, rfl, rfl, rfl, rfl⟩
  have hreceipt : (receiptInput plan (item.toJson P) generatedAt n).isPlainRecord = true := rfl
  have hfinite : (!r.estimated_cost.all Double.inRange) = false := by rw [hrcost]; rfl
  unfold createMemoryAccessReceipt accessReceiptId
  rw [hr, hreceipt]
  simp (disch := decide) only [Except.bind_eq_ok, Except.throw_if_eq_ok, receiptInput_get, Json.orElse]
  exact ⟨_, by simp, r, rfl, by simp [hfinite], _, rfl, assertNoRaw_orderReceipt hrplan hrdate _⟩

/-! ## The first memory under a budget -/

/-- The record of a memory that has been remembered. -/
theorem remembered_record {env : Ambient} {args : RememberArgs} {content : Json} {createdAt : JsString} {r : Stored}
    (h : remember P env args v = .ok r v') (hcontent : args.content = some content)
    (hnow : nowIso P (env.clock 0) args.now = .ok createdAt) :
    v'.memories.get (rememberTarget P v env args content) = some (rememberedRecord P v env args content createdAt) := by
  unfold remember at h
  rw [get_bind, ofExcept_bind_ok] at h
  obtain ⟨given, hgiven, h⟩ := h
  cases hcontent.symm.trans (required_ok.1 hgiven).1
  simp only [ofExcept_bind_ok, refuse_bind_ok, modify_bind, append_bind_ok] at h
  obtain ⟨t, ht, -, e, -, h⟩ := h
  cases ht.symm.trans hnow
  obtain ⟨-, rfl⟩ := pure_ok.1 h
  exact (OrdMap.get_set (m := v.memories)).trans (if_pos rfl)

/-- Room for two tokens. -/
def twoTokens : Json := .obj [(js "max_estimated_tokens", .num 2)]

/-- What the optimizer knows of the first memory. -/
def teaCandidate (addr : JsString) : PackCandidate where
  address := addr
  content := js "prefers tea"
  importance := none
  last_accessed_at := some (.str Reference.newYearText)
  kind := some (.str (js "fact"))
  sensitivity := some (.str (js "normal"))
  purpose_tags := .arr []
  source_refs := []

theorem teaCandidate_found {v₀ : Vault} {addr : JsString} (h : FirstMemory v₀ v addr) :
    optimizationCandidateFrom reference v addr = .ok (some (teaCandidate addr)) := by
  obtain ⟨u, hexec⟩ := stepCall_eq_some.1 h.remembered
  obtain ⟨r, hr⟩ := discard_ok.1 hexec
  have hnow : nowIso reference (referenceEnv.clock 0) .absent = .ok Reference.newYearText := by rfl
  have hget := remembered_record hr rfl hnow
  rw [← h.address] at hget
  have hcontent : decryptContent reference v (rememberedRecord reference v₀ referenceEnv { content := some tea } tea
      Reference.newYearText) = .ok (js "prefers tea") := by
    have hcipher : (rememberedRecord reference v₀ referenceEnv { content := some tea } tea Reference.newYearText).get
        (js "content_ciphertext") = some (encryptContent reference v₀ (referenceEnv.random 0 12) (rememberTarget reference v₀
          referenceEnv { content := some tea } tea) (js "prefers tea")) := by
      simp [rememberedRecord, memoryRecord, tea, Json.toText]
    rw [decryptContent_reference hcipher]
    decide
  have hactive := h.active
  rw [hget] at hactive
  unfold optimizationCandidateFrom
  simp only [hget, hactive, Option.getD_some, hcontent, Bool.not_true, Bool.false_eq_true, if_false, Except.ok_bind]
  simp [rememberedRecord, memoryRecord, teaCandidate, numberField, withDefault, orElse, sanitizeSourceRefs, normalizeImportance,
    Json.field, pure, Except.pure]

/-- What is asked of the optimizer. -/
def teaRequest : PlanRequest := ⟨twoTokens, none, .absent⟩

theorem teaOptions : ∃ options, normalizePlanOptions reference (planInput reference teaRequest) = .ok options ∧
    options.defaultImportance = clamp01 (Double.round (1 / 2)) ∧ options.referenceTimeMs = Reference.newYear ∧
    tierForScore options (combinedScore (clamp01 (clamp01 (Double.round (1 / 2)))) 1) = .warm := by
  have hdate : (planInput reference teaRequest).get (js "now") = none := by rfl
  have himportance : (planInput reference teaRequest).get (js "default_importance") = none := by rfl
  simp (disch := decide) only [normalizePlanOptions, planInput_get, hdate, himportance, firstOf, Json.orElse, defaultRatio,
    defaultPointer, defaultProof, numberOrDefault, referenceTimeMs, isBlank, if_true, Except.ok_bind]
  exact ⟨_, rfl, rfl, rfl, by decide +kernel⟩

theorem teaCandidate_normalized {options : PlanOptions} (himportance : options.defaultImportance = clamp01 (Double.round (1 / 2)))
    (hreference : options.referenceTimeMs = Reference.newYear) (addr : JsString) :
    ∃ x, NormalizesTo reference options (teaCandidate addr).toJson x ∧
      x.score = combinedScore (clamp01 (clamp01 (Double.round (1 / 2)))) 1 ∧ isRoot x.content_hash = true := by
  have hrecent : recencyScore reference (some (.str Reference.newYearText)) Reference.newYear = 1 := by
    have hparse : reference.parseDate Reference.newYearText = some Reference.newYear := Reference.parseDate_isoText Reference.newYear
    have hage : ageDays Reference.newYear Reference.newYear ≤ 1 := by decide +kernel
    simp [recencyScore, isBlank, Json.toText, hparse, hage]
    rfl
  obtain ⟨redacted, hredacted⟩ : ∃ redacted, redactForCommitment reference.toNumberFormat (.obj [(js "kind", .str (js "fact")),
      (js "sensitivity", .str (js "normal")), (js "purpose_tags", .arr []), (js "source_refs", .arr [])]) = some redacted :=
    ⟨_, rfl⟩
  have hmetadata : (teaCandidate addr).toJson.get (js "metadata") = some (.obj [(js "kind", .str (js "fact")),
      (js "sensitivity", .str (js "normal")), (js "purpose_tags", .arr []), (js "source_refs", .arr [])]) := by
    simp [teaCandidate, PackCandidate.toJson, Json.field]
  have hplain : (teaCandidate addr).toJson.isPlainRecord = true := rfl
  have hcontent : (teaCandidate addr).toJson.get (js "content") = some (.str (js "prefers tea")) := by
    simp [teaCandidate, PackCandidate.toJson]
  have hhash : (teaCandidate addr).toJson.get (js "content_hash") = none ∧ (teaCandidate addr).toJson.get (js "contentHash") = none ∧
      (teaCandidate addr).toJson.get (js "importance") = none := by
    simp [teaCandidate, PackCandidate.toJson, Json.field]
  have hdate : (teaCandidate addr).toJson.get (js "last_accessed_at") = some (.str Reference.newYearText) := by
    simp [teaCandidate, PackCandidate.toJson, Json.field]
  obtain ⟨hhash, hother, hgiven⟩ := hhash
  unfold NormalizesTo normalizeCandidate
  simp only [hplain, hhash, hother, hcontent, hmetadata, hgiven, hdate, estimateCandidateTokens_toJson, normalizeContentHash,
    isBlank, metadataCommitment, hredacted, numberOrDefault, himportance, hreference, Json.orElse, hrecent, Bool.not_true,
    Bool.false_eq_true, if_true, if_false, Except.ok_bind]
  exact ⟨_, rfl, rfl, isRoot_prefixedSha256 _⟩

/-- The plan of the first memory: it is charged two tokens. -/
theorem teaPlan {addr : JsString} (hne : addr ≠ []) : ∃ t item planId,
    planOfMemories reference teaRequest [teaCandidate addr] = .ok (orderPlan reference t [item] (some planId)) ∧
    t.pricing = none ∧ item.address = addr ∧ item.optimized_prompt_tokens = (2 : ℕ) ∧ isRoot item.content_hash = true := by
  obtain ⟨options, hoptions, himportance, hreference, htier⟩ := teaOptions
  obtain ⟨x, hx, hscore, hhash⟩ := teaCandidate_normalized himportance hreference addr
  obtain ⟨haddress, htokens⟩ := normalized_memory hx hne
  have hthree : estimateTextTokens reference (some (.str (js "prefers tea"))) = 3 := by decide
  have htokens' : x.estimated_tokens = (3 : ℕ) := by rw [htokens, ← hthree]; rfl
  have hcharge : (planItemFromCandidate options x).optimized_prompt_tokens = (2 : ℕ) := by
    have hwarm : tierForScore options x.score = .warm := by rw [hscore, htier]
    have htwo : tierCharge 3 .warm = 2 := by decide +kernel
    simp only [planItemFromCandidate, hwarm, htokens', optimizedTokens_eq_charge hoptions, htwo]
  have htotals : ∃ t, planTotals reference (planInput reference teaRequest) 1 (tokensOf [planItemFromCandidate options x]) = .ok t ∧
      t.finite = true ∧ t.pricing = none := by
    have hshared : estimateTextTokens reference (some (withDefault teaRequest.query (.str []))) = 0 := by decide
    have hprice : (planInput reference teaRequest).get (js "pricing") = none := by rfl
    have hcounts : tokensOf [planItemFromCandidate options x] = [(((3 : ℕ) : ℚ), ((2 : ℕ) : ℚ))] := by
      simp only [tokensOf, List.map_cons, List.map_nil, hcharge, ← htokens']
      rfl
    simp (disch := decide) only [planTotals, sharedTokens_planInput, hshared, hcounts, hprice, planInput_get, firstOf, Json.orElse,
      normalizePricing, costOf, Except.ok_bind, Bool.false_eq_true, if_false]
    exact ⟨_, rfl, by decide +kernel, rfl⟩
  obtain ⟨t, ht, hfinite, hpricing⟩ := htotals
  have hplan : planOf reference (planInput reference teaRequest) [(teaCandidate addr).toJson] = .ok
      (orderPlan reference t [planItemFromCandidate options x] (some (derivedPlanId reference t [planItemFromCandidate options x]))) := by
    refine (planOf_eq_ok reference).2 ⟨options, [x], t, none, hoptions, ?_, ht, hfinite, ?_, rfl⟩
    · exact (normalizeCandidates_iff options _ _).2 (.cons hx .nil)
    · simp (disch := decide) only [givenPlanId, planInput_get, Json.orElse]
  have hdefined : ([teaCandidate addr].any fun c => c.kind.isNone || c.sensitivity.isNone) = false := rfl
  refine ⟨t, planItemFromCandidate options x, derivedPlanId reference t [planItemFromCandidate options x], ?_, hpricing, haddress, hcharge, hhash⟩
  unfold planOfMemories
  rw [hoptions, hdefined]
  simp only [Except.ok_bind, Bool.false_eq_true, if_false]
  exact hplan

theorem maxTokens_twoTokens : maxTokens reference twoTokens = .ok (some 2) := by
  have hget : twoTokens.get (js "max_estimated_tokens") = some (.num 2) := by rfl
  have hround : Double.round 2 = 2 := by exact_mod_cast Double.round_natCast (n := 2) (by norm_num)
  have hrange : Double.inRange 2 = true := by decide +kernel
  unfold maxTokens
  simp [hget, Json.orElse, finiteNumber, hround, hrange]

/-- **A pack of the first memory under a budget of two tokens.** -/
theorem teaPack : ∃ v₀ v v' addr pack, FirstMemory v₀ v addr ∧
    compileOptimizedPack reference referenceEnv { memory_addresses := some [addr] } twoTokens v = .ok pack v' ∧
    pack.memories.map (memoryTokens reference) = [3] := by
  obtain ⟨v₀, v, addr, h⟩ := firstMemory
  obtain ⟨t, item, planId, hplan, hpricing, haddress, hcost, hhash⟩ := teaPlan h.ne
  have hitems : (planItemsOf (orderPlan reference t [item] (some planId))).map itemCost = [(addr, ((2 : ℕ) : ℚ))] := by
    rw [planItemsOf_orderPlan, List.map_singleton, haddress, hcost]
  have hselected : selectedFrom reference teaRequest 12 (some 2) (orderPlan reference t [item] (some planId)) = [addr] := by
    have hshared : estimateTextTokens reference (some (withDefault teaRequest.query (.str []))) = 0 := by decide
    have hroom : Double.round 2 ≤ 2 := by decide +kernel
    rw [selectedFrom, hitems, hshared]
    simp [selectItems, hroom]
  have hselection : optimizedSelectionFrom reference v teaRequest true [addr] 12 =
      .ok ([addr], orderPlan reference t [item] (some planId)) := by
    have hfiltered : ([teaCandidate addr].filter fun c => decide (c.address ∈ [addr])) = [teaCandidate addr] := by
      simp [teaCandidate]
    have hfound : [addr].mapM (optimizationCandidateFrom reference v) = .ok [some (teaCandidate addr)] := by
      simp [teaCandidate_found h, pure, Except.pure, bind, Except.bind]
    have hids : [some (teaCandidate addr)].filterMap id = [teaCandidate addr] := rfl
    have hbudget : maxTokens reference teaRequest.options = .ok (some 2) := maxTokens_twoTokens
    unfold optimizedSelectionFrom
    simp only [hfound, hids, planCandidates, if_true, hplan, hbudget, hselected, hfiltered, Except.ok_bind]
    rfl
  have hreceipts : ∀ generatedAt, ∃ receipts,
      planReceipts reference (orderPlan reference t [item] (some planId)) generatedAt = .ok receipts := by
    intro generatedAt
    have hnull : (orderPlan reference t [item] (some planId)).get (js "pricing") = some .null := by
      simp [orderPlan, hpricing, Json.field]
    obtain ⟨receipt, hreceipt⟩ := createMemoryAccessReceipt_ok (P := reference) (n := 0) generatedAt rfl hnull (haddress ▸ h.ne) hhash hcost
      (by norm_num) (by norm_num)
    have hlist : planItemsOf (orderPlan reference t [item] (some planId)) = [item.toJson reference] := by
      rw [planItemsOf, orderPlan_items]
      rfl
    refine ⟨[receipt], ?_⟩
    rw [planReceipts, hlist, List.zipIdx_singleton]
    simp only [List.mapM_cons, List.mapM_nil, hreceipt, pure_bind, Except.ok_bind]
    rfl
  have hshows := (optimizationCandidateFrom_ok (teaCandidate_found h)).2
  have hgrows : Grows v₀ v := stepCall_grows h.remembered
  have hpack : Succeeds (compileContextPack reference referenceEnv { ({ memory_addresses := some [addr] } : PackArgs) with
      optimizer := some (optimizerFor reference v { memory_addresses := some [addr] } twoTokens) }) v := by
    refine compileContextPack_of_selection h.signer (packLimit_reference rfl) hselection hreceipts (h.writable.of_grows hgrows)
      harmless_none harmless_none ?_ ?_
    all_goals
      intro a ha
      obtain rfl : a = addr := by simpa using ha
    · exact ⟨h.live, h.active⟩
    · exact ⟨h.quiet, _, hshows.2⟩
  obtain ⟨pack, v', hpack⟩ := hpack
  obtain ⟨limit, hlimit, hchosen⟩ := compileContextPack_selection hpack
  cases (packLimit_reference rfl).symm.trans hlimit
  refine ⟨v₀, v, v', addr, pack, h, ?_, ?_⟩
  · unfold compileOptimizedPack
    rw [get_bind, if_pos (optimizerEnabled_of_budget maxTokens_twoTokens)]
    exact hpack
  · have hpacks := compileContextPack_packs hpack
    have hlisted : pack.memory_addresses = [addr] := congrArg Prod.fst (Except.ok.inj (hchosen.symm.trans hselection))
    rw [hlisted] at hpacks
    obtain ⟨memory, rest, hmemory, hrest, hlist⟩ := List.forall₂_cons_left_iff.1 hpacks
    obtain ⟨record, content, hrecord, hcontent, hpublic⟩ := hmemory
    have hread := hshows.2
    rw [show (teaCandidate addr).address = addr from rfl, hrecord, Option.getD_some, hcontent] at hread
    cases List.forall₂_nil_left_iff.1 hrest
    rw [hlist, List.map_singleton, memoryTokens, hpublic, Except.ok.inj hread]
    simp [publicMemory, get_obj_append, teaCandidate]
    decide

/-! ## The budget -/

/-- **The token budget of a pack.** The plan that a pack carries has one item for each of its memories, charged
for the content by its tier, and these charges and the query stay within the budget. -/
theorem budget_honoured (P : Platform) (env : Ambient) (args : PackArgs) (options : Json) (v v' : Vault) (pack : ContextPack)
    (m : ℚ) (hreach : Reachable P v) (hm : maxTokens P options = .ok (some m))
    (h : compileOptimizedPack P env args options v = .ok pack v') (hne : pack.memories ≠ []) :
    ∃ items, pack.optimization_plan.get (js "items") = some (.arr (items.map (PlanItem.toJson P))) ∧
      List.Forall₂ (ChargedFor P) items pack.memories ∧
      pack.optimization_plan.get (js "optimized_prompt_tokens") = some (.num (Double.addUp
        (estimateTextTokens P (some pack.query)) ((packCharges P items pack.memories).map Nat.cast))) ∧
      Double.addUp (estimateTextTokens P (some pack.query)) ((packCharges P items pack.memories).map Nat.cast) ≤ m ∧
      (estimateTextTokens P (some pack.query) + (packCharges P items pack.memories).sum < 2 ^ 53 →
        ((estimateTextTokens P (some pack.query) + (packCharges P items pack.memories).sum : ℕ) : ℚ) ≤ m) := by
  have hcompile : compileContextPack P env { args with optimizer := some (optimizerFor P v args options) } v = .ok pack v' := by
    have hcall := h
    unfold compileOptimizedPack at hcall
    rw [get_bind, if_pos (optimizerEnabled_of_budget hm)] at hcall
    exact hcall
  obtain ⟨limit, -, hselection⟩ := compileContextPack_selection hcompile
  obtain ⟨o, items, n, t, planId, hoptions, haddresses, ht, hplan, hfits, hitems⟩ := selected_plan hreach.filed hm hselection
  have hcharged := items_charged hoptions hitems (haddresses ▸ compileContextPack_packs hcompile)
  have hquery := compileContextPack_query hcompile
  have htotal := planTotals_tokens (sharedTokens_planInput _) ht
  have hnonempty : items ≠ [] := by
    rintro rfl
    exact hne (List.forall₂_nil_left_iff.1 hcharged)
  have hbudget := hfits hnonempty
  rw [map_charges hcharged, ← hquery] at hbudget
  refine ⟨items, by rw [hplan, orderPlan_items], hcharged, ?_, hbudget, fun hsmall => ?_⟩
  · have htokens : (tokensOf items).map Prod.snd = items.map PlanItem.optimized_prompt_tokens := List.map_map
    rw [hplan, hquery, ← map_charges hcharged, ← htokens, ← htotal]
    simp [orderPlan, Json.field]
  · rwa [Double.addUp_natCast _ _ hsmall] at hbudget

theorem budget_honoured_tea : ∃ v₀ v v' addr pack items, FirstMemory v₀ v addr ∧
    compileOptimizedPack reference referenceEnv { memory_addresses := some [addr] } twoTokens v = .ok pack v' ∧
    pack.memories ≠ [] ∧ List.Forall₂ (ChargedFor reference) items pack.memories ∧
    Double.addUp (estimateTextTokens reference (some pack.query))
      ((packCharges reference items pack.memories).map Nat.cast) ≤ 2 := by
  obtain ⟨v₀, v, v', addr, pack, h, hpack, htokens⟩ := teaPack
  have hne : pack.memories ≠ [] := fun hnil => by simp [hnil] at htokens
  obtain ⟨items, -, hcharged, -, hbudget, -⟩ :=
    budget_honoured reference referenceEnv _ twoTokens v v' pack 2 h.reachable maxTokens_twoTokens hpack hne
  exact ⟨v₀, v, v', addr, pack, items, h, hpack, hne, hcharged, hbudget⟩

/-- **The contents may be longer than the budget**: a memory of three tokens goes into a pack that has room for two. -/
theorem contents_over_budget : ¬ ∀ (P : Platform) (env : Ambient) (args : PackArgs) (options : Json) (v v' : Vault)
    (pack : ContextPack) (m : ℚ), Reachable P v → maxTokens P options = .ok (some m) →
    compileOptimizedPack P env args options v = .ok pack v' → pack.memories ≠ [] →
    ((estimateTextTokens P (some pack.query) + (pack.memories.map (memoryTokens P)).sum : ℕ) : ℚ) ≤ m := by
  intro hall
  obtain ⟨v₀, v, v', addr, pack, h, hpack, htokens⟩ := teaPack
  have hne : pack.memories ≠ [] := fun hnil => by simp [hnil] at htokens
  have hover := hall reference referenceEnv _ twoTokens v v' pack 2 h.reachable maxTokens_twoTokens hpack hne
  rw [htokens] at hover
  have hthree : (3 : ℚ) ≤ ((estimateTextTokens reference (some pack.query) + [3].sum : ℕ) : ℚ) := by
    exact_mod_cast Nat.le_add_left 3 _
  linarith

end PackOptimizer

end EnigmaMemory
