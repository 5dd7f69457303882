import Mathlib.Data.Prod.Lex
import EnigmaMemory.Lib.Result
import EnigmaMemory.Proof.JsString
import EnigmaMemory.Proof.Reference
import EnigmaMemory.Spec.Optimizer

/-!
# The order of the candidates

Sorting makes the plan independent of the order in which candidates are given, up to one thing: of
candidates with one content hash the first of the best is kept, and candidates that tie in score, tokens and
address may still differ in their metadata.

* `throws_perm`: whether there is a plan does not depend on the order.
* `perm_iff`: a plan does not depend on it if and only if the candidates that tie have the same metadata.
-/

namespace EnigmaMemory

namespace MemoryPlan

open Json

variable {P : Platform}

/-! ## Preferences -/

/-- What decides between candidates: the score, the tokens, the address. -/
def Candidate.rank (c : Candidate) : ℚ ×ₗ ℚ ×ₗ JsString := toLex (-c.score, toLex (-c.estimated_tokens, c.address))

theorem compareStrings_neg {a b : JsString} : compareStrings a b < 0 ↔ a < b := by
  unfold compareStrings
  split
  · exact iff_of_true (by norm_num) ‹_›
  · rename_i h
    refine iff_of_false ?_ h
    split <;> norm_num

theorem compareStrings_le {a b : JsString} : compareStrings a b ≤ 0 ↔ a ≤ b := by
  unfold compareStrings
  split
  · rename_i h
    exact iff_of_true (by norm_num) h.le
  · split
    · rename_i h
      exact iff_of_false (by norm_num) (not_le.2 h)
    · rename_i h
      exact iff_of_true le_rfl (not_lt.1 h)

theorem replaces_iff (a b : Candidate) : replaces a b = true ↔ a.rank < b.rank := by
  rw [replaces, decide_eq_true_iff, compareCandidatePreference, Candidate.rank, Candidate.rank, Prod.Lex.toLex_lt_toLex,
    Prod.Lex.toLex_lt_toLex]
  by_cases hscore : a.score = b.score
  · rw [if_neg (not_not.2 hscore), hscore]
    by_cases htokens : a.estimated_tokens = b.estimated_tokens
    · rw [if_neg (not_not.2 htokens), htokens, compareStrings_neg]
      simp
    · rw [if_pos htokens]
      simp [htokens]
  · rw [if_pos hscore]
    simp [hscore]

theorem preference : Champions.Preference replaces := Champions.preference_of_rank replaces Candidate.rank replaces_iff

/-- The place of an item: its tier, what it costs, its content hash. -/
def PlanItem.rank (item : PlanItem) : ℚ ×ₗ ℚ ×ₗ ℚ ×ₗ JsString :=
  toLex (item.tier.rank, toLex (-item.optimized_prompt_tokens, toLex (-item.estimated_tokens, item.content_hash)))

theorem comparePlanItems_iff (a b : PlanItem) : comparePlanItems a b ≤ 0 ↔ a.rank ≤ b.rank := by
  rw [comparePlanItems, PlanItem.rank, PlanItem.rank, Prod.Lex.toLex_le_toLex, Prod.Lex.toLex_le_toLex, Prod.Lex.toLex_le_toLex]
  by_cases htier : a.tier.rank = b.tier.rank
  · rw [if_neg (by rw [htier, sub_self]; exact not_not.2 rfl), htier]
    by_cases hcost : a.optimized_prompt_tokens = b.optimized_prompt_tokens
    · rw [if_neg (not_not.2 hcost), hcost]
      by_cases htokens : a.estimated_tokens = b.estimated_tokens
      · rw [if_neg (not_not.2 htokens), htokens, compareStrings_le]
        simp
      · rw [if_pos htokens]
        simp [htokens, (Ne.symm htokens).le_iff_lt]
    · rw [if_pos hcost]
      simp [hcost, (Ne.symm hcost).le_iff_lt]
  · rw [if_pos (sub_ne_zero.2 htier)]
    simp [htier, (show a.tier.rank ≠ b.tier.rank from htier).le_iff_lt]

instance : Std.Total fun a b : PlanItem => comparePlanItems a b ≤ 0 :=
  ⟨fun a b => by
    rw [comparePlanItems_iff, comparePlanItems_iff]
    exact le_total _ _⟩

instance : IsTrans PlanItem fun a b => comparePlanItems a b ≤ 0 :=
  ⟨fun a b c hab hbc => by
    rw [comparePlanItems_iff] at hab hbc ⊢
    exact hab.trans hbc⟩

theorem hash_of_tie {a b : PlanItem} (hab : comparePlanItems a b ≤ 0) (hba : comparePlanItems b a ≤ 0) :
    a.content_hash = b.content_hash := by
  rw [comparePlanItems_iff] at hab hba
  have h := le_antisymm hab hba
  exact congrArg (fun r => (ofLex (ofLex (ofLex r).2).2).2) h

/-! ## Normalized candidates -/

variable (P) in
/-- A candidate is normalized in the same way at every place of the list. -/
def NormalizesTo (options : PlanOptions) (candidate : Json) (c : Candidate) : Prop :=
  normalizeCandidate P options candidate 0 = .ok c

theorem normalizeCandidate_index (options : PlanOptions) (candidate : Json) (index : ℕ) (c : Candidate) :
    normalizeCandidate P options candidate index = .ok c ↔ NormalizesTo P options candidate c := by
  unfold NormalizesTo
  simp only [normalizeCandidate, Except.throw_if_eq_ok]

theorem normalizeCandidates_iff (options : PlanOptions) (cs : List Json) (xs : List Candidate) :
    normalizeCandidates P options cs = .ok xs ↔ List.Forall₂ (NormalizesTo P options) cs xs := by
  have h : ∀ n xs, (cs.zipIdx n).mapM (fun c => normalizeCandidate P options c.1 c.2) = .ok xs ↔
      List.Forall₂ (NormalizesTo P options) cs xs := by
    induction cs with
    | nil =>
      intro n xs
      rw [List.forall₂_nil_left_iff]
      exact Except.pure_eq_ok.trans eq_comm
    | cons c cs ih =>
      intro n xs
      rw [List.zipIdx_cons, List.mapM_cons, Except.bind_eq_ok, List.forall₂_cons_left_iff]
      refine exists_congr fun x => ?_
      rw [normalizeCandidate_index, Except.bind_eq_ok]
      constructor
      · rintro ⟨hx, rest, hrest, hxs⟩
        exact ⟨rest, hx, (ih _ _).1 hrest, (Except.pure_eq_ok.1 hxs).symm⟩
      · rintro ⟨rest, hx, hrest, rfl⟩
        exact ⟨hx, rest, (ih _ _).2 hrest, rfl⟩
  exact h 0 xs

/-- Candidates in another order are normalized to the same ones in another order. -/
theorem normalizeCandidates_perm {options : PlanOptions} {cs cs' : List Json} {xs : List Candidate} (hperm : cs.Perm cs')
    (h : normalizeCandidates P options cs = .ok xs) : ∃ ys, normalizeCandidates P options cs' = .ok ys ∧ xs.Perm ys := by
  obtain ⟨ys, hys, hxs⟩ := List.perm_comp_forall₂ hperm.symm ((normalizeCandidates_iff options cs xs).1 h)
  exact ⟨ys, (normalizeCandidates_iff options cs' ys).2 hys, hxs.symm⟩

/-- Every order of the normalized candidates comes from one of the candidates. -/
theorem exists_perm_of_normalized {options : PlanOptions} {cs : List Json} {xs ys : List Candidate}
    (h : normalizeCandidates P options cs = .ok xs) (hperm : xs.Perm ys) :
    ∃ cs', cs.Perm cs' ∧ normalizeCandidates P options cs' = .ok ys := by
  obtain ⟨cs', hys, hcs⟩ := List.perm_comp_forall₂ hperm.symm ((normalizeCandidates_iff options cs xs).1 h).flip
  exact ⟨cs', hcs.symm, (normalizeCandidates_iff options cs' ys).2 hys.flip⟩

/-! ## Items -/

/-- The items of the candidates that are kept. -/
def keptItems (options : PlanOptions) (xs : List Candidate) : List PlanItem :=
  sortItems ((Champions.champions Candidate.content_hash replaces xs).map (planItemFromCandidate options))

variable (P) in
theorem planItems_eq_ok {args : Json} {cs : List Json} {items : List PlanItem} : planItems P args cs = .ok items ↔
    ∃ options xs, normalizePlanOptions P args = .ok options ∧ normalizeCandidates P options cs = .ok xs ∧
      items = keptItems options xs := by
  simp only [planItems, dedupeCandidates, Except.bind_eq_ok, Except.map_eq_ok, Except.pure_eq_ok, keptItems]
  constructor
  · rintro ⟨options, hoptions, _, ⟨xs, hxs, rfl⟩, hitems⟩
    exact ⟨options, xs, hoptions, hxs, hitems.symm⟩
  · rintro ⟨options, xs, hoptions, hxs, rfl⟩
    exact ⟨options, hoptions, _, ⟨xs, hxs, rfl⟩, rfl⟩

/-- An item without the commitment to its metadata. -/
def PlanItem.bare (item : PlanItem) : PlanItem := { item with metadata_commitment := none }

theorem comparePlanItems_bare (a b : PlanItem) : comparePlanItems a.bare b.bare = comparePlanItems a b := rfl

/-- Two best candidates for one content hash tie. -/
theorem rank_of_best {xs : List Candidate} {a b : Candidate} (ha : a ∈ xs) (hb : b ∈ xs) (hkey : a.content_hash = b.content_hash)
    (hbest : Champions.Best Candidate.content_hash replaces xs a)
    (hbest' : Champions.Best Candidate.content_hash replaces xs b) : a.rank = b.rank := by
  have hab := hbest b hb hkey.symm
  have hba := hbest' a ha hkey
  rw [← Bool.not_eq_true, replaces_iff, not_lt] at hab hba
  exact le_antisymm hab hba

/-- Candidates that tie give items that differ in their metadata at most. -/
theorem bare_of_tie {options : PlanOptions} {a b : Candidate} (hkey : a.content_hash = b.content_hash) (hrank : a.rank = b.rank) :
    (planItemFromCandidate options a).bare = (planItemFromCandidate options b).bare := by
  have hscore : a.score = b.score := neg_injective (congrArg (fun r => (ofLex r).1) hrank)
  have htokens : a.estimated_tokens = b.estimated_tokens :=
    neg_injective (congrArg (fun r => (ofLex (ofLex r).2).1) hrank)
  have haddress : a.address = b.address := congrArg (fun r => (ofLex (ofLex r).2).2) hrank
  simp only [planItemFromCandidate, PlanItem.bare, hkey, hscore, htokens, haddress]

theorem item_of_tie {options : PlanOptions} {a b : Candidate} (hkey : a.content_hash = b.content_hash) (hrank : a.rank = b.rank)
    (hmetadata : a.metadata_commitment = b.metadata_commitment) :
    planItemFromCandidate options a = planItemFromCandidate options b := by
  have h : (planItemFromCandidate options a).bare = (planItemFromCandidate options b).bare := bare_of_tie hkey hrank
  simp only [PlanItem.bare, PlanItem.mk.injEq] at h
  obtain ⟨haddress, hhash, -, htier, htokens, hcost⟩ := h
  exact PlanItem.mk.injEq .. |>.mpr ⟨haddress, hhash, hmetadata, htier, htokens, hcost⟩

/-- The items are the same, their metadata apart. -/
theorem bare_keptItems (options : PlanOptions) {xs ys : List Candidate} (hperm : xs.Perm ys) :
    (keptItems options xs).map PlanItem.bare = (keptItems options ys).map PlanItem.bare := by
  have hsort : ∀ items : List PlanItem, (sortItems items).map PlanItem.bare = sortItems (items.map PlanItem.bare) := fun items =>
    List.map_insertionSort _ _ _ _ fun a _ b _ => by rw [comparePlanItems_bare]
  rw [keptItems, keptItems, hsort, hsort, List.map_map, List.map_map]
  refine Champions.sorted_champions preference PlanItem.content_hash (fun _ => rfl) hperm ?_ _ fun _ _ => hash_of_tie
  intro a ha b hb hkey hbest hbest'
  exact bare_of_tie hkey (rank_of_best ha hb hkey hbest hbest')

/-- **The candidates that tie have the same metadata.** -/
def SameMetadata (xs : List Candidate) : Prop :=
  Champions.Alike Candidate.content_hash replaces Candidate.metadata_commitment xs

theorem keptItems_perm (options : PlanOptions) {xs ys : List Candidate} (hsame : SameMetadata xs) (hperm : xs.Perm ys) :
    keptItems options xs = keptItems options ys := by
  refine Champions.sorted_champions preference PlanItem.content_hash (fun _ => rfl) hperm ?_ _ fun _ _ => hash_of_tie
  intro a ha b hb hkey hbest hbest'
  exact item_of_tie hkey (rank_of_best ha hb hkey hbest hbest') (hsame a ha b hb hkey hbest hbest')

/-! ## The plan shows no raw memory -/

@[simp] theorem scan_str (F : NumberFormat) (s path : JsString) : scanPublicOutput F (.str s) path = none := rfl

@[simp] theorem scan_num (F : NumberFormat) (q : ℚ) (path : JsString) : scanPublicOutput F (.num q) path = none := rfl

theorem scan_fields {F : NumberFormat} {fs : List (JsString × Json)} (keys : List JsString)
    (hkeys : keys.all (!isRawKey ·) = true) (hfs : fs.map Prod.fst = keys)
    (hvalues : ∀ f ∈ fs, ∀ path, scanPublicOutput F f.2 path = none) (path : JsString) :
    scanPublicOutput F (.obj fs) path = none := by
  rw [scanPublicOutput]
  subst hfs
  induction fs with
  | nil => rfl
  | cons f fs ih =>
    obtain ⟨key, value⟩ := f
    rw [List.map_cons, List.all_cons, Bool.and_eq_true, Bool.not_eq_true'] at hkeys
    obtain ⟨hvalue, hvalues⟩ := List.forall_mem_cons.1 hvalues
    rw [scanFields, hkeys.1, if_neg Bool.false_ne_true, hvalue, ih hvalues hkeys.2]
    rfl

theorem scan_items {F : NumberFormat} {xs : List Json} (h : ∀ x ∈ xs, ∀ path, scanPublicOutput F x path = none)
    (path : JsString) : scanPublicOutput F (.arr xs) path = none := by
  have hitems : ∀ index, scanItems F xs path index = none := by
    induction xs with
    | nil => exact fun _ => rfl
    | cons x xs ih =>
      intro index
      obtain ⟨hx, hxs⟩ := List.forall_mem_cons.1 h
      rw [scanItems, hx, ih hxs]
      rfl
  rw [scanPublicOutput, hitems]

theorem scan_item (item : PlanItem) (path : JsString) : scanPublicOutput P.toNumberFormat (item.toJson P) path = none := by
  rw [PlanItem.toJson, PlanItem.body, Json.fields]
  cases item.metadata_commitment with
  | none =>
    exact scan_fields [js "address", js "content_hash", js "tier", js "estimated_tokens", js "optimized_prompt_tokens",
      js "commitment"] (by decide) rfl (by simp [Json.field]) path
  | some s =>
    exact scan_fields [js "address", js "content_hash", js "metadata_commitment", js "tier", js "estimated_tokens",
      js "optimized_prompt_tokens", js "commitment"] (by decide) rfl (by simp [Json.field]) path

theorem scan_planItems (items : List PlanItem) (path : JsString) :
    scanPublicOutput P.toNumberFormat (.arr (items.map (PlanItem.toJson P))) path = none := by
  refine scan_items (fun x hx path => ?_) path
  obtain ⟨item, -, rfl⟩ := List.mem_map.1 hx
  exact scan_item item path

theorem scan_optional (F : NumberFormat) (q : Option ℚ) (path : JsString) :
    scanPublicOutput F (optionalNumber q) path = none := by
  cases q <;> rfl

theorem scan_pricing (F : NumberFormat) (pricing : Option Pricing) (path : JsString) :
    scanPublicOutput F ((pricing.map Pricing.toJson).getD .null) path = none := by
  cases pricing with
  | none => rfl
  | some pricing =>
    exact scan_fields [js "currency", js "price_per_million_tokens"] (by decide) rfl (by simp) path

/-- **No plan has a field for raw memory.** -/
theorem assertNoRaw_orderPlan (t : Totals) (items : List PlanItem) (planId : JsString) :
    assertNoRawMemoryOutput P (orderPlan P t items (some planId)) = .ok (orderPlan P t items (some planId)) := by
  have htiers : ∀ path, scanPublicOutput P.toNumberFormat (.obj [(js "hot", tierItems P items .hot),
      (js "warm", tierItems P items .warm), (js "cold", tierItems P items .cold),
      (js "proof_only", tierItems P items .proof_only)]) path = none :=
    scan_fields [js "hot", js "warm", js "cold", js "proof_only"] (by decide) rfl (by simp [tierItems, scan_planItems])
  have htotals : ∀ path, scanPublicOutput P.toNumberFormat (.obj [(js "input_candidates", .num t.input_candidates),
      (js "deduped_candidates", .num t.deduped_candidates),
      (js "duplicates_removed", .num (t.input_candidates - t.deduped_candidates)),
      (js "total_estimated_tokens", .num t.baseline_prompt_tokens)]) path = none :=
    scan_fields [js "input_candidates", js "deduped_candidates", js "duplicates_removed", js "total_estimated_tokens"]
      (by decide) rfl (by simp)
  have hscan : scanPublicOutput P.toNumberFormat (orderPlan P t items (some planId)) (js "$") = none := by
    rw [orderPlan]
    refine scan_fields [js "schema", js "product_thesis", js "plan_id", js "commitment_scheme", js "pricing",
      js "baseline_prompt_tokens", js "optimized_prompt_tokens", js "baseline_cost", js "optimized_cost", js "savings_pct",
      js "tiers", js "items", js "totals"] (by decide) rfl ?_ _
    simp [Json.field, scan_planItems, scan_optional, scan_pricing, htiers, htotals]
  rw [assertNoRawMemoryOutput, hscan]

/-- The tokens that the figures of a plan are computed from. -/
def tokensOf (items : List PlanItem) : List (ℚ × ℚ) := items.map fun item => (item.estimated_tokens, item.optimized_prompt_tokens)

theorem tokensOf_bare (items : List PlanItem) : tokensOf (items.map PlanItem.bare) = tokensOf items :=
  List.map_map

variable (P) in
theorem planFromItems_eq_ok {args : Json} {n : ℕ} {items : List PlanItem} {plan : Json} :
    planFromItems P args n items = .ok plan ↔ ∃ t given, planTotals P args n (tokensOf items) = .ok t ∧ t.finite = true ∧
      givenPlanId args = .ok given ∧ plan = orderPlan P t items (some (given.getD (derivedPlanId P t items))) := by
  simp only [planFromItems, Except.throw_if_eq_ok, Except.bind_eq_ok, assertNoRaw_orderPlan, Except.ok.injEq]
  constructor
  · rintro ⟨t, ht, hfinite, given, hgiven, rfl⟩
    exact ⟨t, given, ht, by simpa using hfinite, hgiven, rfl⟩
  · rintro ⟨t, given, ht, hfinite, hgiven, rfl⟩
    exact ⟨t, ht, by simpa using hfinite, given, hgiven, rfl⟩

/-! ## The plan of a call -/

variable (P) in
/-- The plan of candidates, under the options of `args`. -/
def planOf (args : Json) (candidates : List Json) : Except JsError Json :=
  createMemoryOptimizationPlan P (args.set (js "candidates") (.arr candidates))

section
variable (args value : Json)

theorem get_set_candidates {key : JsString} (h : key ≠ js "candidates") :
    (args.set (js "candidates") value).get key = args.get key := by
  rw [get_set, if_neg h]

theorem normalizePlanOptions_set :
    normalizePlanOptions P (args.set (js "candidates") value) = normalizePlanOptions P args := by
  simp (disch := decide) only [normalizePlanOptions, get_set_candidates]

theorem planTotals_set (n : ℕ) (tokens : List (ℚ × ℚ)) :
    planTotals P (args.set (js "candidates") value) n tokens = planTotals P args n tokens := by
  simp (disch := decide) only [planTotals, sharedTokens, get_set_candidates]

theorem givenPlanId_set : givenPlanId (args.set (js "candidates") value) = givenPlanId args := by
  simp (disch := decide) only [givenPlanId, get_set_candidates]

end

variable (P) in
theorem planOf_eq_ok {args : Json} {cs : List Json} {plan : Json} : planOf P args cs = .ok plan ↔
    ∃ options xs t given, normalizePlanOptions P args = .ok options ∧ normalizeCandidates P options cs = .ok xs ∧
      planTotals P args cs.length (tokensOf (keptItems options xs)) = .ok t ∧ t.finite = true ∧ givenPlanId args = .ok given ∧
      plan = orderPlan P t (keptItems options xs) (some (given.getD (derivedPlanId P t (keptItems options xs)))) := by
  have hcall : planOf P args cs = (planItems P (args.set (js "candidates") (.arr cs)) cs >>=
      planFromItems P (args.set (js "candidates") (.arr cs)) cs.length) := by
    have hget : (args.set (js "candidates") (.arr cs)).get (js "candidates") = some (.arr cs) := by
      rw [get_set, if_pos rfl]
    unfold planOf createMemoryOptimizationPlan
    simp only [planArgs, Json.set] at hget ⊢
    rw [hget]
  rw [hcall, Except.bind_eq_ok]
  simp only [planItems_eq_ok, planFromItems_eq_ok, normalizePlanOptions_set, planTotals_set, givenPlanId_set]
  constructor
  · rintro ⟨_, ⟨options, xs, hoptions, hxs, rfl⟩, t, given, h⟩
    exact ⟨options, xs, t, given, hoptions, hxs, h⟩
  · rintro ⟨options, xs, t, given, hoptions, hxs, h⟩
    exact ⟨_, ⟨options, xs, hoptions, hxs, rfl⟩, t, given, h⟩

/-- The figures do not depend on the order. -/
theorem tokensOf_perm (options : PlanOptions) {xs ys : List Candidate} (hperm : xs.Perm ys) :
    tokensOf (keptItems options xs) = tokensOf (keptItems options ys) := by
  rw [← tokensOf_bare, ← tokensOf_bare (keptItems options ys), bare_keptItems options hperm]

/-- **Whether there is a plan** does not depend on the order of the candidates. -/
theorem throws_perm {args : Json} {cs cs' : List Json} (hperm : cs.Perm cs') {plan : Json} (h : planOf P args cs = .ok plan) :
    ∃ plan', planOf P args cs' = .ok plan' := by
  obtain ⟨options, xs, t, given, hoptions, hxs, ht, hfinite, hgiven, -⟩ := (planOf_eq_ok P).1 h
  obtain ⟨ys, hys, hxy⟩ := normalizeCandidates_perm hperm hxs
  rw [hperm.length_eq, tokensOf_perm options hxy] at ht
  exact ⟨_, (planOf_eq_ok P).2 ⟨options, ys, t, given, hoptions, hys, ht, hfinite, hgiven, rfl⟩⟩

/-! ## What the items show -/

theorem item_content_hash (item : PlanItem) : (item.toJson P).get (js "content_hash") = some (.str item.content_hash) := by
  simp [PlanItem.toJson, PlanItem.body, Json.fields]

theorem item_metadata (item : PlanItem) :
    (item.toJson P).get (js "metadata_commitment") = item.metadata_commitment.map .str := by
  simp [PlanItem.toJson, PlanItem.body, Json.fields, get_obj_append]

theorem orderPlan_items (t : Totals) (items : List PlanItem) (planId : JsString) :
    (orderPlan P t items (some planId)).get (js "items") = some (.arr (items.map (PlanItem.toJson P))) := by
  simp [orderPlan, Json.field]

/-- The content hash that an item shows. -/
def shownHash (item : Json) : JsString :=
  match item.get (js "content_hash") with
  | some (.str s) => s
  | _ => []

theorem shownHash_toJson (item : PlanItem) : shownHash (item.toJson P) = item.content_hash := by
  rw [shownHash, item_content_hash]

/-- Plans that are equal have the same items. -/
theorem perm_of_plan_eq {options : PlanOptions} {xs ys : List Candidate} {t t' : Totals} {id id' : JsString}
    (h : orderPlan P t (keptItems options xs) (some id) = orderPlan P t' (keptItems options ys) (some id')) :
    ((Champions.champions Candidate.content_hash replaces xs).map fun c => (planItemFromCandidate options c).toJson P).Perm
      ((Champions.champions Candidate.content_hash replaces ys).map fun c => (planItemFromCandidate options c).toJson P) := by
  have hperm : ∀ zs : List Candidate, ((keptItems options zs).map (PlanItem.toJson P)).Perm
      ((Champions.champions Candidate.content_hash replaces zs).map fun c => (planItemFromCandidate options c).toJson P) := by
    intro zs
    have hsort := (List.perm_insertionSort (fun a b : PlanItem => comparePlanItems a b ≤ 0)
      ((Champions.champions Candidate.content_hash replaces zs).map (planItemFromCandidate options))).map (PlanItem.toJson P)
    rwa [List.map_map] at hsort
  have hitems : (keptItems options xs).map (PlanItem.toJson P) = (keptItems options ys).map (PlanItem.toJson P) := by
    have hget := congrArg (·.get (js "items")) h
    simp only [orderPlan_items, Option.some.injEq, Json.arr.injEq] at hget
    exact hget
  exact ((hperm xs).symm.trans (hitems ▸ List.Perm.refl _)).trans (hperm ys)

/-- **The order of the candidates**: the plan is the same for every order if and only if the candidates that
tie have the same metadata. -/
theorem perm_iff {args : Json} {cs : List Json} {options : PlanOptions} {xs : List Candidate} {plan : Json}
    (hoptions : normalizePlanOptions P args = .ok options) (hxs : normalizeCandidates P options cs = .ok xs)
    (h : planOf P args cs = .ok plan) : (∀ cs', cs.Perm cs' → planOf P args cs' = .ok plan) ↔ SameMetadata xs := by
  obtain ⟨options', xs', t, given, hoptions', hxs', ht, hfinite, hgiven, hplan⟩ := (planOf_eq_ok P).1 h
  cases Except.ok.inj (hoptions'.symm.trans hoptions)
  cases Except.ok.inj (hxs'.symm.trans hxs)
  constructor
  · intro hall
    have halike : Champions.Alike Candidate.content_hash replaces
        (fun c => (planItemFromCandidate options c).toJson P) xs := by
      have hshown (c : Candidate) : shownHash ((planItemFromCandidate options c).toJson P) = c.content_hash :=
        shownHash_toJson _
      refine Champions.alike_of_perm preference shownHash hshown fun ys hxy => ?_
      obtain ⟨cs', hperm, hys⟩ := exists_perm_of_normalized hxs hxy
      obtain ⟨options₂, ys₂, t₂, given₂, hoptions₂, hys₂, -, -, -, hplan₂⟩ := (planOf_eq_ok P).1 (hall cs' hperm)
      cases Except.ok.inj (hoptions₂.symm.trans hoptions)
      cases Except.ok.inj (hys₂.symm.trans hys)
      exact perm_of_plan_eq (hplan.symm.trans hplan₂)
    intro a ha b hb hkey hbest hbest'
    have hget := congrArg (·.get (js "metadata_commitment")) (halike a ha b hb hkey hbest hbest')
    simp only [item_metadata] at hget
    exact Option.map_injective (fun _ _ => Json.str.inj) hget
  · intro hsame cs' hperm
    obtain ⟨ys, hys, hxy⟩ := normalizeCandidates_perm hperm hxs
    have hitems := keptItems_perm options hsame hxy
    rw [hitems] at ht hplan
    rw [hperm.length_eq] at ht
    exact (planOf_eq_ok P).2 ⟨options, ys, t, given, hoptions, hys, ht, hfinite, hgiven, hplan⟩

variable (P) in
/-- Of the candidates with one content hash, those that no other one replaces have the same metadata
commitment. -/
def TiesShareMetadata (args : Json) (cs : List Json) : Prop :=
  ∀ options xs, normalizePlanOptions P args = .ok options → normalizeCandidates P options cs = .ok xs → SameMetadata xs

/-- **When a plan is independent of the order of its candidates.** -/
theorem order_independent (args : Json) (cs : List Json) :
    (∀ plan, planOf P args cs = .ok plan →
      ((∀ cs', cs.Perm cs' → planOf P args cs' = .ok plan) ↔ TiesShareMetadata P args cs)) ∧
    (∀ e, planOf P args cs = .error e → ∀ cs', cs.Perm cs' → ∃ e', planOf P args cs' = .error e') := by
  constructor
  · intro plan h
    obtain ⟨options, xs, -, -, hoptions, hxs, -⟩ := (planOf_eq_ok P).1 h
    rw [perm_iff hoptions hxs h]
    constructor
    · intro hsame options' xs' hoptions' hxs'
      cases Except.ok.inj (hoptions'.symm.trans hoptions)
      cases Except.ok.inj (hxs'.symm.trans hxs)
      exact hsame
    · exact fun hties => hties options xs hoptions hxs
  · intro e h cs' hperm
    cases h' : planOf P args cs' with
    | error e' => exact ⟨e', rfl⟩
    | ok plan =>
      obtain ⟨plan', hplan'⟩ := throws_perm hperm.symm h'
      rw [h] at hplan'
      cases hplan'

/-! ## Candidates that tie -/

/-- A memory, listed by its hash and size. -/
def listed : Json :=
  .obj [(js "content_hash", .str (sha256Prefix ++ List.replicate 64 97)), (js "estimated_tokens", .num 12)]

/-- The same memory with a note on where it came from. -/
def annotated : Json := listed.set (js "metadata") (.obj [(js "source", .str (js "chat"))])

/-- A plan of one item that commits to metadata. -/
def showsMetadata (plan : Except JsError Json) : Bool :=
  plan.toOption.any fun plan =>
    match plan.get (js "items") with
    | some (.arr [item]) => (item.get (js "metadata_commitment")).isSome
    | _ => false

/-- Which of two candidates that tie comes first shows in the plan. -/
theorem first_of_ties_kept : ¬ ∀ cs cs' : List Json, cs.Perm cs' → planOf reference (.obj []) cs = planOf reference (.obj []) cs' := by
  intro h
  have hplan := h [listed, annotated] [annotated, listed] (List.Perm.swap _ _ _)
  have hfirst : showsMetadata (planOf reference (.obj []) [listed, annotated]) = false := by decide +kernel
  have hsecond : showsMetadata (planOf reference (.obj []) [annotated, listed]) = true := by decide +kernel
  rw [hplan, hsecond] at hfirst
  cases hfirst

end MemoryPlan

end EnigmaMemory
