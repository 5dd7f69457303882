import EnigmaMemory.Lib.Result
import EnigmaMemory.Proof.Reference
import EnigmaMemory.Spec.ImportPreview

/-!
# The counts of an import preview

* `preview_counts_iff`: the counts and the duplicate marks of a preview agree exactly when every confidence has a bucket and
  no candidate whose content stands twice shares its reference.
-/

namespace EnigmaMemory.Importers

open Json Grouping

variable {P : Platform}

/-! ## Groups of one content -/

/-- The candidates with the content of a candidate. -/
def sharing (cs : List CandidatePreview) (c : CandidatePreview) : List CandidatePreview :=
  withKey CandidatePreview.content_commitment cs c.content_commitment

/-- The content of a candidate stands twice. -/
def Repeated (cs : List CandidatePreview) (c : CandidatePreview) : Prop := 2 ≤ (sharing cs c).length

instance (cs : List CandidatePreview) (c : CandidatePreview) : Decidable (Repeated cs c) := inferInstanceAs (Decidable (2 ≤ _))

theorem foldl_snoc {α : Type} (xs ys : List α) : xs.foldl (fun group a => group ++ [a]) ys = ys ++ xs := by
  induction xs generalizing ys with
  | nil => rw [List.append_nil]; rfl
  | cons x xs ih => rw [List.foldl_cons, ih, List.append_assoc]; rfl

theorem contentGroups_eq (cs : List CandidatePreview) :
    contentGroups cs = (firsts CandidatePreview.content_commitment cs).map fun c => (c.content_commitment, sharing cs c) := by
  rw [contentGroups, groups_eq]
  simp only [foldl_snoc, List.nil_append]
  rfl

theorem duplicateGroups_eq (cs : List CandidatePreview) : duplicateGroups P cs =
    ((firsts CandidatePreview.content_commitment cs).filter fun c => decide (Repeated cs c)).map fun c =>
      duplicateGroup P c.content_commitment (sharing cs c) := by
  rw [duplicateGroups, contentGroups_eq, List.filter_map, List.map_map]
  rfl

/-- The references in the groups are those of the candidates whose content stands twice. -/
theorem perm_groupRefs (cs : List CandidatePreview) : ((duplicateGroups P cs).flatMap (·.candidate_refs)).Perm
    ((cs.filter fun c => decide (Repeated cs c)).map (·.candidate_ref)) := by
  rw [duplicateGroups_eq, List.flatMap_map]
  have hrefs : ∀ ys : List CandidatePreview, ys.flatMap (fun c => (duplicateGroup P c.content_commitment (sharing cs c)).candidate_refs) =
      (ys.flatMap fun c => sharing cs c).map (·.candidate_ref) := by
    intro ys
    rw [List.map_flatMap]
    rfl
  rw [hrefs]
  exact (perm_repeated CandidatePreview.content_commitment cs).map _

theorem sum_groupCounts (cs : List CandidatePreview) : ((duplicateGroups P cs).map (·.candidate_count)).sum =
    (cs.filter fun c => decide (Repeated cs c)).length := by
  have hlength := (perm_groupRefs (P := P) cs).length_eq
  rw [List.length_flatMap, List.length_map] at hlength
  rw [← hlength, duplicateGroups_eq, List.map_map, List.map_map]
  simp [duplicateGroup, Function.comp_def]

/-- The contents and the further members of the groups are all the candidates. -/
theorem sum_excess (cs : List CandidatePreview) :
    (contentGroups cs).length + ((duplicateGroups P cs).map fun group => group.candidate_count - 1).sum = cs.length := by
  have hsum : (((firsts CandidatePreview.content_commitment cs).map fun c => (sharing cs c).length)).sum = cs.length := by
    have hgroups := (perm_groups CandidatePreview.content_commitment cs).length_eq
    rwa [List.length_flatMap] at hgroups
  have hone : ∀ c ∈ firsts CandidatePreview.content_commitment cs, 1 ≤ (sharing cs c).length := by
    intro c hc
    refine List.length_pos_of_mem (List.mem_filter.2 ⟨(firsts_sublist _ cs).subset hc, decide_eq_true rfl⟩)
  rw [contentGroups_eq, duplicateGroups_eq, List.length_map, List.map_map, ← hsum]
  revert hone
  generalize firsts CandidatePreview.content_commitment cs = ys
  intro hone
  induction ys with
  | nil => rfl
  | cons y ys ih =>
    have hy := hone y List.mem_cons_self
    have hrest := ih fun c hc => hone c (List.mem_cons_of_mem _ hc)
    by_cases hrepeated : Repeated cs y
    · rw [List.filter_cons, if_pos (decide_eq_true hrepeated)]
      simp only [List.map_cons, List.sum_cons, List.length_cons, Function.comp_apply, duplicateGroup] at hrest ⊢
      omega
    · have hlt : (sharing cs y).length < 2 := Nat.lt_of_not_le hrepeated
      rw [List.filter_cons, if_neg (by simpa using hrepeated)]
      simp only [List.map_cons, List.sum_cons, List.length_cons] at hrest ⊢
      omega

/-! ## Marks -/

theorem has_foldl_set {α ν : Type} (key : α → JsString) (value : α → ν) (xs : List α) (m : OrdMap JsString ν) (k : JsString) :
    (xs.foldl (fun m x => m.set (key x) (value x)) m).has k = true ↔ k ∈ xs.map key ∨ m.has k = true := by
  induction xs generalizing m with
  | nil => simp
  | cons x xs ih =>
    rw [List.foldl_cons, ih, OrdMap.has_set, Bool.or_eq_true, decide_eq_true_eq, List.map_cons, List.mem_cons]
    tauto

theorem has_byCandidateRef (groups : List DuplicateGroup) (r : JsString) :
    (byCandidateRef groups).has r = true ↔ r ∈ groups.flatMap (·.candidate_refs) := by
  have hfold : ∀ marks : OrdMap JsString DuplicateMark, (groups.foldl (fun marks group => group.candidate_refs.zipIdx.foldl
      (fun marks x => marks.set x.1 ⟨group.duplicate_group_ref, x.2, group.candidate_count⟩) marks) marks).has r = true ↔
        r ∈ groups.flatMap (·.candidate_refs) ∨ marks.has r = true := by
    induction groups with
    | nil => simp
    | cons group groups ih =>
      intro marks
      rw [List.foldl_cons, ih, has_foldl_set, List.zipIdx_map_fst, List.flatMap_cons, List.mem_append]
      tauto
  have hempty : (OrdMap.empty : OrdMap JsString DuplicateMark).has r = false := rfl
  rw [byCandidateRef, hfold, hempty]
  simp

/-- Every reference is counted once. -/
theorem length_byCandidateRef (groups : List DuplicateGroup) :
    (byCandidateRef groups).keys.length = (groups.flatMap (·.candidate_refs)).dedup.length := by
  refine ((List.perm_ext_iff_of_nodup (OrdMap.nodup_keys _) (List.nodup_dedup _)).2 fun r => ?_).length_eq
  rw [OrdMap.mem_keys, has_byCandidateRef, List.mem_dedup]

/-- A candidate is marked when its reference is that of a candidate whose content stands twice. -/
theorem marked_iff (cs : List CandidatePreview) (r : JsString) : (byCandidateRef (duplicateGroups P cs)).has r = true ↔
    ∃ c ∈ cs, Repeated cs c ∧ c.candidate_ref = r := by
  rw [has_byCandidateRef, (perm_groupRefs cs).mem_iff]
  simp only [List.mem_map, List.mem_filter, decide_eq_true_eq, and_assoc]

/-- No candidate whose content stands twice shares its reference. -/
def RefsApart (cs : List CandidatePreview) : Prop :=
  ∀ (i j : ℕ) (a b : CandidatePreview), i ≠ j → cs[i]? = some a → cs[j]? = some b → a.candidate_ref = b.candidate_ref → ¬ Repeated cs a

theorem nodup_groupRefs_iff (cs : List CandidatePreview) : ((duplicateGroups P cs).flatMap (·.candidate_refs)).Nodup ↔
    ∀ (i j : ℕ) (a b : CandidatePreview), i < j → cs[i]? = some a → cs[j]? = some b → Repeated cs a → Repeated cs b →
      a.candidate_ref ≠ b.candidate_ref := by
  rw [(perm_groupRefs cs).nodup_iff, List.Nodup, List.pairwise_map, List.pairwise_filter, List.pairwise_iff_getElem]
  constructor
  · intro h i j a b hij ha hb hrepeated hrepeated'
    obtain ⟨hi, rfl⟩ := List.getElem?_eq_some_iff.1 ha
    obtain ⟨hj, rfl⟩ := List.getElem?_eq_some_iff.1 hb
    exact h i j hi hj hij (decide_eq_true hrepeated) (decide_eq_true hrepeated')
  · intro h i j hi hj hij hrepeated hrepeated'
    exact h i j _ _ hij (List.getElem?_eq_getElem hi) (List.getElem?_eq_getElem hj) (of_decide_eq_true hrepeated)
      (of_decide_eq_true hrepeated')

/-- The duplicate marks say which contents stand twice, and each mark is counted once. -/
theorem refsApart_iff (cs : List CandidatePreview) : RefsApart cs ↔
    (∀ c ∈ cs, (byCandidateRef (duplicateGroups P cs)).has c.candidate_ref = true ↔ Repeated cs c) ∧
      (byCandidateRef (duplicateGroups P cs)).keys.length = (cs.filter fun c => decide (Repeated cs c)).length := by
  have hlength : (byCandidateRef (duplicateGroups P cs)).keys.length = (cs.filter fun c => decide (Repeated cs c)).length ↔
      ((duplicateGroups P cs).flatMap (·.candidate_refs)).Nodup := by
    have hperm := (perm_groupRefs (P := P) cs).length_eq
    rw [List.length_map] at hperm
    rw [length_byCandidateRef, ← hperm]
    refine ⟨fun heq => ?_, fun hnodup => by rw [List.dedup_eq_self.2 hnodup]⟩
    exact List.dedup_eq_self.1 ((List.dedup_sublist _).eq_of_length heq)
  rw [hlength, nodup_groupRefs_iff]
  constructor
  · intro hapart
    refine ⟨fun c hc => ⟨fun hmarked => ?_, fun hrepeated => (marked_iff cs _).2 ⟨c, hc, hrepeated, rfl⟩⟩, ?_⟩
    · obtain ⟨d, hd, hrepeated, href⟩ := (marked_iff cs _).1 hmarked
      obtain ⟨i, hi, rfl⟩ := List.mem_iff_getElem.1 hc
      obtain ⟨j, hj, rfl⟩ := List.mem_iff_getElem.1 hd
      by_cases hij : j = i
      · subst hij
        exact hrepeated
      · exact absurd hrepeated (hapart j i _ _ hij (List.getElem?_eq_getElem hj) (List.getElem?_eq_getElem hi) href)
    · intro i j a b hij ha hb hrepeated _ href
      exact hapart i j a b hij.ne ha hb href hrepeated
  · rintro ⟨hmarks, hnodup⟩ i j a b hij ha hb href hrepeated
    have hrepeated' : Repeated cs b :=
      (hmarks b (List.mem_of_getElem? hb)).1 ((marked_iff cs _).2 ⟨a, List.mem_of_getElem? ha, hrepeated, href⟩)
    rcases Nat.lt_or_gt_of_ne hij with hlt | hgt
    · exact hnodup i j a b hlt ha hb hrepeated hrepeated' href
    · exact hnodup j i b a hgt hb ha hrepeated' hrepeated href.symm

/-! ## Counts -/

/-- A level has a bucket among the counts. -/
def bucketed : Confidence → Bool
  | .high | .medium | .low => true
  | .source_asserted | .user_confirmed => false

def ConfidenceCounts.total (counts : ConfidenceCounts) : ℕ := counts.high + counts.medium + counts.low

def ActionCounts.total (counts : ActionCounts) : ℕ := counts.ready_for_import + counts.review_before_import

theorem total_importPreviewCounts (cs : List CandidatePreview) :
    (importPreviewCounts cs).confidence.total = (cs.filter fun c => bucketed c.confidence).length ∧
      (importPreviewCounts cs).recommended_actions.total = cs.length := by
  have hfold : ∀ counts : PreviewCounts, ∀ result, result = cs.foldl (fun (counts : PreviewCounts) candidate =>
      ⟨counts.confidence.count candidate.confidence, counts.recommended_actions.count candidate.recommended_action⟩) counts →
      result.confidence.total = counts.confidence.total + (cs.filter fun c => bucketed c.confidence).length ∧
        result.recommended_actions.total = counts.recommended_actions.total + cs.length := by
    induction cs with
    | nil =>
      rintro counts _ rfl
      exact ⟨rfl, rfl⟩
    | cons c cs ih =>
      rintro counts _ rfl
      obtain ⟨hconfidence, hactions⟩ := ih _ _ rfl
      rw [List.foldl_cons]
      refine ⟨hconfidence.trans ?_, hactions.trans ?_⟩
      · cases hlevel : c.confidence <;>
          simp [ConfidenceCounts.total, ConfidenceCounts.count, bucketed, hlevel] <;> omega
      · cases c.recommended_action <;> simp [ActionCounts.total, ActionCounts.count] <;> omega
  obtain ⟨hconfidence, hactions⟩ := hfold ⟨{}, {}⟩ _ rfl
  refine ⟨hconfidence.trans ?_, hactions.trans ?_⟩
  · simp [ConfidenceCounts.total]
  · simp [ActionCounts.total]

/-! ## The preview -/

/-- The counts of a preview agree with its candidates and its groups. -/
structure Consistent (p : ImportPreview) : Prop where
  confidence : p.counts.confidence.total = p.candidate_count
  actions : p.counts.recommended_actions.total = p.candidate_count
  marked : ∀ (i : ℕ) (c : DecoratedCandidate), p.candidates[i]? = some c → (c.is_duplicate = true ↔
    ∃ (j : ℕ) (d : DecoratedCandidate), j ≠ i ∧ p.candidates[j]? = some d ∧
      d.candidate.content_commitment = c.candidate.content_commitment)
  grouped : p.dedupe.duplicate_candidate_count = (p.duplicate_groups.map (·.candidate_count)).sum
  listed : p.dedupe.duplicate_candidate_count = (p.candidates.filter (·.is_duplicate)).length
  contents : p.dedupe.unique_content_count + (p.duplicate_groups.map fun group => group.candidate_count - 1).sum = p.candidate_count

theorem preview_eq {input : Json} {now : Now} {p : ImportPreview} (h : createImportPreview P input now = .ok p) :
    let cs := importPreviewCandidates P (normalizeReportsForPreview input)
    let summary := importPreviewDuplicateSummary P cs
    p.candidate_count = cs.length ∧ p.counts = importPreviewCounts cs ∧ p.candidates = summary.candidates ∧
      p.dedupe = summary.counts ∧ p.duplicate_groups = summary.duplicate_groups := by
  obtain ⟨generatedAt, -, hp⟩ := Except.bind_eq_ok.1 h
  obtain rfl := Except.pure_eq_ok.1 hp
  exact ⟨rfl, rfl, rfl, rfl, rfl⟩

theorem consistent_iff {input : Json} {now : Now} {p : ImportPreview} (h : createImportPreview P input now = .ok p) :
    Consistent p ↔ (∀ c ∈ importPreviewCandidates P (normalizeReportsForPreview input), bucketed c.confidence = true) ∧
      RefsApart (importPreviewCandidates P (normalizeReportsForPreview input)) := by
  obtain ⟨hcount, hcounts, hcandidates, hdedupe, hgroups⟩ := preview_eq h
  generalize importPreviewCandidates P (normalizeReportsForPreview input) = cs at *
  obtain ⟨hconfidence, hactions⟩ := total_importPreviewCounts cs
  have hat : ∀ i : ℕ, p.candidates[i]? = (cs[i]?).map fun c =>
      ⟨c, (byCandidateRef (duplicateGroups P cs)).has c.candidate_ref, (byCandidateRef (duplicateGroups P cs)).get c.candidate_ref⟩ := by
    intro i
    rw [hcandidates, importPreviewDuplicateSummary, List.getElem?_map]
  have hmarked : (p.candidates.filter (·.is_duplicate)).length =
      (cs.filter fun c => (byCandidateRef (duplicateGroups P cs)).has c.candidate_ref).length := by
    rw [hcandidates, importPreviewDuplicateSummary, List.filter_map, List.length_map]
    rfl
  have hmarks : (∀ (i : ℕ) (c : DecoratedCandidate), p.candidates[i]? = some c → (c.is_duplicate = true ↔
      ∃ (j : ℕ) (d : DecoratedCandidate), j ≠ i ∧ p.candidates[j]? = some d ∧
        d.candidate.content_commitment = c.candidate.content_commitment)) ↔
      ∀ c ∈ cs, (byCandidateRef (duplicateGroups P cs)).has c.candidate_ref = true ↔ Repeated cs c := by
    have hrepeated : ∀ (i : ℕ) (a : CandidatePreview), cs[i]? = some a → (Repeated cs a ↔ ∃ (j : ℕ) (d : DecoratedCandidate),
        j ≠ i ∧ p.candidates[j]? = some d ∧ d.candidate.content_commitment = a.content_commitment) := by
      intro i a ha
      refine (two_le_withKey_iff CandidatePreview.content_commitment ha).trans ⟨?_, ?_⟩
      · rintro ⟨j, b, hne, hb, hkey⟩
        exact ⟨j, _, hne, by rw [hat, hb]; rfl, hkey⟩
      · rintro ⟨j, d, hne, hd, hkey⟩
        rw [hat] at hd
        obtain ⟨b, hb, rfl⟩ := Option.map_eq_some_iff.1 hd
        exact ⟨j, b, hne, hb, hkey⟩
    constructor
    · intro hall c hc
      obtain ⟨i, hi, rfl⟩ := List.mem_iff_getElem.1 hc
      have hget := List.getElem?_eq_getElem hi
      exact (hall i _ (by rw [hat, hget]; rfl)).trans (hrepeated i _ hget).symm
    · intro hall i c hc
      rw [hat] at hc
      obtain ⟨a, ha, rfl⟩ := Option.map_eq_some_iff.1 hc
      exact (hall a (List.mem_of_getElem? ha)).trans (hrepeated i a ha)
  have hbuckets : p.counts.confidence.total = p.candidate_count ↔ ∀ c ∈ cs, bucketed c.confidence = true := by
    rw [hcounts, hcount, hconfidence, List.length_filter_eq_length_iff]
  rw [refsApart_iff (P := P)]
  constructor
  · intro hp
    refine ⟨hbuckets.1 hp.confidence, hmarks.1 hp.marked, ?_⟩
    rw [← sum_groupCounts (P := P)]
    have hgrouped := hp.grouped
    rw [hdedupe, hgroups] at hgrouped
    exact hgrouped
  · rintro ⟨hall, hduplicates, hsize⟩
    refine ⟨hbuckets.2 hall, by rw [hcounts, hcount, hactions], hmarks.2 hduplicates, ?_, ?_, ?_⟩
    · rw [hdedupe, hgroups]
      exact hsize.trans (sum_groupCounts cs).symm
    · rw [hmarked, hdedupe]
      refine hsize.trans (congrArg List.length (List.filter_congr fun c hc => ?_))
      rw [Bool.eq_iff_iff, decide_eq_true_eq]
      exact (hduplicates c hc).symm
    · rw [hdedupe, hgroups, hcount]
      exact sum_excess cs

/-- What reports must be for the counts of their preview to agree: every confidence is high, medium or low, and a candidate that
shares its reference with another one has a content of its own. -/
structure CountableReports (P : Platform) (reports : List Json) : Prop where
  levels : ∀ x ∈ listedCandidates reports, bucketed (normalizeConfidence (x.2.get (js "confidence")) .medium) = true
  apart : ∀ (i j k : ℕ) (x y z : Json × Json), (listedCandidates reports)[i]? = some x → (listedCandidates reports)[j]? = some y →
    (listedCandidates reports)[k]? = some z → i ≠ j → previewCandidateRef P x.2 i = previewCandidateRef P y.2 j → k ≠ i →
    rootOf P (given (z.2.get (js "content")) (.str [])) ≠ rootOf P (given (x.2.get (js "content")) (.str []))

theorem getElem?_candidates (reports : List Json) (i : ℕ) : (importPreviewCandidates P reports)[i]? =
    ((listedCandidates reports)[i]?).map fun x => candidatePreview P x.1 x.2 i := by
  rw [importPreviewCandidates, List.getElem?_map, List.getElem?_zipIdx, Option.map_map]
  simp [Function.comp_def]

/-- **The counts of a preview agree** exactly when every confidence has a bucket and no candidate whose content stands twice shares
its reference. -/
theorem preview_counts_iff (P : Platform) (input : Json) (now : Now) (p : ImportPreview)
    (h : createImportPreview P input now = .ok p) : Consistent p ↔ CountableReports P (normalizeReportsForPreview input) := by
  rw [consistent_iff h]
  generalize normalizeReportsForPreview input = reports
  have hat : ∀ {n : ℕ} {w : Json × Json}, (listedCandidates reports)[n]? = some w →
      (importPreviewCandidates P reports)[n]? = some (candidatePreview P w.1 w.2 n) := by
    intro n w hw
    rw [getElem?_candidates, hw]
    rfl
  constructor
  · rintro ⟨hlevels, hapart⟩
    refine ⟨fun x hx => ?_, fun i j k x y z hx hy hz hij href hki hsame => ?_⟩
    · obtain ⟨i, hi, rfl⟩ := List.mem_iff_getElem.1 hx
      exact hlevels _ (List.mem_of_getElem? (hat (List.getElem?_eq_getElem hi)))
    · refine hapart i j _ _ hij (hat hx) (hat hy) href ?_
      exact (two_le_withKey_iff CandidatePreview.content_commitment (hat hx)).2 ⟨k, _, hki, hat hz, hsame⟩
  · rintro ⟨hlevels, hapart⟩
    refine ⟨fun c hc => ?_, fun i j a b hij ha hb href hrepeated => ?_⟩
    · obtain ⟨i, hi⟩ := List.mem_iff_getElem?.1 hc
      rw [getElem?_candidates] at hi
      obtain ⟨x, hx, rfl⟩ := Option.map_eq_some_iff.1 hi
      exact hlevels x (List.mem_of_getElem? hx)
    · obtain ⟨k, c, hki, hc, hsame⟩ := (two_le_withKey_iff CandidatePreview.content_commitment ha).1 hrepeated
      rw [getElem?_candidates] at ha hb hc
      obtain ⟨x, hx, rfl⟩ := Option.map_eq_some_iff.1 ha
      obtain ⟨y, hy, rfl⟩ := Option.map_eq_some_iff.1 hb
      obtain ⟨z, hz, rfl⟩ := Option.map_eq_some_iff.1 hc
      exact hapart i j k x y z hx hy hz hij href hki hsame

/-- A report of one candidate. -/
def oneReport (confidence : String) : Json :=
  .obj [(js "memory_candidates", .arr [.obj [(js "candidate_id", .str (js "cand_1")), (js "content", .str (js "a note")),
    (js "confidence", .str (js confidence))]])]

theorem preview_counts_medium : ∃ p, createImportPreview reference (.arr [oneReport "medium"]) .absent = .ok p ∧
    (Consistent p ↔ CountableReports reference (normalizeReportsForPreview (.arr [oneReport "medium"]))) := by
  obtain ⟨p, hp⟩ : ∃ p, createImportPreview reference (.arr [oneReport "medium"]) .absent = .ok p := ⟨_, rfl⟩
  exact ⟨p, hp, preview_counts_iff reference _ _ p hp⟩

/-- A confirmed candidate is in no bucket. -/
theorem confirmed_uncounted : ∃ p, createImportPreview reference (.arr [oneReport "user_confirmed"]) .absent = .ok p ∧
    ¬ Consistent p := by
  obtain ⟨p, hp⟩ : ∃ p, createImportPreview reference (.arr [oneReport "user_confirmed"]) .absent = .ok p := ⟨_, rfl⟩
  refine ⟨p, hp, fun hconsistent => ?_⟩
  obtain ⟨hcount, hcounts, -⟩ := preview_eq hp
  have htotal := hconsistent.confidence
  rw [hcounts, hcount] at htotal
  exact absurd htotal (by decide)

end EnigmaMemory.Importers
