import EnigmaMemory.Lib.Grouping
import EnigmaMemory.Spec.ImportReports

/-!
# Previews of imports

`packages/importers/src/index.js`: what is shown of some reports before anything is written, with the candidates of one content
grouped as duplicates.
-/

namespace EnigmaMemory.Importers

open Json

variable (P : Platform)

def PREVIEW_SCHEMA : JsString := js "enigma.import_preview.v1"

inductive PreviewAction where
  | ready_for_import
  | review_before_import
  deriving DecidableEq, Repr

inductive ImportDecision where
  | empty
  | needs_review
  | ready_for_import
  deriving DecidableEq, Repr

/-- What a preview shows of a candidate. -/
structure CandidatePreview where
  candidate_ref : JsString
  importer : Json
  source_type : Json
  kind : Json
  confidence : Confidence
  recommended_action : PreviewAction
  content_commitment : JsString
  source_ref_count : ℕ
  limitation_count : ℕ
  metadata_commitment : JsString

structure DuplicateGroup where
  duplicate_group_ref : JsString
  content_commitment : JsString
  candidate_count : ℕ
  candidate_refs : List JsString

/-- The place of a candidate in its group. -/
structure DuplicateMark where
  duplicate_group_ref : JsString
  duplicate_index : ℕ
  duplicate_candidate_count : ℕ

structure DecoratedCandidate where
  candidate : CandidatePreview
  is_duplicate : Bool
  mark : Option DuplicateMark

structure DedupeCounts where
  duplicate_group_count : ℕ
  duplicate_candidate_count : ℕ
  unique_content_count : ℕ

structure DuplicateSummary where
  candidates : List DecoratedCandidate
  duplicate_groups : List DuplicateGroup
  counts : DedupeCounts

structure ConfidenceCounts where
  high : ℕ := 0
  medium : ℕ := 0
  low : ℕ := 0

structure ActionCounts where
  ready_for_import : ℕ := 0
  review_before_import : ℕ := 0

structure PreviewCounts where
  confidence : ConfidenceCounts
  recommended_actions : ActionCounts

structure PreviewRoots where
  report_root : JsString
  candidate_preview_root : JsString
  content_commitment_root : JsString

structure PrimaryAction where
  id : JsString
  label : JsString
  description : JsString
  writes_vault : Bool
  requires_explicit_approval : Bool := true
  public_safe : Bool := true

structure PreviewReceipt where
  schema : JsString := js "enigma.import_preview_receipt.v1"
  preview_ref : JsString
  candidate_count : ℕ
  ready_for_import_count : ℕ
  review_before_import_count : ℕ
  duplicate_group_count : ℕ
  duplicate_candidate_count : ℕ
  explicit_import_required : Bool := true
  raw_plaintext_returned : Bool := false
  vault_write_performed : Bool := false
  public_artifact_policy : JsString := js "hashes_counts_refs_and_commitments_only"

structure PlaintextBoundary where
  raw_plaintext_returned : Bool := false
  default_action : JsString := js "preview_only"
  write_requires_explicit_approval : Bool := true
  public_artifact_policy : JsString := js "hashes_counts_refs_and_commitments_only"

structure ImportPreview where
  schema : JsString := PREVIEW_SCHEMA
  preview_id : JsString
  generated_at : JsString
  report_count : ℕ
  importers : List JsString
  source_types : List JsString
  candidate_count : ℕ
  candidates : List DecoratedCandidate
  counts : PreviewCounts
  dedupe : DedupeCounts
  limitations : List JsString
  duplicate_groups : List DuplicateGroup
  roots : PreviewRoots
  private_plaintext_boundary : PlaintextBoundary := {}
  import_decision : ImportDecision
  primary_action : PrimaryAction
  preview_receipt : PreviewReceipt

/-! ## Candidates -/

def previewCandidateRef (candidate : Json) (index : ℕ) : JsString :=
  match candidate.get (js "candidate_id") with
  | some (.str (c :: s)) => js "ref:import-candidate:" ++ maskRef (c :: s)
  | _ => js "ref:import-candidate:" ++ shortHash P (.obj [(js "index", .num index), (js "candidate", candidate)])

def importPreviewAction (candidate report : Json) : PreviewAction :=
  if isStr (candidate.get (js "confidence")) (js "low") then .review_before_import
  else
    match report.get (js "complete") with
    | some (.bool true) =>
      match candidate.get (js "limitations") with
      | some (.arr (_ :: _)) => .review_before_import
      | _ => .ready_for_import
    | _ => .review_before_import

def candidatePreview (report candidate : Json) (index : ℕ) : CandidatePreview where
  candidate_ref := previewCandidateRef P candidate index
  importer := given (report.get (js "importer")) (.str (js "unknown"))
  source_type := given (report.get (js "source_type")) (.str (js "unknown"))
  kind := given (candidate.get (js "kind")) (.str (js "fact"))
  confidence := normalizeConfidence (candidate.get (js "confidence")) .medium
  recommended_action := importPreviewAction candidate report
  content_commitment := rootOf P (given (candidate.get (js "content")) (.str []))
  source_ref_count := (asArray (candidate.get (js "source_refs"))).length
  limitation_count := (asArray (candidate.get (js "limitations"))).length
  metadata_commitment := rootOf P (given (candidate.get (js "metadata")) (.obj []))

/-- The candidates of some reports, each with its report. -/
def listedCandidates (reports : List Json) : List (Json × Json) :=
  reports.flatMap fun report => ((asArray (report.get (js "memory_candidates"))).filter isRecord).map fun candidate => (report, candidate)

def importPreviewCandidates (reports : List Json) : List CandidatePreview :=
  (listedCandidates reports).zipIdx.map fun x => candidatePreview P x.1.1 x.1.2 x.2

/-! ## Duplicates -/

/-- The candidates by their contents. -/
def contentGroups (candidates : List CandidatePreview) : List (JsString × List CandidatePreview) :=
  Grouping.groups CandidatePreview.content_commitment (fun _ => []) (fun group candidate => group ++ [candidate]) candidates

def duplicateGroup (contentCommitment : JsString) (groupCandidates : List CandidatePreview) : DuplicateGroup :=
  let refs := groupCandidates.map (·.candidate_ref)
  { duplicate_group_ref := js "ref:import-duplicate:" ++
      shortHash P (.obj [(js "contentCommitment", .str contentCommitment), (js "candidate_refs", .arr (refs.map .str))])
    content_commitment := contentCommitment
    candidate_count := groupCandidates.length
    candidate_refs := refs }

def duplicateGroups (candidates : List CandidatePreview) : List DuplicateGroup :=
  ((contentGroups candidates).filter fun group => decide (2 ≤ group.2.length)).map fun group => duplicateGroup P group.1 group.2

/-- The marks of the candidates in groups, by their references. -/
def byCandidateRef (groups : List DuplicateGroup) : OrdMap JsString DuplicateMark :=
  groups.foldl (fun marks group => group.candidate_refs.zipIdx.foldl
    (fun marks x => marks.set x.1 ⟨group.duplicate_group_ref, x.2, group.candidate_count⟩) marks) OrdMap.empty

def importPreviewDuplicateSummary (candidates : List CandidatePreview) : DuplicateSummary :=
  let groups := duplicateGroups P candidates
  let marks := byCandidateRef groups
  { candidates := candidates.map fun candidate =>
      ⟨candidate, marks.has candidate.candidate_ref, marks.get candidate.candidate_ref⟩
    duplicate_groups := groups
    counts := ⟨groups.length, marks.keys.length, (contentGroups candidates).length⟩ }

/-! ## Counts and the decision -/

/-- A level that has no bucket is not counted. -/
def ConfidenceCounts.count (counts : ConfidenceCounts) : Confidence → ConfidenceCounts
  | .high => { counts with high := counts.high + 1 }
  | .medium => { counts with medium := counts.medium + 1 }
  | .low => { counts with low := counts.low + 1 }
  | .source_asserted | .user_confirmed => counts

def ActionCounts.count (counts : ActionCounts) : PreviewAction → ActionCounts
  | .ready_for_import => { counts with ready_for_import := counts.ready_for_import + 1 }
  | .review_before_import => { counts with review_before_import := counts.review_before_import + 1 }

def importPreviewCounts (candidates : List CandidatePreview) : PreviewCounts :=
  candidates.foldl (fun counts candidate =>
    ⟨counts.confidence.count candidate.confidence, counts.recommended_actions.count candidate.recommended_action⟩) ⟨{}, {}⟩

def importPreviewDecision (candidates : List CandidatePreview) (counts : PreviewCounts) (duplicateCounts : DedupeCounts) :
    ImportDecision :=
  if candidates.length = 0 then .empty
  else if 0 < duplicateCounts.duplicate_group_count then .needs_review
  else if 0 < counts.recommended_actions.review_before_import then .needs_review
  else .ready_for_import

def importPreviewPrimaryAction : ImportDecision → PrimaryAction
  | .empty => {
    id := js "choose_import_file"
    label := js "Choose memory file"
    description := js "Pick a local memory export or curated memory list to preview."
    writes_vault := false }
  | .needs_review => {
    id := js "review_import_candidates"
    label := js "Review before importing"
    description := js "Review low-confidence, incomplete, or caveated candidates before anything is written."
    writes_vault := false }
  | .ready_for_import => {
    id := js "approve_import"
    label := js "Import selected memories"
    description := js "Approve this local import batch before Enigma writes candidates into the vault."
    writes_vault := true }

/-- The strings among the limitations of a report. -/
def reportLimitations (report : Json) : List Json :=
  (asArray (report.get (js "limitations"))).filter fun
    | .str _ => true
    | _ => false

def createImportPreview (input : Json) (now : Now) : Except JsError ImportPreview := do
  let reports := normalizeReportsForPreview input
  let rawCandidates := importPreviewCandidates P reports
  let duplicateSummary := importPreviewDuplicateSummary P rawCandidates
  let reportRefs := reports.zipIdx.map fun x => reportRef P x.1 x.2
  let candidateRefs := rawCandidates.map (·.candidate_ref)
  let counts := importPreviewCounts rawCandidates
  let decision := importPreviewDecision rawCandidates counts duplicateSummary.counts
  let generatedAt ← nowFrom P now
  let previewId := js "preview_" ++ shortHash P (.obj [(js "reportRefs", .arr (reportRefs.map .str)),
    (js "candidateRefs", .arr (candidateRefs.map .str)), (js "generated_at", .str generatedAt)])
  return {
    preview_id := previewId
    generated_at := generatedAt
    report_count := reports.length
    importers := uniqueStrings P (reports.filterMap fun report => (report.get (js "importer")).filter fun value => truthy (some value))
    source_types := uniqueStrings P
      (reports.filterMap fun report => (report.get (js "source_type")).filter fun value => truthy (some value))
    candidate_count := rawCandidates.length
    candidates := duplicateSummary.candidates
    counts := counts
    dedupe := duplicateSummary.counts
    limitations := uniqueStrings P (reports.flatMap reportLimitations)
    duplicate_groups := duplicateSummary.duplicate_groups
    roots := {
      report_root := MerkleSet.root (OrdSet.ofList reportRefs)
      candidate_preview_root := MerkleSet.root (OrdSet.ofList candidateRefs)
      content_commitment_root := MerkleSet.root (OrdSet.ofList (rawCandidates.map (·.content_commitment))) }
    import_decision := decision
    primary_action := importPreviewPrimaryAction decision
    preview_receipt := {
      preview_ref := js "ref:import-preview:" ++ previewId
      candidate_count := rawCandidates.length
      ready_for_import_count := counts.recommended_actions.ready_for_import
      review_before_import_count := counts.recommended_actions.review_before_import
      duplicate_group_count := duplicateSummary.counts.duplicate_group_count
      duplicate_candidate_count := duplicateSummary.counts.duplicate_candidate_count } }

end EnigmaMemory.Importers
