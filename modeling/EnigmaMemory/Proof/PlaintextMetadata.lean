import EnigmaMemory.Proof.JsonEqual
import EnigmaMemory.Proof.Reference
import EnigmaMemory.Spec.Importers

/-!
# Plaintext in the metadata of candidates

An importer reads the content of a candidate from the fields of an item, and copies fields of the item into the metadata and the source
reference; fields under ten names are committed instead. The contents are read under more names than these.

* `plaintext_committed_iff`: the metadata and the references of the candidates do not repeat contents of more than one word exactly
  when no item has its content in a field that is copied too.
-/

namespace EnigmaMemory.Importers

open Json

variable (P : Platform)

/-! ## The importers -/

inductive Importer where
  | importTextMemoryList
  | importChatGptExport
  | importClaudeMemory
  | importMem0Export
  | importLettaAgentFile
  | importLangGraphStore
  | importZepGraphitiExport
  deriving DecidableEq, Repr

def Importer.run : Importer → Json → ImportOptions → Except JsError Json
  | importTextMemoryList => Importers.importTextMemoryList P
  | importChatGptExport => Importers.importChatGptExport P
  | importClaudeMemory => Importers.importClaudeMemory P
  | importMem0Export => Importers.importMem0Export P
  | importLettaAgentFile => Importers.importLettaAgentFile P
  | importLangGraphStore => Importers.importLangGraphStore P
  | importZepGraphitiExport => Importers.importZepGraphitiExport P

/-- What the items of an input are read as. -/
def Importer.drafts (input : Json) (options : ImportOptions) : Importer → Except JsError (List Draft)
  | importTextMemoryList => .ok (textMemoryDrafts P (parseMaybeJson P input) options)
  | importChatGptExport => chatGptDrafts P (parseMaybeJson P input)
  | importClaudeMemory => .ok (claudeDrafts P (parseMaybeJson P input))
  | importMem0Export => .ok (mem0Drafts P (parseMaybeJson P input))
  | importLettaAgentFile => .ok (lettaDrafts P (parseMaybeJson P input))
  | importLangGraphStore => .ok (langGraphDrafts P (parseMaybeJson P input))
  | importZepGraphitiExport => .ok (zepDrafts P (parseMaybeJson P input))

/-! ## Copies of a content -/

mutual
/-- The strings in a value, at any depth. -/
def stringsIn : Json → List JsString
  | .str s => [s]
  | .arr xs => stringsInItems xs
  | .obj fs => stringsInFields fs
  | _ => []

def stringsInItems : List Json → List JsString
  | [] => []
  | x :: xs => stringsIn x ++ stringsInItems xs

def stringsInFields : List (JsString × Json) → List JsString
  | [] => []
  | (_, value) :: fs => stringsIn value ++ stringsInFields fs
end

/-- A text that is longer than one word. -/
def Worded (s : JsString) : Prop := ∃ c ∈ s, isWhite c = true

/-- The content is read from a field of the item. -/
def FromField (d : Draft) : Prop := ∃ item, d.item = some item ∧ isRecord item = true

/-- A candidate of a report that is made from a draft. -/
def MadeFrom (d : Draft) (candidate : Json) : Prop :=
  ∃ base limitations made, makeCandidate P base d = some made ∧ candidate = limited P limitations made

/-- No string in the metadata or the source references of a candidate is its content. -/
def Committed (drafts : List Draft) (report : Json) : Prop :=
  ∀ d ∈ drafts, FromField d → ∀ candidate ∈ asArray (report.get (js "memory_candidates")), MadeFrom P d candidate →
    ∀ content, candidate.get (js "content") = some (.str content) → Worded content →
      content ∉ stringsIn ((candidate.get (js "metadata")).getD .null) ∧
        content ∉ stringsIn ((candidate.get (js "source_refs")).getD .null)

/-- A field that is copied into metadata. -/
def Copied (key : JsString) : Prop := normalizedPublicKey key ∉ PLAINTEXT_METADATA_KEYS ∧ key ≠ js "__proto__"

/-- What a field is assigned to in metadata. -/
def assignedKey (f : JsString × Json) : Option JsString :=
  match f.2 with
  | .arr _ | .obj _ => none
  | .null => if isPlaintextKeyOf PLAINTEXT_METADATA_KEYS f.1 || f.1 == js "__proto__" then none else some f.1
  | _ =>
    if isPlaintextKeyOf PLAINTEXT_METADATA_KEYS f.1 then some (metadataCommitmentKey f.1)
    else if f.1 = js "__proto__" then none
    else some f.1

/-- The content of an item is in no copied field of its metadata, unless a later field takes its place, and is neither its path nor
the text of its id. -/
structure Uncopied (d : Draft) : Prop where
  metadata : ∀ before key after, (d.metadata.map Json.fields).getD [] = before ++ (key, .str (trim d.content)) :: after → Copied key →
    ∃ f ∈ after, assignedKey f = some key
  path : d.path ≠ trim d.content
  id : ∀ id, d.id = some id → id.toText P.toNumberFormat ≠ trim d.content

variable {P}

/-! ## Words -/

theorem not_worded_of_all {s : JsString} (h : s.all (fun c => !isWhite c) = true) : ¬ Worded s := by
  rintro ⟨c, hc, hwhite⟩
  have hnot := List.all_eq_true.1 h c hc
  rw [hwhite] at hnot
  cases hnot

theorem isWhite_of_hex {c : CodeUnit} (h : isHexDigit c = true) : isWhite c = false := by
  simp only [isHexDigit, decide_eq_true_eq] at h
  simp only [isWhite, whiteRanges, List.any_cons, List.any_nil, Bool.or_false, Bool.or_eq_false_iff, Bool.and_eq_false_iff,
    decide_eq_false_iff_not]
  have hc : c.val = c.val := rfl
  simp only [Fin.le_def] at h
  omega

/-- A commitment is one word. -/
theorem not_worded_digest (text : JsString) : ¬ Worded (prefixedSha256 text) := by
  rintro ⟨c, hc, hwhite⟩
  rw [prefixedSha256, List.mem_append] at hc
  rcases hc with hc | hc
  · have hplain : sha256Prefix.all (fun c => !isWhite c) = true := by decide
    exact not_worded_of_all hplain ⟨c, hc, hwhite⟩
  · have hhash := isHash_sha256Hex text
    rw [isHash, Bool.and_eq_true, List.all_eq_true] at hhash
    rw [isWhite_of_hex (hhash.2 c hc)] at hwhite
    cases hwhite

/-! ## The metadata of a candidate -/

/-- The value that a field is assigned. -/
def assignedValue (P : Platform) (f : JsString × Json) : Json :=
  if isPlaintextKeyOf PLAINTEXT_METADATA_KEYS f.1 then .str (rootOf P (.str (f.2.toText P.toNumberFormat))) else f.2

theorem assign_eq (metadata : Json) (f : JsString × Json) : assignMetadataValue P metadata f.1 f.2 =
    match assignedKey f with
    | some key => metadata.set key (assignedValue P f)
    | none => metadata := by
  obtain ⟨key, item⟩ := f
  by_cases hproto : key = js "__proto__"
  · subst hproto
    have hplain : isPlaintextKeyOf PLAINTEXT_METADATA_KEYS (js "__proto__") = false := by decide
    cases item <;> simp [assignMetadataValue, assignedKey, hplain]
  · cases hkey : isPlaintextKeyOf PLAINTEXT_METADATA_KEYS key <;>
      cases item <;> simp [assignMetadataValue, assignedKey, assignedValue, hkey, hproto]

/-- The fields, assigned from the left. -/
def assigned (P : Platform) (fs : List (JsString × Json)) : Json :=
  fs.foldl (fun metadata f => assignMetadataValue P metadata f.1 f.2) (.obj [])

theorem assigned_append (fs : List (JsString × Json)) (f : JsString × Json) :
    assigned P (fs ++ [f]) = assignMetadataValue P (assigned P fs) f.1 f.2 := by
  rw [assigned, List.foldl_append]
  rfl

theorem nodup_assigned (fs : List (JsString × Json)) : (assigned P fs).keys.Nodup := by
  induction fs using List.reverseRecOn with
  | nil => exact List.nodup_nil
  | append_singleton fs f ih =>
    rw [assigned_append, assign_eq]
    split
    · exact nodup_set ih
    · exact ih

/-- **A key has the value of the last field that is assigned to it.** -/
theorem get_assigned {key : JsString} {value : Json} (fs : List (JsString × Json)) : (assigned P fs).get key = some value ↔
    ∃ before f after, fs = before ++ f :: after ∧ assignedKey f = some key ∧ assignedValue P f = value ∧
      ∀ g ∈ after, assignedKey g ≠ some key := by
  induction fs using List.reverseRecOn with
  | nil => exact iff_of_false (by simp [assigned]) (by rintro ⟨before, f, after, h, -⟩; cases before <;> cases h)
  | append_singleton fs f ih =>
    rw [assigned_append, assign_eq]
    by_cases hkey : assignedKey f = some key
    · rw [hkey]
      simp only [get_set, if_true, Option.some.injEq]
      constructor
      · intro hvalue
        exact ⟨fs, f, [], rfl, hkey, hvalue, by simp⟩
      · rintro ⟨before, g, after, hsplit, -, hvalue, hlast⟩
        rcases List.eq_nil_or_concat after with rfl | ⟨after, x, rfl⟩
        · rwa [(List.append_inj' hsplit rfl).2 |> List.singleton_inj.1]
        · rw [List.concat_eq_append, ← List.cons_append, ← List.append_assoc] at hsplit
          obtain rfl := List.singleton_inj.1 (List.append_inj' hsplit rfl).2
          exact absurd hkey (hlast _ (by simp))
    · have hget : (match assignedKey f with
          | some k => (assigned P fs).set k (assignedValue P f)
          | none => assigned P fs).get key = (assigned P fs).get key := by
        cases hf : assignedKey f with
        | none => rfl
        | some k =>
          have hne : ¬key = k := fun h => hkey (h ▸ hf)
          rw [get_set, if_neg hne]
      rw [hget, ih]
      constructor
      · rintro ⟨before, g, after, rfl, hg, hvalue, hlast⟩
        refine ⟨before, g, after ++ [f], by simp, hg, hvalue, fun x hx => ?_⟩
        rcases List.mem_append.1 hx with hx | hx
        · exact hlast x hx
        · rwa [List.mem_singleton.1 hx]
      · rintro ⟨before, g, after, hsplit, hg, hvalue, hlast⟩
        rcases List.eq_nil_or_concat after with rfl | ⟨after, x, rfl⟩
        · rw [← List.singleton_inj.1 (List.append_inj' hsplit rfl).2] at hg
          exact absurd hg hkey
        · rw [List.concat_eq_append, ← List.cons_append, ← List.append_assoc] at hsplit
          refine ⟨before, g, after, (List.append_inj' hsplit rfl).1, hg, hvalue, fun y hy => hlast y ?_⟩
          simp [hy]

theorem mem_stringsInFields {fs : List (JsString × Json)} {s : JsString} : s ∈ stringsInFields fs ↔ ∃ f ∈ fs, s ∈ stringsIn f.2 := by
  induction fs with
  | nil => simp [stringsInFields]
  | cons f fs ih => simp [stringsInFields, ih]

/-- What is assigned has no strings in it but itself. -/
theorem mem_stringsIn_assignedValue {f : JsString × Json} {key s : JsString} (h : assignedKey f = some key) :
    s ∈ stringsIn (assignedValue P f) ↔ assignedValue P f = .str s := by
  obtain ⟨name, item⟩ := f
  have hstring : ∀ t : JsString, s ∈ stringsIn (.str t) ↔ Json.str t = .str s := fun t => by
    rw [stringsIn, List.mem_singleton, Json.str.injEq]
    exact eq_comm
  cases hname : isPlaintextKeyOf PLAINTEXT_METADATA_KEYS name
  · have hvalue : assignedValue P (name, item) = item := by simp [assignedValue, hname]
    rw [hvalue]
    cases item with
    | str t => exact hstring t
    | arr _ => cases h
    | obj _ => cases h
    | _ => simp [stringsIn]
  · rw [assignedValue, if_pos hname]
    exact hstring _

theorem mem_stringsIn_assigned {fs : List (JsString × Json)} {s : JsString} :
    s ∈ stringsIn (assigned P fs) ↔ ∃ key, (assigned P fs).get key = some (.str s) := by
  have hobject : ∃ gs, assigned P fs = .obj gs := by
    induction fs using List.reverseRecOn with
    | nil => exact ⟨[], rfl⟩
    | append_singleton fs f ih =>
      rw [assigned_append, assign_eq]
      split
      · exact ⟨_, rfl⟩
      · exact ih
  obtain ⟨gs, hgs⟩ := hobject
  have hnodup : (gs.map Prod.fst).Nodup := by
    have h := nodup_assigned (P := P) fs
    rwa [hgs, keys_eq] at h
  rw [hgs, stringsIn, mem_stringsInFields]
  constructor
  · rintro ⟨g, hg, hs⟩
    have hget := get_of_mem hnodup hg
    obtain ⟨before, f, after, -, hkey, hvalue, -⟩ := (get_assigned fs).1 (hgs ▸ hget)
    rw [← hvalue, mem_stringsIn_assignedValue hkey, hvalue] at hs
    exact ⟨g.1, by rw [hget, hs]⟩
  · rintro ⟨key, hget⟩
    exact ⟨_, mem_of_get hget, by simp [stringsIn]⟩

/-- A content is assigned only where a field with it is copied. -/
theorem assigned_content_iff {f : JsString × Json} {key s : JsString} (hs : Worded s) :
    assignedKey f = some key ∧ assignedValue P f = .str s ↔ f = (key, .str s) ∧ Copied key := by
  obtain ⟨name, item⟩ := f
  constructor
  · rintro ⟨hkey, hvalue⟩
    cases hname : isPlaintextKeyOf PLAINTEXT_METADATA_KEYS name
    · obtain rfl : item = .str s := by simpa [assignedValue, hname] using hvalue
      have hproto : name ≠ js "__proto__" := by
        rintro rfl
        simp [assignedKey, hname] at hkey
      obtain rfl : name = key := by simpa [assignedKey, hname, hproto] using hkey
      exact ⟨rfl, by simpa [isPlaintextKeyOf] using hname, hproto⟩
    · simp only [assignedValue, hname, if_true, Json.str.injEq] at hvalue
      exact absurd (hvalue ▸ hs) (not_worded_digest _)
  · rintro ⟨h, hname, hproto⟩
    obtain ⟨rfl, rfl⟩ := Prod.mk.inj h
    have hplain : isPlaintextKeyOf PLAINTEXT_METADATA_KEYS name = false := by simpa [isPlaintextKeyOf] using hname
    simp [assignedKey, assignedValue, hplain, hproto]

/-- **Where the metadata of a candidate has its content.** -/
theorem mem_stringsIn_metadata {metadata : Option Json} {importer s : JsString} (hs : Worded s) (himporter : ¬ Worded importer) :
    s ∈ stringsIn (normalizeMetadata P metadata [(js "importer", .str importer)]) ↔
      ∃ before key after, (metadata.map Json.fields).getD [] = before ++ (key, .str s) :: after ∧ Copied key ∧
        ∀ g ∈ after, assignedKey g ≠ some key := by
  have hassigned : normalizeMetadata P metadata [(js "importer", .str importer)] =
      assigned P ((js "importer", .str importer) :: (metadata.map Json.fields).getD []) := rfl
  rw [hassigned, mem_stringsIn_assigned]
  simp only [get_assigned]
  constructor
  · rintro ⟨key, before, f, after, hsplit, hkey, hvalue, hlast⟩
    obtain ⟨rfl, hcopied⟩ := (assigned_content_iff hs).1 ⟨hkey, hvalue⟩
    cases before with
    | nil =>
      obtain rfl := Json.str.inj (Prod.mk.inj (List.cons.inj hsplit).1).2
      exact absurd hs himporter
    | cons g before => exact ⟨before, key, after, (List.cons.inj hsplit).2, hcopied, hlast⟩
  · rintro ⟨before, key, after, hsplit, hcopied, hlast⟩
    obtain ⟨hkey, hvalue⟩ := (assigned_content_iff (P := P) hs).2 ⟨rfl, hcopied⟩
    exact ⟨key, (js "importer", .str importer) :: before, _, after, by rw [hsplit, List.cons_append], hkey, hvalue, hlast⟩

/-! ## The reference of a candidate -/

/-- **Where the reference of a candidate has its content.** -/
theorem mem_stringsIn_refs {d : Draft} {s : JsString} (hs : Worded s) (htype : ¬ Worded d.sourceType) :
    s ∈ stringsIn (.arr [sourceRef P d]) ↔ d.path = s ∨ ∃ id, d.id = some id ∧ id.toText P.toNumberFormat = s := by
  have htype' : s ≠ d.sourceType := fun h => htype (h ▸ hs)
  have hhash : ∀ text, s ≠ prefixedSha256 text := fun text h => not_worded_digest text (h ▸ hs)
  have hnull : ¬ Worded (js "null") := not_worded_of_all (by decide)
  have hempty : ¬ Worded [] := not_worded_of_all rfl
  have hid : s ∈ stringsInFields (field (js "source_id") ((((orElse d.id none).map (Json.toText P.toNumberFormat)).filter (· ≠ [])).map
      .str)) ↔ ∃ id, d.id = some id ∧ id.toText P.toNumberFormat = s := by
    cases hd : d.id with
    | none => simp [orElse, field, stringsInFields]
    | some id =>
      by_cases hnone : id = .null
      · subst hnone
        have hne : ¬ js "null" = s := fun h => hnull (h ▸ hs)
        simp [orElse, field, stringsInFields, Json.toText, hne]
      · have hsome : orElse (some id) none = some id := by cases id <;> simp_all [orElse]
        by_cases hlength : id.toText P.toNumberFormat = []
        · have hne : ¬ [] = s := fun h => hempty (h ▸ hs)
          simp [hsome, field, stringsInFields, hlength, hne, Option.filter]
        · simp [hsome, field, stringsInFields, stringsIn, hlength, Option.filter, eq_comm]
  simp only [sourceRef, stringsIn, stringsInItems, List.append_nil, List.cons_append, List.nil_append, stringsInFields, rootOf]
  rw [List.mem_cons, List.mem_cons, List.mem_cons, hid]
  simp only [htype', hhash, false_or]
  rw [eq_comm (a := s)]

/-! ## What a candidate reads -/

theorem reads_of_made {d : Draft} {candidate : Json} (h : MadeFrom P d candidate) :
    candidate.get (js "content") = some (.str (trim d.content)) ∧
      candidate.get (js "metadata") = some (normalizeMetadata P d.metadata [(js "importer", .str d.importer)]) ∧
      candidate.get (js "source_refs") = some (.arr [sourceRef P d]) := by
  obtain ⟨base, limitations, made, hmade, rfl⟩ := h
  simp only [makeCandidate] at hmade
  split at hmade
  · cases hmade
  · cases hmade
    refine ⟨?_, ?_, ?_⟩ <;> simp [limited]

/-- The candidates of a report are made of some drafts. -/
def Reports (P : Platform) (drafts : List Draft) (report : Json) : Prop :=
  ∃ base limitations, asArray (report.get (js "memory_candidates")) =
    (drafts.filterMap (makeCandidate P base)).map (limited P limitations)

theorem reports_of_reportFrom {importer sourceType : JsString} {input report : Json} {loose : Bool} {drafts : List Draft}
    {base : List JsString} {options : ImportOptions}
    (h : reportFrom P importer sourceType input loose (drafts.filterMap (makeCandidate P base)) base options = .ok report) :
    Reports P drafts report := by
  simp only [reportFrom, Except.bind_eq_ok, Except.pure_eq_ok] at h
  obtain ⟨vaultWrites, -, generatedAt, -, rfl⟩ := h
  exact ⟨base, uniqueStrings P ((base ++ completenessLimitations input).map .str), by simp [asArray]⟩

theorem drafts_of_run {i : Importer} {input report : Json} {options : ImportOptions} (h : i.run P input options = .ok report) :
    ∃ drafts, i.drafts P input options = .ok drafts ∧ Reports P drafts report := by
  cases i with
  | importChatGptExport =>
    simp only [Importer.run, importChatGptExport, Except.bind_eq_ok] at h
    obtain ⟨drafts, hdrafts, hreport⟩ := h
    exact ⟨drafts, hdrafts, reports_of_reportFrom hreport⟩
  | _ => exact ⟨_, rfl, reports_of_reportFrom h⟩

/-! ## Names of importers -/

/-- The importer and the type of the source are named by one word each. -/
def Named (d : Draft) : Prop := ¬ Worded d.importer ∧ ¬ Worded d.sourceType

theorem named_map {α : Type} {importer sourceType : String} {f : α → Draft} (l : List α)
    (hf : ∀ a, (f a).importer = js importer ∧ (f a).sourceType = js sourceType)
    (himporter : (js importer).all (fun c => !isWhite c) = true) (htype : (js sourceType).all (fun c => !isWhite c) = true) :
    ∀ d ∈ l.map f, Named d := by
  intro d hd
  obtain ⟨a, -, rfl⟩ := List.mem_map.1 hd
  rw [Named, (hf a).1, (hf a).2]
  exact ⟨not_worded_of_all himporter, not_worded_of_all htype⟩

theorem named_textDrafts {importer sourceType : String} {parsed : Json}
    (himporter : (js importer).all (fun c => !isWhite c) = true) (htype : (js sourceType).all (fun c => !isWhite c) = true) :
    ∀ d ∈ textDrafts P importer sourceType parsed, Named d := by
  cases parsed with
  | str s => exact named_map _ (fun _ => ⟨rfl, rfl⟩) himporter htype
  | _ => exact fun d hd => by cases hd

theorem named_chatGptDrafts {parsed : Json} {drafts : List Draft} (h : chatGptDrafts P parsed = .ok drafts) : ∀ d ∈ drafts, Named d := by
  simp only [chatGptDrafts, Except.bind_eq_ok, Except.pure_eq_ok] at h
  obtain ⟨conversations, hconversations, rfl⟩ := h
  intro d hd
  rcases List.mem_append.1 hd with hd | hd
  · rcases List.mem_append.1 hd with hd | hd
    · exact named_map _ (fun _ => ⟨rfl, rfl⟩) (by decide) (by decide) d hd
    · obtain ⟨messages, hmessages, hmem⟩ := List.mem_flatten.1 hd
      obtain ⟨x, -, hx⟩ := Except.exists_of_mem_mapM hconversations hmessages
      simp only [conversationDrafts, Except.bind_eq_ok, Except.pure_eq_ok] at hx
      obtain ⟨_, -, rfl⟩ := hx
      exact named_map _ (fun _ => ⟨rfl, rfl⟩) (by decide) (by decide) d hmem
  · exact named_textDrafts (by decide) (by decide) d hd

theorem named_drafts {i : Importer} {input : Json} {options : ImportOptions} {drafts : List Draft}
    (h : i.drafts P input options = .ok drafts) : ∀ d ∈ drafts, Named d := by
  cases i with
  | importChatGptExport => exact named_chatGptDrafts h
  | importTextMemoryList =>
    cases h
    rw [textMemoryDrafts]
    split <;> exact named_map _ (fun _ => ⟨rfl, rfl⟩) (by decide) (by decide)
  | importClaudeMemory =>
    cases h
    intro d hd
    rcases List.mem_append.1 hd with hd | hd
    · exact named_map _ (fun _ => ⟨rfl, rfl⟩) (by decide) (by decide) d hd
    · exact named_textDrafts (by decide) (by decide) d hd
  | importMem0Export | importLangGraphStore =>
    cases h
    exact named_map _ (fun _ => ⟨rfl, rfl⟩) (by decide) (by decide)
  | importLettaAgentFile | importZepGraphitiExport =>
    cases h
    intro d hd
    rcases List.mem_append.1 hd with hd | hd <;> exact named_map _ (fun _ => ⟨rfl, rfl⟩) (by decide) (by decide) d hd

/-! ## Contents that are copied -/

theorem uncopied_iff {d : Draft} (hnamed : Named d) (hs : Worded (trim d.content)) : Uncopied P d ↔
    trim d.content ∉ stringsIn (normalizeMetadata P d.metadata [(js "importer", .str d.importer)]) ∧
      trim d.content ∉ stringsIn (.arr [sourceRef P d]) := by
  rw [mem_stringsIn_metadata hs hnamed.1, mem_stringsIn_refs hs hnamed.2]
  constructor
  · rintro ⟨hmetadata, hpath, hid⟩
    refine ⟨?_, ?_⟩
    · rintro ⟨before, key, after, hsplit, hcopied, hlast⟩
      obtain ⟨f, hf, hkey⟩ := hmetadata before key after hsplit hcopied
      exact hlast f hf hkey
    · rintro (h | ⟨id, hd, h⟩)
      · exact hpath h
      · exact hid id hd h
  · rintro ⟨hmetadata, hrefs⟩
    refine ⟨fun before key after hsplit hcopied => ?_, fun h => hrefs (.inl h), fun id hd h => hrefs (.inr ⟨id, hd, h⟩)⟩
    by_contra hlast
    exact hmetadata ⟨before, key, after, hsplit, hcopied, fun g hg hkey => hlast ⟨g, hg, hkey⟩⟩

theorem committed_iff {drafts : List Draft} {report : Json} (hreports : Reports P drafts report) (hnamed : ∀ d ∈ drafts, Named d) :
    Committed P drafts report ↔ ∀ d ∈ drafts, FromField d → Worded (trim d.content) → Uncopied P d := by
  obtain ⟨base, limitations, hcandidates⟩ := hreports
  constructor
  · intro h d hd hfield hworded
    have hne : trim d.content ≠ [] := by
      rintro hnil
      obtain ⟨c, hc, -⟩ := hnil ▸ hworded
      cases hc
    have hmade : ∃ made, makeCandidate P base d = some made := by
      simp only [makeCandidate, if_neg hne]
      exact ⟨_, rfl⟩
    obtain ⟨made, hmade⟩ := hmade
    have hfrom : MadeFrom P d (limited P limitations made) := ⟨base, limitations, made, hmade, rfl⟩
    have hmem : limited P limitations made ∈ asArray (report.get (js "memory_candidates")) := by
      rw [hcandidates]
      exact List.mem_map_of_mem (List.mem_filterMap.2 ⟨d, hd, hmade⟩)
    obtain ⟨hcontent, hmetadata, hrefs⟩ := reads_of_made hfrom
    have hno := h d hd hfield _ hmem hfrom _ hcontent hworded
    rw [hmetadata, hrefs] at hno
    exact (uncopied_iff (hnamed d hd) hworded).2 hno
  · intro h d hd hfield candidate _ hfrom content hcontent hworded
    obtain ⟨hread, hmetadata, hrefs⟩ := reads_of_made hfrom
    obtain rfl := Json.str.inj (Option.some.inj (hread.symm.trans hcontent))
    rw [hmetadata, hrefs]
    exact (uncopied_iff (hnamed d hd) hworded).1 (h d hd hfield hworded)

/-- **The candidates of an import do not repeat their contents exactly when no item has its content in a field that is copied too**:
under a name that the importer reads contents from and does not commit, or by chance. -/
theorem plaintext_committed_iff (P : Platform) (i : Importer) (input : Json) (options : ImportOptions) (report : Json)
    (hrun : i.run P input options = .ok report) : ∃ drafts, i.drafts P input options = .ok drafts ∧
      (Committed P drafts report ↔ ∀ d ∈ drafts, FromField d → Worded (trim d.content) → Uncopied P d) := by
  obtain ⟨drafts, hdrafts, hreports⟩ := drafts_of_run hrun
  exact ⟨drafts, hdrafts, committed_iff hreports (named_drafts hdrafts)⟩

/-- A list with one memory, whose content is under one name. -/
def oneMemory (name : JsString) : Json := .obj [(js "memories", .arr [.obj [(name, .str (js "two words"))]])]

theorem oneMemory_run (name : JsString) : ∃ report, Importer.importTextMemoryList.run reference (oneMemory name) {} = .ok report :=
  ⟨_, rfl⟩

theorem plaintext_committed_memory : ∃ report,
    Importer.importTextMemoryList.run reference (oneMemory (js "memory")) {} = .ok report ∧
    ∃ drafts, Importer.importTextMemoryList.drafts reference (oneMemory (js "memory")) {} = .ok drafts ∧
      (Committed reference drafts report ↔ ∀ d ∈ drafts, FromField d → Worded (trim d.content) → Uncopied reference d) := by
  obtain ⟨report, hreport⟩ := oneMemory_run (js "memory")
  exact ⟨report, hreport, plaintext_committed_iff reference .importTextMemoryList (oneMemory (js "memory")) {} report hreport⟩

/-- A note is read as content and copied. -/
theorem note_copied : ∃ report drafts, Importer.importTextMemoryList.run reference (oneMemory (js "note")) {} = .ok report ∧
    Importer.importTextMemoryList.drafts reference (oneMemory (js "note")) {} = .ok drafts ∧ ¬ Committed reference drafts report := by
  obtain ⟨report, hreport⟩ := oneMemory_run (js "note")
  obtain ⟨drafts, hdrafts, hreports⟩ := drafts_of_run hreport
  refine ⟨report, drafts, hreport, hdrafts, fun hcommitted => ?_⟩
  have hone : textMemoryDrafts reference (oneMemory (js "note")) {} = drafts := Except.ok.inj hdrafts
  have hmem : ∃ d ∈ drafts, d.item = some (.obj [(js "note", .str (js "two words"))]) ∧ trim d.content = js "two words" ∧
      d.metadata = some (.obj [(js "note", .str (js "two words")), (js "curated_text", .bool true)]) := by
    rw [← hone]
    exact ⟨_, List.mem_singleton.2 rfl, rfl, by decide +kernel, rfl⟩
  obtain ⟨d, hd, hitem, hcontent, hmetadata⟩ := hmem
  have hworded : Worded (trim d.content) := by
    rw [hcontent]
    exact ⟨32, by decide, by decide⟩
  have huncopied := (committed_iff hreports (named_drafts hdrafts)).1 hcommitted d hd ⟨_, hitem, rfl⟩ hworded
  obtain ⟨f, hf, hkey⟩ := huncopied.metadata [] (js "note") [(js "curated_text", .bool true)] (by rw [hmetadata, hcontent]; rfl)
    ⟨by decide, by decide⟩
  obtain rfl := List.mem_singleton.1 hf
  revert hkey
  decide

end EnigmaMemory.Importers
