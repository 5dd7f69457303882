import EnigmaMemory.Lib.RegexMatch
import EnigmaMemory.Proof.AutoSave
import EnigmaMemory.Proof.FactTexts

/-!
# What the default policy lets through

* `keyword_iff`: the test for a keyword finds it as a word of the lower-case text.
* `written_iff`: what a turn writes, in terms of its facts.
* `sensitive_saves_iff`: a sensitive text is written without a consent that covers it exactly when the only
  consent is the medical one and a fact that is worth saving has a keyword of another list.
-/

namespace EnigmaMemory.AutoSave

/-! ## Keywords -/

def isUpperCode (x : ℕ) : Prop := 65 ≤ x ∧ x ≤ 90

instance (x : ℕ) : Decidable (isUpperCode x) := inferInstanceAs (Decidable (_ ∧ _))

/-- In lower case there is no capital letter, and nothing is left to do. -/
theorem mem_lowerUnit {c d : CodeUnit} (h : d ∈ lowerUnit c) : ¬ isUpperCode d.val ∧ lowerUnit d = [d] := by
  have hkeep : ∀ d : CodeUnit, ¬ isUpperCode d.val → d ≠ 0x212A → d ≠ 0x130 → lowerUnit d = [d] := by
    intro d hd hkelvin hdotted
    rw [lowerUnit, if_neg, if_neg hkelvin, if_neg hdotted]
    exact hd
  unfold lowerUnit at h
  split at h
  · rename_i hupper
    obtain rfl := List.mem_singleton.1 h
    have hval : (c + 32).val = c.val + 32 := by
      have hle : c.val ≤ 90 := hupper.2
      rw [Fin.val_add]
      exact Nat.mod_eq_of_lt (by change c.val + 32 < 65536; omega)
    have hlow : 65 ≤ c.val := hupper.1
    have hhigh : c.val ≤ 90 := hupper.2
    have hnot : ¬ isUpperCode (c + 32).val := by
      rw [hval]
      exact fun h => absurd h.2 (by omega)
    refine ⟨hnot, hkeep _ hnot (fun he => ?_) fun he => ?_⟩
    · have := congrArg Fin.val he
      rw [hval] at this
      change c.val + 32 = 8490 at this
      omega
    · have := congrArg Fin.val he
      rw [hval] at this
      change c.val + 32 = 304 at this
      omega
  · rename_i hupper
    split at h
    · obtain rfl := List.mem_singleton.1 h
      exact ⟨by decide, rfl⟩
    · rename_i hkelvin
      split at h
      · rcases List.mem_pair.1 h with rfl | rfl
        · exact ⟨by decide, rfl⟩
        · exact ⟨by decide, rfl⟩
      · rename_i hdotted
        obtain rfl := List.mem_singleton.1 h
        exact ⟨hupper, hkeep _ hupper hkelvin hdotted⟩

theorem toLowerCase_toLowerCase (s : JsString) : toLowerCase (toLowerCase s) = toLowerCase s := by
  have hfix : ∀ t : JsString, (∀ d ∈ t, lowerUnit d = [d]) → toLowerCase t = t := by
    intro t
    induction t with
    | nil => exact fun _ => rfl
    | cons d t ih =>
      intro h
      have hrest := ih fun e he => h e (List.mem_cons_of_mem d he)
      rw [toLowerCase] at hrest ⊢
      rw [List.flatMap_cons, h d List.mem_cons_self, hrest]
      rfl
  refine hfix _ fun d hd => ?_
  obtain ⟨c, -, hc⟩ := List.mem_flatMap.1 hd
  exact (mem_lowerUnit hc).2

theorem toLowerCase_lower {s : JsString} {d : CodeUnit} (h : d ∈ toLowerCase s) : ¬ isUpperCode d.val := by
  obtain ⟨c, -, hc⟩ := List.mem_flatMap.1 h
  exact (mem_lowerUnit hc).1

def isWordUnit (c : Option CodeUnit) : Bool := Regex.isWord (c.map Fin.val)

/-- The word stands in the text between word boundaries, in whatever case. -/
def Occurs (word text : JsString) : Prop :=
  ∃ passed rest, toLowerCase text = passed ++ word ++ rest ∧ isWordUnit passed.getLast? ≠ isWordUnit (word ++ rest).head? ∧
    isWordUnit (passed ++ word).getLast? ≠ isWordUnit rest.head?

/-- A keyword in ASCII without capital letters. -/
def Lower (keyword : String) : Prop :=
  unitCodes (js keyword) = keyword.toList.map Char.toNat ∧ ∀ c ∈ keyword.toList, ¬ isUpperCode c.toNat

-- The characters of the keyword are tried, not all characters.
instance (keyword : String) : Decidable (Lower keyword) := @instDecidableAnd _ _ inferInstance (List.decidableBAll _ _)

/-- The class that `litI` makes of a character. -/
def caseClass (c : Char) : CharClass := ⟨Regex.foldCase [(c.toNat, c.toNat)] ++ [], false⟩

theorem caseClass_has {c : Char} {x : ℕ} (hc : ¬ isUpperCode c.toNat) (hx : ¬ isUpperCode x) :
    (caseClass c).has x = true ↔ x = c.toNat := by
  unfold isUpperCode at hc hx
  simp only [caseClass, CharClass.has, Regex.foldCase, List.flatMap_cons, List.flatMap_nil, List.append_nil, bne_iff_ne, ne_eq,
    Bool.not_eq_false]
  split <;> split <;> simp <;> omega

theorem litI_eq (keyword : String) : litI keyword = Regex.cat ((keyword.toList.map caseClass).map Regex.cls) := by
  rw [litI, Regex.litFold, List.map_map]
  rfl

/-- What the classes of a keyword match in a text without capital letters is the keyword. -/
theorem forall₂_caseClass (cs : List Char) : ∀ xs : List ℕ, (∀ c ∈ cs, ¬ isUpperCode c.toNat) → (∀ x ∈ xs, ¬ isUpperCode x) →
    (List.Forall₂ (fun c x => CharClass.has c x = true) (cs.map caseClass) xs ↔ xs = cs.map Char.toNat) := by
  induction cs with
  | nil =>
    intro xs _ _
    simp
  | cons c cs ih =>
    intro xs hcs hxs
    cases xs with
    | nil => simp
    | cons x xs =>
      rw [List.map_cons, List.map_cons, List.forall₂_cons, List.cons.injEq,
        caseClass_has (hcs c List.mem_cons_self) (hxs x List.mem_cons_self),
        ih xs (fun d hd => hcs d (List.mem_cons_of_mem c hd)) fun y hy => hxs y (List.mem_cons_of_mem x hy)]

theorem isWord_getLast? (s : JsString) : Regex.isWord (unitCodes s).getLast? = isWordUnit s.getLast? := by
  rw [unitCodes, List.getLast?_map]
  rfl

theorem isWord_head? (s : JsString) : Regex.isWord (unitCodes s).head? = isWordUnit s.head? := by
  rw [unitCodes, List.head?_map]
  rfl

/-- **A keyword is found where it stands as a word**, in whatever case. -/
theorem keyword_iff {keyword : String} (h : Lower keyword) (text : JsString) :
    regexTest (keywordRe keyword) (toLowerCase text) = true ↔ Occurs (js keyword) text := by
  have hlower : ∀ x ∈ unitCodes (toLowerCase text), ¬ isUpperCode x := by
    intro x hx
    obtain ⟨d, hd, rfl⟩ := List.mem_map.1 hx
    exact toLowerCase_lower hd
  rw [regexTest, keywordRe, litI_eq, Regex.test_word_iff]
  constructor
  · rintro ⟨passed, matched, rest, hs, hall, hfirst, hlast⟩
    obtain rfl := (forall₂_caseClass _ matched h.2 fun x hx => hlower x (by rw [hs]; simp [hx])).1 hall
    rw [← h.1] at hs hfirst hlast
    obtain ⟨front, rest', hsplit, hfront, rfl⟩ := List.map_eq_append_iff.1 hs
    obtain ⟨passed', word, rfl, rfl, hword⟩ := List.map_eq_append_iff.1 hfront
    obtain rfl : word = js keyword := List.map_injective_iff.2 Fin.val_injective hword
    refine ⟨passed', rest', hsplit, ?_, ?_⟩
    · rw [← isWord_getLast?, ← isWord_head?, unitCodes, unitCodes, List.map_append]
      exact hfirst
    · rw [← isWord_getLast?, ← isWord_head?, unitCodes, unitCodes, List.map_append]
      exact hlast
  · rintro ⟨passed, rest, hs, hfirst, hlast⟩
    refine ⟨unitCodes passed, unitCodes (js keyword), unitCodes rest, ?_, ?_, ?_, ?_⟩
    · rw [hs]
      simp only [unitCodes, List.map_append]
    · refine (forall₂_caseClass _ _ h.2 fun x hx => hlower x ?_).2 h.1
      rw [hs]
      simp only [unitCodes, List.map_append, List.mem_append]
      exact .inl (.inr hx)
    · rw [← isWord_getLast?, ← isWord_head?, unitCodes, unitCodes, List.map_append] at hfirst
      exact hfirst
    · rw [← isWord_getLast?, ← isWord_head?, unitCodes, unitCodes, List.map_append] at hlast
      exact hlast

/-! ## Categories -/

/-- The text has a keyword of the category. -/
def Contains (text : JsString) (category : Category) : Prop := ∃ keyword ∈ CATEGORY_KEYWORDS category, Occurs (js keyword) text

theorem lower_keywords : ∀ category ∈ CATEGORY_PRIORITY, ∀ keyword ∈ CATEGORY_KEYWORDS category, Lower keyword := by
  decide +kernel

theorem countMatches_pos {category : Category} (h : category ∈ CATEGORY_PRIORITY) (text : JsString) :
    0 < countMatches (toLowerCase text) (CATEGORY_KEYWORDS category) ↔ Contains text category := by
  rw [countMatches, toLowerCase_toLowerCase, List.length_pos_iff_exists_mem]
  simp only [List.mem_filter]
  constructor
  · rintro ⟨keyword, hkeyword, htest⟩
    exact ⟨keyword, hkeyword, (keyword_iff (lower_keywords category h keyword hkeyword) text).1 htest⟩
  · rintro ⟨keyword, hkeyword, hoccurs⟩
    exact ⟨keyword, hkeyword, (keyword_iff (lower_keywords category h keyword hkeyword) text).2 hoccurs⟩

theorem bestCategory_plain (lower : JsString) : (bestCategory lower).1 ∉ CATEGORY_PRIORITY := by
  have hfold : ∀ (categories : List Category) (best : Category × ℕ), (∀ c ∈ categories, c ∉ CATEGORY_PRIORITY) →
      best.1 ∉ CATEGORY_PRIORITY → (categories.foldl (fun best category =>
        let score := countMatches lower (CATEGORY_KEYWORDS category)
        if best.2 < score then (category, score) else best) best).1 ∉ CATEGORY_PRIORITY := by
    intro categories
    induction categories with
    | nil => exact fun best _ h => h
    | cons category categories ih =>
      intro best hall hbest
      refine ih _ (fun c hc => hall c (List.mem_cons_of_mem _ hc)) ?_
      simp only
      split
      · exact hall category List.mem_cons_self
      · exact hbest
  exact hfold _ _ (by decide) (by decide)

/-- **A text is put into a sensitive category exactly if it has a keyword of one.** -/
theorem classify_sensitive_iff (text : JsString) :
    classifyCategory text ∈ CATEGORY_PRIORITY ↔ ∃ category ∈ CATEGORY_PRIORITY, Contains text category := by
  simp only [classifyCategory]
  split
  · rename_i category hfind
    have hmem := List.mem_of_find?_eq_some hfind
    have hpos := List.find?_some hfind
    exact iff_of_true hmem ⟨category, hmem, (countMatches_pos hmem text).1 (of_decide_eq_true hpos)⟩
  · rename_i hfind
    refine iff_of_false (bestCategory_plain _) ?_
    rintro ⟨category, hmem, hcontains⟩
    exact List.find?_eq_none.1 hfind category hmem (decide_eq_true ((countMatches_pos hmem text).2 hcontains))

/-! ## Consent -/

def HasTag (tags : List Json) (tag : String) : Prop := Json.str (js tag) ∈ tags

/-- A general consent, or the one for the category. -/
def Consented (tags : List Json) (category : Category) : Prop :=
  HasTag tags "safe_to_save" ∨ HasTag tags "explicit_consent" ∨ category = .medical ∧ HasTag tags "medical_consent"

theorem hasConsentTag_iff (tags : List Json) : hasConsentTag tags DEFAULT_POLICY = true ↔
    HasTag tags "safe_to_save" ∨ HasTag tags "explicit_consent" ∨ HasTag tags "medical_consent" := by
  have htag : ∀ tag : JsString, (tags.any fun t => Json.isStr (some t) tag) = true ↔ Json.str tag ∈ tags := by
    intro tag
    simp
  simp only [hasConsentTag, DEFAULT_POLICY, List.any_cons, List.any_nil, Bool.or_eq_true, htag, Bool.false_eq_true, or_false]
  rfl

/-- In a sensitive category nothing but a consent lets a text through. -/
theorem applyCategoryPolicy_sensitive {category : Category} (h : category ∈ CATEGORY_PRIORITY) (tags : List Json) :
    (applyCategoryPolicy category tags DEFAULT_POLICY).1 = .auto ↔ hasConsentTag tags DEFAULT_POLICY = true := by
  have hactions : categoryAction category DEFAULT_POLICY = .block ∨ categoryAction category DEFAULT_POLICY = .quarantine := by
    revert category
    decide
  have hoverrideable : category ∈ DEFAULT_POLICY.overrideableByTag := by
    revert category
    decide
  simp only [applyCategoryPolicy]
  rcases hactions with haction | haction <;> rw [haction] <;> cases hasConsentTag tags DEFAULT_POLICY <;> simp [hoverrideable]

theorem runImmunology_eq_nil {F : NumberFormat} {text : JsString} (h : runImmunology F text DEFAULT_POLICY = []) :
    ∀ pattern ∈ PROMPT_INJECTION_PATTERNS ++ TOXICITY_PATTERNS, regexTest pattern (normalizeText text) = false := by
  simp only [runImmunology, List.append_eq_nil_iff] at h
  obtain ⟨⟨-, hinjection⟩, htoxicity⟩ := h
  have hpatterns : hasPromptInjection (normalizeText text) = false ∧ hasToxicity (normalizeText text) = false := by
    constructor
    · by_contra hne
      rw [Bool.not_eq_false] at hne
      simp [DEFAULT_POLICY, hne] at hinjection
    · by_contra hne
      rw [Bool.not_eq_false] at hne
      simp [DEFAULT_POLICY, hne] at htoxicity
  intro pattern hpattern
  rcases List.mem_append.1 hpattern with hpattern | hpattern
  · exact Bool.eq_false_iff.2 (List.any_eq_false.1 hpatterns.1 pattern hpattern)
  · exact Bool.eq_false_iff.2 (List.any_eq_false.1 hpatterns.2 pattern hpattern)

theorem evaluate_auto_iff {F : NumberFormat} {policy : Policy} {candidate : Candidate} :
    (evaluate F policy candidate).action = .auto ↔ runImmunology F candidate.text policy = [] ∧
      (applyCategoryPolicy (classifyCategory candidate.text) candidate.tags policy).1 = .auto ∧
      policy.salienceThreshold ≤ scoreSalience candidate.text := by
  simp only [evaluate]
  split
  · rename_i h
    simp [h]
  · rename_i himmune
    split
    · rename_i h
      simp [h]
    · rename_i hcategory
      split
      · rename_i h
        simp [h]
      · rename_i h
        simp_all

/-! ## What is written -/

variable {V : Type} (E : Engine V)

/-- The record that is put for the candidate at a place, if one is. -/
def recordFor (env : Ambient) (entry : Candidate × ℕ) : JsString × Json :=
  (makeMemoryKey entry.1, memoryOf (evaluate E.format E.policy entry.1).candidate E.policy (env.clock entry.2))

/-- The candidate is good enough, and storage does not fail. -/
def Stored (entry : Candidate × ℕ) : Prop := (evaluate E.format E.policy entry.1).action = .auto ∧ E.fault entry.2 = none

theorem processCandidate_written (env : Ambient) (p : Progress V) (entry : Candidate × ℕ) (record : JsString × Json) :
    record ∈ (processCandidate E env p entry).written ↔ record ∈ p.written ∨ Stored E entry ∧ record = recordFor E env entry := by
  obtain ⟨candidate, place⟩ := entry
  unfold processCandidate Stored
  simp only
  split
  · rename_i haction
    split
    · rename_i hput
      simp [haction, ((putMemory_ok E).1 hput).1, recordFor]
    · rename_i hput
      have hfault : E.fault place ≠ none := by
        intro hnone
        rw [(putMemory_ok E).2 ⟨hnone, rfl⟩] at hput
        cases hput
      simp [hfault]
  · rename_i haction
    simp [haction]
  · rename_i haction
    simp [haction]

theorem run_written (env : Ambient) (entries : List (Candidate × ℕ)) (record : JsString × Json) : ∀ p : Progress V,
    record ∈ (entries.foldl (processCandidate E env) p).written ↔
      record ∈ p.written ∨ ∃ entry ∈ entries, Stored E entry ∧ record = recordFor E env entry := by
  induction entries with
  | nil => simp
  | cons entry rest ih =>
    intro p
    rw [List.foldl_cons, ih, processCandidate_written]
    simp only [List.mem_cons, exists_eq_or_imp, or_assoc]

/-- **What a turn writes**, in terms of its facts. -/
theorem written_iff {env : Ambient} {store : EncryptedStore V} {turn : Json} {owner : JsString} {p : Progress V}
    (howner : ownerOf turn = .ok owner) (h : processTurn E env store turn = .ok p) (record : JsString × Json) :
    record ∈ p.written ↔ ∃ place fact, (factsOf E turn)[place]? = some fact ∧ Stored E (candidateOf turn owner fact, place) ∧
      record = recordFor E env (candidateOf turn owner fact, place) := by
  obtain ⟨owner', howner', h⟩ := Except.bind_eq_ok.1 h
  obtain rfl := Except.ok.inj (howner.symm.trans howner')
  obtain rfl := Except.pure_eq_ok.1 h
  rw [run_written]
  constructor
  · rintro (h | ⟨⟨candidate, place⟩, hmem, hstored, hrecord⟩)
    · exact absurd h List.not_mem_nil
    · have hget := List.mk_mem_zipIdx_iff_getElem?.1 hmem
      rw [List.getElem?_map, Option.map_eq_some_iff] at hget
      obtain ⟨fact, hfact, rfl⟩ := hget
      exact ⟨place, fact, hfact, hstored, hrecord⟩
  · rintro ⟨place, fact, hfact, hstored, hrecord⟩
    refine .inr ⟨_, List.mk_mem_zipIdx_iff_getElem?.2 ?_, hstored, hrecord⟩
    rw [List.getElem?_map, hfact]
    rfl

/-! ## The default policy -/

/-- An engine with the default policy. -/
def defaultEngine (F : NumberFormat) (embedder : Option (JsString → Except JsError V)) (fault : ℕ → Option JsError) : Engine V :=
  ⟨F, DEFAULT_POLICY, embedder, fault⟩

/-- What may be written of a turn with these tags. -/
def Permitted (tags : List Json) (text : JsString) : Prop :=
  (∀ pattern ∈ PROMPT_INJECTION_PATTERNS ++ TOXICITY_PATTERNS, regexTest pattern text = false) ∧
    ∀ category ∈ CATEGORY_PRIORITY, Contains text category → Consented tags category

/-- **Where the medical consent covers too much**: it is the only one, and a fact that is looked at, passes the scan, is
salient enough and finds storage working has a keyword of another sensitive category. -/
def Overridden (E : Engine V) (turn : Json) : Prop :=
  (∃ owner, ownerOf turn = .ok owner) ∧ HasTag (tagsOf turn) "medical_consent" ∧ ¬ HasTag (tagsOf turn) "safe_to_save" ∧
    ¬ HasTag (tagsOf turn) "explicit_consent" ∧
    ∃ place fact category, (factsOf E turn)[place]? = some fact ∧ E.fault place = none ∧
      runImmunology E.format fact E.policy = [] ∧ E.policy.salienceThreshold ≤ scoreSalience fact ∧
      category ∈ CATEGORY_PRIORITY ∧ category ≠ .medical ∧ Contains fact category

theorem mem_extractFacts {place : ℕ} {fact : JsString} {turn : Json} (h : (factsOf E turn)[place]? = some fact) :
    fact ∈ extractFacts E.format (turn.get (js "text")) := by
  have hmem := List.mem_of_getElem? h
  unfold factsOf sliceTo at hmem
  split at hmem <;> exact List.mem_of_mem_take hmem

section

variable (F : NumberFormat) (embedder : Option (JsString → Except JsError V)) (fault : ℕ → Option JsError)

/-- A fact is written under the default policy if it passes the scan and is salient, and its category is harmless or
there is a consent. -/
theorem stored_iff (turn : Json) (owner fact : JsString) (place : ℕ) :
    Stored (defaultEngine F embedder fault) (candidateOf turn owner fact, place) ↔ (runImmunology F fact DEFAULT_POLICY = [] ∧
      (applyCategoryPolicy (classifyCategory fact) (tagsOf turn) DEFAULT_POLICY).1 = .auto ∧
      DEFAULT_POLICY.salienceThreshold ≤ scoreSalience fact) ∧ fault place = none :=
  and_congr_left' evaluate_auto_iff

theorem recordFor_text (env : Ambient) (candidate : Candidate) (place : ℕ) :
    (recordFor E env (candidate, place)).2.get (js "text") = some (.str candidate.text) := by
  have htext := congrArg Candidate.text (evaluate_candidate E.format E.policy candidate)
  rw [← htext]
  rfl

/-- What is written is permitted, unless the medical consent covers too much. -/
theorem permitted_of_written {env : Ambient} {store : EncryptedStore V} {turn : Json} {p : Progress V}
    (hnot : ¬ Overridden (defaultEngine F embedder fault) turn)
    (h : processTurn (defaultEngine F embedder fault) env store turn = .ok p) {record : JsString × Json} (hrecord : record ∈ p.written)
    {text : JsString} (htext : record.2.get (js "text") = some (.str text)) : Permitted (tagsOf turn) text := by
  obtain ⟨owner, howner, -⟩ := Except.bind_eq_ok.1 h
  obtain ⟨place, fact, hfact, hstored, rfl⟩ := (written_iff _ howner h record).1 hrecord
  rw [recordFor_text] at htext
  obtain rfl : fact = text := Json.str.inj (Option.some.inj htext)
  obtain ⟨⟨hpass, hallowed, hsalient⟩, hfault⟩ := (stored_iff F embedder fault turn owner fact place).1 hstored
  refine ⟨?_, fun category hcategory hcontains => ?_⟩
  · have hpatterns := runImmunology_eq_nil hpass
    rwa [normalizeText_fact (mem_extractFacts _ hfact)] at hpatterns
  · have hsensitive := (classify_sensitive_iff fact).2 ⟨category, hcategory, hcontains⟩
    have hconsent := (hasConsentTag_iff (tagsOf turn)).1 ((applyCategoryPolicy_sensitive hsensitive _).1 hallowed)
    by_contra hlacks
    simp only [Consented, not_or, not_and] at hlacks
    obtain ⟨hsafe, hexplicit, hmedical⟩ := hlacks
    have htag := (hconsent.resolve_left hsafe).resolve_left hexplicit
    exact hnot ⟨⟨owner, howner⟩, htag, hsafe, hexplicit, place, fact, category, hfact, hfault, hpass, hsalient, hcategory,
      fun he => hmedical he htag, hcontains⟩

theorem written_of_overridden {env : Ambient} {store : EncryptedStore V} {turn : Json}
    (h : Overridden (defaultEngine F embedder fault) turn) :
    ∃ p record text, processTurn (defaultEngine F embedder fault) env store turn = .ok p ∧ record ∈ p.written ∧
      record.2.get (js "text") = some (.str text) ∧ ¬ Permitted (tagsOf turn) text := by
  obtain ⟨⟨owner, howner⟩, htag, hsafe, hexplicit, place, fact, category, hfact, hfault, hpass, hsalient, hcategory, hne, hcontains⟩ := h
  have hsensitive := (classify_sensitive_iff fact).2 ⟨category, hcategory, hcontains⟩
  have hallowed := (applyCategoryPolicy_sensitive hsensitive (tagsOf turn)).2 ((hasConsentTag_iff _).2 (.inr (.inr htag)))
  have hstored := (stored_iff F embedder fault turn owner fact place).2 ⟨⟨hpass, hallowed, hsalient⟩, hfault⟩
  obtain ⟨p, hp⟩ : ∃ p, processTurn (defaultEngine F embedder fault) env store turn = .ok p := by
    rw [processTurn, howner]
    exact ⟨_, rfl⟩
  refine ⟨p, _, fact, hp, (written_iff _ howner hp _).2 ⟨place, fact, hfact, hstored, rfl⟩, recordFor_text _ env _ place, ?_⟩
  intro hpermitted
  rcases hpermitted.2 category hcategory hcontains with h | h | h
  · exact hsafe h
  · exact hexplicit h
  · exact hne h.1

/-- **Auto-save fails closed on sensitive text**, but where the medical consent covers too much. -/
theorem sensitive_saves_iff (env : Ambient) (store : EncryptedStore V) (turn : Json) :
    (∀ p, processTurn (defaultEngine F embedder fault) env store turn = .ok p → ∀ record ∈ p.written, ∀ text,
      record.2.get (js "text") = some (.str text) → Permitted (tagsOf turn) text) ↔
      ¬ Overridden (defaultEngine F embedder fault) turn := by
  constructor
  · intro h hover
    obtain ⟨p, record, text, hp, hrecord, htext, hnot⟩ := written_of_overridden F embedder fault hover
    exact hnot (h p hp record hrecord text htext)
  · intro hnot p hp record hrecord text htext
    exact permitted_of_written F embedder fault hnot hp hrecord htext

end

/-- A password is saved on a medical consent. -/
theorem password_saved : ¬ ∀ p, processTurn plainEngine referenceEnv .empty
    (turnOf "My password is hunter2, I must keep it." ["medical_consent"]) = .ok p → ∀ record ∈ p.written, ∀ text,
      record.2.get (js "text") = some (.str text) → Permitted [.str (js "medical_consent")] text := by
  intro h
  have hlacks : ∀ tag, tag ≠ "medical_consent" → ¬ HasTag [.str (js "medical_consent")] tag := by
    intro tag hne htag
    exact hne (js_inj.1 (Json.str.inj (List.mem_singleton.1 htag)))
  have hover : Overridden plainEngine (turnOf "My password is hunter2, I must keep it." ["medical_consent"]) := by
    refine ⟨⟨js "alice", rfl⟩, List.mem_singleton.2 rfl, hlacks _ (by decide), hlacks _ (by decide), 0,
      js "My password is hunter2, I must keep it.", .credentials, by decide +kernel, rfl, ?_, by decide +kernel, by decide, by decide, ?_⟩
    · exact List.isEmpty_iff.1 (by decide +kernel)
    · exact ⟨"password", by decide, js "my ", js " is hunter2, i must keep it.", by decide +kernel, by decide, by decide⟩
  obtain ⟨p, record, text, hp, hrecord, htext, hnot⟩ := written_of_overridden decimalFormat none (fun _ => none) hover
  exact hnot (h p hp record hrecord text htext)

end EnigmaMemory.AutoSave
