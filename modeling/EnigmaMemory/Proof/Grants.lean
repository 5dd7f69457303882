import EnigmaMemory.Proof.RecallVeto

/-!
# What a verified grant vouches for, and the order of the grants

A verification looks at the grant, the options and the time of the check.

* `verified_vouched`: a verified grant runs beyond the time of the check, is active and not revoked, and
  names whatever the options ask for; when it was issued is not compared with that time.
* `decision_order`: which requests are allowed does not depend on the order of their grants. Of a refused
  request the order decides whether it is denied or asked about, through the first grant.
-/

namespace EnigmaMemory

namespace Controller

open Json

variable {P : Platform} {options grant r : Json} {s : Scope} {now : ℤ}

/-! ## Verified grants -/

/-- **What a verification vouches for** at the time it reads from the options. -/
structure Vouched (P : Platform) (grant options : Json) (now : ℤ) : Prop where
  now_read : dateTime P (orElse (options.get (js "now")) (some defaultNow)) = some now
  issued_at : isDateTime P (grant.get (js "issued_at")) = true
  expires_at : ∃ t, dateTime P (grant.get (js "expires_at")) = some t ∧ now < t
  active : grant.get (js "status") = some (.str (js "active"))
  not_revoked : options.get (js "revoked") ≠ some (.bool true)
  not_listed : ∀ xs, option options "revoked_grant_refs" "revokedGrantRefs" = some (.arr xs) →
    ∀ x ∈ xs, grant.get (js "grant_ref") ≠ some x
  app_ref : ∀ a, option options "app_ref" "appRef" = some a → grant.get (js "app_ref") = some a
  purpose_ref : ∀ a, option options "purpose_ref" "purposeRef" = some a → grant.get (js "purpose_ref") = some a
  operations : ∀ x ∈ listed options "operations", Names grant "operations" x
  operation : ∀ x, options.get (js "operation") = some x → Names grant "operations" x
  memory_zone_refs : ∀ x ∈ listed options "memory_zone_refs", Names grant "memory_zone_refs" x
  memoryZoneRefs : arrayItems (options.get (js "memory_zone_refs")) = none →
    ∀ x ∈ listed options "memoryZoneRefs", Names grant "memory_zone_refs" x
  memory_zone_ref : ∀ x, option options "memory_zone_ref" "memoryZoneRef" = some x → Names grant "memory_zone_refs" x

theorem nowOption_ok : nowOption P options = .ok now ↔
    dateTime P (orElse (options.get (js "now")) (some defaultNow)) = some now := by
  unfold nowOption
  split
  · rename_i t heq
    simp [heq]
  · rename_i heq
    simp [heq]

theorem isPublicRef_str {value : Option Json} (h : isPublicRef value = true) :
    ∃ t, value = some (.str t) ∧ publicRefTest t = true := by
  unfold isPublicRef at h
  split at h
  · exact ⟨_, rfl, h⟩
  · cases h

theorem names_of_includes {key : String} {x : Option Json} (h : includesValue (grant.get (js key)) x = true) :
    ∃ v, x = some v ∧ Names grant key v := by
  unfold includesValue at h
  split at h
  · rename_i xs v heq
    obtain ⟨y, hy, hsame⟩ := List.any_eq_true.1 h
    exact ⟨v, rfl, xs, heq, eq_of_sameValue hsame ▸ hy⟩
  · cases h

/-- The values a request expects are named by a grant that passes the comparison. -/
theorem compareScope_passes (h : compareScope grant options = []) :
    (∀ a, option options "app_ref" "appRef" = some a → grant.get (js "app_ref") = some a) ∧
    (∀ a, option options "purpose_ref" "purposeRef" = some a → grant.get (js "purpose_ref") = some a) ∧
    (∀ o ∈ expectedOperations options, includesValue (grant.get (js "operations")) o = true) ∧
    ∀ z ∈ expectedMemoryZoneRefs options, includesValue (grant.get (js "memory_zone_refs")) z = true := by
  unfold compareScope at h
  simp only [List.append_eq_nil_iff, faultIf_eq_nil] at h
  obtain ⟨⟨⟨happ, hpurpose⟩, hoperations⟩, hzones⟩ := h
  refine ⟨fun a ha => ?_, fun a ha => ?_, fun o ho => ?_, fun z hz => ?_⟩
  · rw [ha] at happ
    exact eq_of_strictEq (by simpa using happ)
  · rw [ha] at hpurpose
    exact eq_of_strictEq (by simpa using hpurpose)
  · simpa using List.any_eq_false.1 hoperations o ho
  · simpa using List.any_eq_false.1 hzones z hz

theorem mem_expectedOperations {x : Json} (h : x ∈ listed options "operations" ∨ options.get (js "operation") = some x) :
    some x ∈ expectedOperations options := by
  unfold expectedOperations
  rcases h with h | h
  · exact List.mem_append_left _ (List.mem_map_of_mem h)
  · refine List.mem_append_right _ ?_
    simp [h]

theorem mem_expectedZones {x : Json} (h : x ∈ listed options "memory_zone_refs" ∨
    (arrayItems (options.get (js "memory_zone_refs")) = none ∧ x ∈ listed options "memoryZoneRefs") ∨
    option options "memory_zone_ref" "memoryZoneRef" = some x) : some x ∈ expectedMemoryZoneRefs options := by
  unfold expectedMemoryZoneRefs
  rcases h with h | ⟨hnone, h⟩ | h
  · refine List.mem_append_left _ (List.mem_map_of_mem ?_)
    unfold listed at h
    cases hitems : arrayItems (options.get (js "memory_zone_refs")) with
    | none => rw [hitems] at h; cases h
    | some xs => rwa [hitems] at h
  · refine List.mem_append_left _ (List.mem_map_of_mem ?_)
    rw [hnone]
    exact h
  · refine List.mem_append_right _ ?_
    have hgiven : ¬ ((options.get (js "memory_zone_ref")).isNone && (options.get (js "memoryZoneRef")).isNone) = true := by
      intro hnone
      obtain ⟨h1, h2⟩ := (Bool.and_eq_true _ _).mp hnone
      rw [Option.isNone_iff_eq_none] at h1 h2
      rw [option, h1, h2] at h
      cases h
    rw [if_neg hgiven, h]
    exact List.mem_cons_self

/-- **A verified grant vouches for all that is asked of it**: it is active, not revoked and not over at the time of the
check, and it names every application, purpose, operation and zone of the options. -/
theorem verified_vouched {v : Verification} (h : verifyConsentGrant P grant options = .ok v) (hok : v.ok = true) :
    ∃ now, Vouched P grant options now := by
  obtain ⟨now, hnow, -, -, hshape, hvalid, hscope⟩ := verifyConsentGrant_ok h hok
  obtain ⟨hlive, hoption⟩ := validityFaults_eq_nil.1 hvalid
  obtain ⟨happ, hpurpose, hoperations, hzones⟩ := compareScope_passes hscope
  have hnamed : ∀ x, some x ∈ expectedOperations options → Names grant "operations" x := by
    intro x hx
    obtain ⟨_, heq, hnames⟩ := names_of_includes (hoperations _ hx)
    exact Option.some.inj heq ▸ hnames
  have hzoned : ∀ z, some z ∈ expectedMemoryZoneRefs options → Names grant "memory_zone_refs" z := by
    intro z hz
    obtain ⟨_, heq, hnames⟩ := names_of_includes (hzones _ hz)
    exact Option.some.inj heq ▸ hnames
  refine ⟨now, nowOption_ok.1 hnow, hshape.issued_at, ?_, ?_, ?_, ?_, happ, hpurpose, ?_, ?_, ?_, ?_, ?_⟩
  · obtain ⟨t, ht⟩ := Option.isSome_iff_exists.1 hshape.expires_at
    exact ⟨t, ht, lt_of_not_ge fun hle => hlive (.inl (.inr ⟨t, ht, hle⟩))⟩
  · exact active_of_not_lapsed hshape hlive
  · exact hoption
  · intro xs hxs x hx heq
    refine hlive (.inr (.inr ?_))
    obtain ⟨t, ht, -⟩ := isPublicRef_str hshape.grant_ref
    rw [hxs, ht]
    exact includesValue_str.2 ⟨xs, rfl, Option.some.inj (heq.symm.trans ht) ▸ hx⟩
  · exact fun x hx => hnamed x (mem_expectedOperations (.inl hx))
  · exact fun x hx => hnamed x (mem_expectedOperations (.inr hx))
  · exact fun x hx => hzoned x (mem_expectedZones (.inl hx))
  · exact fun hnone x hx => hzoned x (mem_expectedZones (.inr (.inl ⟨hnone, hx⟩)))
  · exact fun x hx => hzoned x (mem_expectedZones (.inr (.inr hx)))

/-- What a verification of the reader's grant asks for. -/
def readerCheck (now : JsString) : Json :=
  .obj [(js "now", .str now), (js "app_ref", .str (js "ref:app:reader")), (js "operation", .str (js "recall_context"))]

def isVerified (result : Except JsError Verification) : Bool :=
  match result with
  | .ok v => v.ok
  | .error _ => false

theorem isVerified_iff {result : Except JsError Verification} : isVerified result = true ↔
    ∃ v, result = .ok v ∧ v.ok = true := by
  cases result <;> simp [isVerified]

/-- The reader's grant, issued at the new year. -/
def futureGrant : Json := readerGrant.set (js "issued_at") (.str Reference.newYearText)

/-- A grant the reader has lost, and one for another application. -/
def lostGrant : Json := readerGrant.set (js "status") (.str (js "revoked"))

def writerGrant : Json := readerGrant.set (js "app_ref") (.str (js "ref:app:writer"))

def decided (result : Except JsError Json) (d : Decision) : Bool :=
  match result with
  | .ok r => Json.isStr (r.get (js "decision")) d.text
  | .error _ => false

theorem decided_iff {result : Except JsError Json} {d : Decision} : decided result d = true ↔
    ∃ r, result = .ok r ∧ r.get (js "decision") = some (.str d.text) := by
  cases result <;> simp [decided]

def readerOptions (grants : List Json) : Json := (readerRequest [js "recall_context"]).set (js "grants") (.arr grants)

/-- The grant and its future version verify, and what is decided over the other two depends on their order. -/
theorem reader_grants_checked : isVerified (verifyConsentGrant reference readerGrant (readerCheck Reference.epochText)) = true ∧
    isVerified (verifyConsentGrant reference futureGrant (readerCheck Reference.epochText)) = true ∧
    decided (createRecallVetoDecision reference (readerOptions [lostGrant, writerGrant])) .deny = true ∧
    decided (createRecallVetoDecision reference
      ((readerOptions [lostGrant, writerGrant]).set (js "grants") (.arr [writerGrant, lostGrant]))) .ask = true := by
  decide +kernel

theorem verified_vouched_reader : ∃ now, Vouched reference readerGrant (readerCheck Reference.epochText) now := by
  obtain ⟨v, hv, hok⟩ := isVerified_iff.1 reader_grants_checked.1
  exact verified_vouched hv hok

/-- A grant is verified before it has been issued. -/
theorem verified_before_issue : ¬ ∀ grant options v, verifyConsentGrant reference grant options = .ok v → v.ok = true →
    ∃ issued now, dateTime reference (grant.get (js "issued_at")) = some issued ∧
      dateTime reference (options.get (js "now")) = some now ∧ issued ≤ now := by
  intro hissued
  obtain ⟨v, hv, hok⟩ := isVerified_iff.1 reader_grants_checked.2.1
  obtain ⟨issued, now, hi, hn, hle⟩ := hissued _ _ v hv hok
  have hissued' : dateTime reference (futureGrant.get (js "issued_at")) = some Reference.newYear := by rfl
  have hnow : dateTime reference ((readerCheck Reference.epochText).get (js "now")) = some 0 := by rfl
  cases hissued'.symm.trans hi
  cases hnow.symm.trans hn
  exact absurd hle (by decide)

/-! ## Grants that do not verify -/

theorem mem_reason_codes {faults : List Fault} {hash : Option JsString} {code : JsString} :
    code ∈ (verification faults hash).reason_codes ↔ ∃ f ∈ faults, f.2 = code := by
  rw [verification, mem_uniqueSorted, List.mem_map]

theorem code_of_faultIf {c : Bool} {code : JsString} {p : JsString → Prop} (h : p code) : ∀ f ∈ faultIf c code, p f.2 := by
  intro f hf
  cases c with
  | false => cases hf
  | true =>
    rw [List.mem_singleton.1 hf]
    exact h

theorem shapeFaults_code : ∀ f ∈ shapeFaults P grant, f.2.head? = some 66 := by
  have hfault : ∀ {c : Bool} {code : JsString}, code.head? = some 66 → ∀ f ∈ faultIf c code, f.2.head? = some 66 :=
    fun h => code_of_faultIf (p := fun code => code.head? = some 66) h
  unfold shapeFaults
  simp only [List.forall_mem_append]
  refine ⟨⟨⟨⟨⟨⟨⟨⟨⟨⟨⟨⟨⟨?_, hfault rfl⟩, hfault rfl⟩, hfault rfl⟩, hfault rfl⟩, hfault rfl⟩, hfault rfl⟩, hfault rfl⟩,
    hfault rfl⟩, hfault rfl⟩, hfault rfl⟩, hfault rfl⟩, hfault rfl⟩, ?_⟩
  · intro f hf
    obtain ⟨key, -, hf⟩ := List.mem_flatMap.1 hf
    split at hf
    · cases hf
    · rw [List.mem_singleton.1 hf]
      rfl
  · intro f hf
    obtain ⟨field, -, hf⟩ := List.mem_flatMap.1 hf
    exact hfault rfl f hf

theorem compareScope_code : ∀ f ∈ compareScope grant options, f.2.head? = some 87 := by
  have hfault : ∀ {c : Bool} {code : JsString}, code.head? = some 87 → ∀ f ∈ faultIf c code, f.2.head? = some 87 :=
    fun h => code_of_faultIf (p := fun code => code.head? = some 87) h
  unfold compareScope
  simp only [List.forall_mem_append]
  exact ⟨⟨⟨hfault rfl, hfault rfl⟩, hfault rfl⟩, hfault rfl⟩

theorem validityFaults_code : ∀ f ∈ validityFaults P grant options now, f.2 = js "REVOKED" ∨ f.2 = js "EXPIRED" := by
  unfold validityFaults
  simp only [List.forall_mem_append]
  exact ⟨⟨code_of_faultIf (p := fun code => code = js "REVOKED" ∨ code = js "EXPIRED") (.inr rfl),
    code_of_faultIf (p := fun code => code = js "REVOKED" ∨ code = js "EXPIRED") (.inl rfl)⟩,
    code_of_faultIf (p := fun code => code = js "REVOKED" ∨ code = js "EXPIRED") (.inl rfl)⟩

/-- The two codes that get a request denied come from the checks of validity only. -/
theorem lapsed_codes {v : Verification} (h : verifyConsentGrant P grant options = .ok v) :
    (js "REVOKED" ∈ v.reason_codes ∨ js "EXPIRED" ∈ v.reason_codes) ↔
      grant.isPlainRecord = true ∧ ∃ now, nowOption P options = .ok now ∧ validityFaults P grant options now ≠ [] := by
  unfold verifyConsentGrant at h
  split at h
  · rename_i hrecord
    cases h
    rw [mem_reason_codes, mem_reason_codes]
    simp only [List.mem_singleton, exists_eq_left]
    refine iff_of_false (by decide) fun hgood => ?_
    rw [hgood.1] at hrecord
    exact absurd hrecord (by decide)
  · rename_i hrecord
    obtain ⟨now, hnow, h⟩ := Except.bind_eq_ok.1 h
    cases Except.pure_eq_ok.1 h
    have hplain : grant.isPlainRecord = true := by simpa using hrecord
    have hother : ∀ {faults : List Fault} {c code}, (∀ f ∈ faults, f.2.head? = some c) → code.head? ≠ some c →
        ∀ f ∈ faults, f.2 ≠ code := by
      intro faults c code hfaults hcode f hf heq
      exact hcode (heq ▸ hfaults f hf)
    have hscan : ∀ {c : Bool}, ∀ f ∈ faultIf c (js "NON_PUBLIC_SAFE_ARTIFACT"), f.2.head? = some 78 :=
      fun {_} => code_of_faultIf (p := fun code => code.head? = some 78) rfl
    have hcode : ∀ code, code.head? ≠ some 66 → code.head? ≠ some 78 → code.head? ≠ some 87 →
        (code ∈ (verification (faultIf (!(scanMemoryControllerPublicSafe P grant).ok) (js "NON_PUBLIC_SAFE_ARTIFACT")
          ++ shapeFaults P grant ++ validityFaults P grant options now ++ compareScope grant options)
          (scanMemoryControllerPublicSafe P grant).public_hash).reason_codes ↔
          ∃ f ∈ validityFaults P grant options now, f.2 = code) := by
      intro code hB hN hW
      rw [mem_reason_codes]
      constructor
      · rintro ⟨f, hf, heq⟩
        rcases List.mem_append.1 hf with hf | hf
        · rcases List.mem_append.1 hf with hf | hf
          · rcases List.mem_append.1 hf with hf | hf
            · exact absurd heq (hother hscan hN f hf)
            · exact absurd heq (hother shapeFaults_code hB f hf)
          · exact ⟨f, hf, heq⟩
        · exact absurd heq (hother compareScope_code hW f hf)
      · rintro ⟨f, hf, heq⟩
        exact ⟨f, List.mem_append_left _ (List.mem_append_right _ hf), heq⟩
    rw [hcode _ (by decide) (by decide) (by decide), hcode _ (by decide) (by decide) (by decide)]
    constructor
    · rintro (⟨f, hf, -⟩ | ⟨f, hf, -⟩)
      · exact ⟨hplain, now, hnow, List.ne_nil_of_mem hf⟩
      · exact ⟨hplain, now, hnow, List.ne_nil_of_mem hf⟩
    · rintro ⟨-, now', hnow', hne⟩
      cases hnow.symm.trans hnow'
      obtain ⟨f, hf⟩ := List.exists_mem_of_ne_nil _ hne
      exact (validityFaults_code f hf).imp (fun heq => ⟨f, hf, heq⟩) fun heq => ⟨f, hf, heq⟩

/-! ## The selected grant -/

/-- A grant that is verified for the scope of a request. -/
def Verifies (P : Platform) (scope g : Json) : Prop := ∃ v, verifyConsentGrant P g scope = .ok v ∧ v.ok = true

/-- The first candidate with its verification. -/
def leading (P : Platform) (scope : Json) (candidates : List Json) : Option (Json × Verification) :=
  candidates.head?.bind fun g =>
    match verifyConsentGrant P g scope with
    | .ok v => some (g, v)
    | .error _ => none

/-- The loop finds a verified grant if there is one, and else keeps the first. -/
theorem selectLoop_cases {scope : Json} {selected : Option (Json × Verification)} (candidates : List Json) :
    ∀ first, selectLoop P scope first candidates = .ok selected →
      ((∃ g ∈ candidates, Verifies P scope g) ∧ ∃ g v, selected = some (g, v) ∧ v.ok = true) ∨
      ((∀ g ∈ candidates, ∃ v, verifyConsentGrant P g scope = .ok v ∧ v.ok = false) ∧
        selected = first.or (leading P scope candidates)) := by
  induction candidates with
  | nil =>
    intro first h
    rw [selectLoop] at h
    refine .inr ⟨fun _ hg => absurd hg List.not_mem_nil, ?_⟩
    rw [← Except.ok.inj h]
    cases first <;> rfl
  | cons c rest ih =>
    intro first h
    rw [selectLoop] at h
    obtain ⟨u, hu, h⟩ := Except.bind_eq_ok.1 h
    split at h
    · rename_i hok
      cases h
      exact .inl ⟨⟨c, List.mem_cons_self, u, hu, hok⟩, c, u, rfl, hok⟩
    · rename_i hno
      have hleading : leading P scope (c :: rest) = some (c, u) := by
        simp [leading, hu]
      rcases ih (first.or (some (c, u))) h with ⟨⟨g, hg, hv⟩, hselected⟩ | ⟨hfail, hselected⟩
      · exact .inl ⟨⟨g, List.mem_cons_of_mem _ hg, hv⟩, hselected⟩
      · refine .inr ⟨List.forall_mem_cons.2 ⟨⟨u, hu, eq_false_of_ne_true hno⟩, hfail⟩, ?_⟩
        rw [hselected, hleading]
        cases first <;> rfl

/-- The grant a request is led by, `grant` or else the first of `grants`, is no longer good at the time of the request. -/
def LedByLapsed (P : Platform) (options : Json) : Prop :=
  ∃ g now, (suppliedGrants options).head? = some g ∧ g.isPlainRecord = true ∧ nowOption P options = .ok now ∧
    Lapsed P options g now

theorem nowOption_scope : nowOption P (scopeJson options s) = nowOption P options := by
  have hnow : (scopeJson options s).get (js "now") = orElse (options.get (js "now")) (some defaultNow) := by
    rw [get_scopeJson]
    exact Option.or_none
  have htwice : orElse (orElse (options.get (js "now")) (some defaultNow)) (some defaultNow) =
      orElse (options.get (js "now")) (some defaultNow) := by
    rcases options.get (js "now") with _ | (_ | _ | _ | _ | _ | _) <;> rfl
  rw [nowOption, nowOption, hnow, htwice]

theorem leading_codes {g : Json} {v : Verification}
    (h : leading P (scopeJson options s) (suppliedGrants options) = some (g, v)) :
    (js "REVOKED" ∈ v.reason_codes ∨ js "EXPIRED" ∈ v.reason_codes) ↔ LedByLapsed P options := by
  obtain ⟨g', hhead, h⟩ := Option.bind_eq_some_iff.1 h
  split at h
  · rename_i v' hv
    cases h
    have hunrevoked : (scopeJson options s).get (js "revoked") ≠ some (.bool true) := by
      rw [get_scopeJson]
      exact fun h => nomatch h
    rw [lapsed_codes hv]
    constructor
    · rintro ⟨hplain, now, hnow, hfaults⟩
      refine ⟨g, now, hhead, hplain, nowOption_scope.symm.trans hnow, ?_⟩
      by_contra hlive
      exact hfaults (validityFaults_eq_nil.2 ⟨fun h => hlive (lapsed_scope.1 h), hunrevoked⟩)
    · rintro ⟨g', now, hhead', hplain, hnow, hlapsed⟩
      cases hhead.symm.trans hhead'
      exact ⟨hplain, now, nowOption_scope.trans hnow, fun hnil => (validityFaults_eq_nil.1 hnil).1 (lapsed_scope.2 hlapsed)⟩
  · cases h

/-- The counts of a request speak against it. -/
def CountsRefuse (options : Json) : Prop :=
  ∃ c, normalizeRecallCounts options = .ok c ∧ (0 < c.tombstone_count ∨ 0 < c.sensitive_count)

theorem countReasons_ne_nil {c : RecallCounts} : countReasons c ≠ [] ↔ 0 < c.tombstone_count ∨ 0 < c.sensitive_count := by
  constructor
  · intro h
    by_contra hnone
    obtain ⟨ht, hs⟩ := not_or.1 hnone
    have hsafe : c.safe = true := by
      rw [RecallCounts.safe, Bool.and_eq_true, decide_eq_true_iff, decide_eq_true_iff]
      omega
    exact h (by simp [countReasons, ht, hs, hsafe])
  · intro h hnil
    obtain ⟨ht, hs⟩ := countReasons_nil hnil
    omega

/-- **How a request without objections from its counts is decided**: by a verified grant, else by the grant that leads. -/
theorem recallVerdict_selected {c : RecallCounts} {selected : Option (Json × Verification)} (hc : countReasons c = [])
    (h : selectGrant P options s = .ok selected) :
    ((∃ g ∈ suppliedGrants options, Verifies P (scopeJson options s) g) ∧ (recallVerdict c selected).decision = .allow) ∨
    ((¬ ∃ g ∈ suppliedGrants options, Verifies P (scopeJson options s) g) ∧
      ((LedByLapsed P options ∧ (recallVerdict c selected).decision = .deny) ∨
        (¬ LedByLapsed P options ∧ (recallVerdict c selected).decision = .ask))) := by
  rcases selectLoop_cases _ none h with ⟨hany, g, v, rfl, hok⟩ | ⟨hfail, hselected⟩
  · exact .inl ⟨hany, by rw [recallVerdict_of_ok hc hok]⟩
  · refine .inr ⟨?_, ?_⟩
    · rintro ⟨g, hg, v, hv, hok⟩
      obtain ⟨u, hu, hno⟩ := hfail g hg
      cases hv.symm.trans hu
      rw [hok] at hno
      cases hno
    · rw [Option.none_or] at hselected
      rw [hselected]
      cases hhead : (suppliedGrants options).head? with
      | none =>
        have hlead : leading P (scopeJson options s) (suppliedGrants options) = none := by
          rw [leading, hhead]
          rfl
        refine .inr ⟨fun ⟨g, _, hg, _⟩ => ?_, ?_⟩
        · rw [hhead] at hg
          cases hg
        · simp [recallVerdict, hc, hlead]
      | some g =>
        obtain ⟨v, hv, hno⟩ := hfail g (List.mem_of_head? hhead)
        have hlead : leading P (scopeJson options s) (suppliedGrants options) = some (g, v) := by
          simp [leading, hhead, hv]
        have hcodes := leading_codes hlead
        rw [hlead, ← hcodes]
        by_cases hrevoked : js "REVOKED" ∈ v.reason_codes
        · exact .inl ⟨.inl hrevoked, by simp [recallVerdict, hc, hno, hrevoked]⟩
        · by_cases hexpired : js "EXPIRED" ∈ v.reason_codes
          · exact .inl ⟨.inr hexpired, by simp [recallVerdict, hc, hno, hrevoked, hexpired]⟩
          · exact .inr ⟨fun h => h.elim hrevoked hexpired, by simp [recallVerdict, hc, hno, hrevoked, hexpired]⟩

/-! ## Another order -/

theorem decision_text_inj {d d' : Decision} (h : d.text = d'.text) : d = d' := by
  revert h
  cases d <;> cases d' <;> decide

theorem decision_ok (h : createRecallVetoDecision P options = .ok r) : ∃ s c selected, recallScope options = .ok s ∧
    normalizeRecallCounts options = .ok c ∧ selectGrant P options s = .ok selected ∧
    r.get (js "decision") = some (.str (recallVerdict c selected).decision.text) := by
  obtain ⟨s, policyRef, c, selected, -, hs, -, hc, hselected, hr⟩ := createRecallVetoDecision_ok.1 h
  obtain ⟨_, _, _, _, _, -, -, -, -, -, -, rfl⟩ := vetoArtifact_ok hr
  exact ⟨s, c, selected, hs, hc, hselected, rfl⟩

theorem sameRequest_set (grants : List Json) : SameRequest (options.set (js "grants") (.arr grants)) options := by
  intro key _ h'
  rw [get_set, if_neg h']

/-- **What the order of the grants decides.** A request is allowed in every order of its grants or in none. Two orders of
the same grants lead to one decision exactly if the request is allowed, its counts speak against it, or the grants that
lead are both no longer good or both not so. -/
theorem decision_order {grants grants' : List Json} {r' : Json} (hgrants : options.get (js "grants") = some (.arr grants))
    (hperm : grants.Perm grants') (h : createRecallVetoDecision P options = .ok r)
    (h' : createRecallVetoDecision P (options.set (js "grants") (.arr grants')) = .ok r') :
    (r.get (js "decision") = some (.str (js "allow")) ↔ r'.get (js "decision") = some (.str (js "allow"))) ∧
    (r.get (js "decision") = r'.get (js "decision") ↔ r.get (js "decision") = some (.str (js "allow")) ∨
      CountsRefuse options ∨ (LedByLapsed P options ↔ LedByLapsed P (options.set (js "grants") (.arr grants')))) := by
  have hsame : SameRequest (options.set (js "grants") (.arr grants')) options := sameRequest_set _
  obtain ⟨s, c, selected, hs, hc, hselected, hd⟩ := decision_ok h
  obtain ⟨s', c', selected', hs', hc', hselected', hd'⟩ := decision_ok h'
  cases hs.symm.trans ((recallScope_congr hsame).symm.trans hs')
  cases hc.symm.trans ((normalizeRecallCounts_congr hsame).symm.trans hc')
  -- both orders offer the same grants
  have hmem : (∃ g ∈ suppliedGrants options, Verifies P (scopeJson options s) g) ↔
      ∃ g ∈ suppliedGrants (options.set (js "grants") (.arr grants')),
        Verifies P (scopeJson (options.set (js "grants") (.arr grants')) s) g := by
    have hoffered : (suppliedGrants options).Perm (suppliedGrants (options.set (js "grants") (.arr grants'))) := by
      unfold suppliedGrants
      rw [get_set, get_set, if_neg (by decide), if_pos rfl, hgrants]
      exact hperm.append_left _
    rw [scopeJson_congr hsame]
    exact exists_congr fun g => and_congr_left fun _ => hoffered.mem_iff
  have heq : ∀ d d' : Decision, some (Json.str d.text) = some (.str d'.text) ↔ d = d' :=
    fun d d' => ⟨fun h => decision_text_inj (Json.str.inj (Option.some.inj h)), fun h => by rw [h]⟩
  have hallow : ∀ d : Decision, some (Json.str d.text) = some (.str (js "allow")) ↔ d = .allow := fun d => heq d .allow
  have hrefuse : CountsRefuse options ↔ countReasons c ≠ [] := by
    rw [countReasons_ne_nil, CountsRefuse]
    constructor
    · rintro ⟨c', hc', h⟩
      cases hc.symm.trans hc'
      exact h
    · exact fun h => ⟨c, hc, h⟩
  rw [hd, hd', hallow, hallow, heq, hrefuse]
  by_cases hreasons : countReasons c = []
  · rcases recallVerdict_selected hreasons hselected with ⟨hany, hv⟩ | ⟨hnone, hv⟩
    · rcases recallVerdict_selected hreasons hselected' with ⟨-, hv'⟩ | ⟨hnone', -⟩
      · simp [hv, hv']
      · exact absurd (hmem.1 hany) hnone'
    · rcases recallVerdict_selected hreasons hselected' with ⟨hany', -⟩ | ⟨-, hv'⟩
      · exact absurd (hmem.2 hany') hnone
      · rcases hv with ⟨hlapsed, hv⟩ | ⟨hlapsed, hv⟩ <;> rcases hv' with ⟨hlapsed', hv'⟩ | ⟨hlapsed', hv'⟩ <;>
          simp [hv, hv', hlapsed, hlapsed', hreasons]
  · have hdeny : ∀ selected, (recallVerdict c selected).decision = .deny := by
      intro selected
      simp [recallVerdict, hreasons]
    simp [hdeny, hreasons]

theorem decision_order_reader : ¬ (LedByLapsed reference (readerOptions [lostGrant, writerGrant]) ↔
    LedByLapsed reference ((readerOptions [lostGrant, writerGrant]).set (js "grants") (.arr [writerGrant, lostGrant]))) := by
  obtain ⟨r, hr, hd⟩ := decided_iff.1 reader_grants_checked.2.2.1
  obtain ⟨r', hr', hd'⟩ := decided_iff.1 reader_grants_checked.2.2.2
  have horder := decision_order rfl (List.Perm.swap writerGrant lostGrant []) hr hr'
  intro hled
  have hsame := horder.2.2 (.inr (.inr hled))
  rw [hd, hd'] at hsame
  exact absurd (decision_text_inj (Json.str.inj (Option.some.inj hsame))) (by decide)

/-- Exchanging the two grants turns a denied request into one that is asked about. -/
theorem order_decides : ¬ ∀ options grants grants' r r', options.get (js "grants") = some (.arr grants) →
    grants.Perm grants' → createRecallVetoDecision reference options = .ok r →
    createRecallVetoDecision reference (options.set (js "grants") (.arr grants')) = .ok r' →
    r.get (js "decision") = r'.get (js "decision") := by
  intro hsame
  obtain ⟨r, hr, hd⟩ := decided_iff.1 reader_grants_checked.2.2.1
  obtain ⟨r', hr', hd'⟩ := decided_iff.1 reader_grants_checked.2.2.2
  have heq := hsame _ _ _ r r' rfl (List.Perm.swap writerGrant lostGrant []) hr hr'
  rw [hd, hd'] at heq
  exact absurd (decision_text_inj (Json.str.inj (Option.some.inj heq))) (by decide)

end Controller

end EnigmaMemory
