import EnigmaMemory.Proof.ProofNetwork

/-!
# The time window of a capability grant

The validator reads the dates and the number of uses with the helpers of the constructor, which take a default for what
is missing, and a date that does not parse compares as neither before nor after another.

* `grant_window_iff`: an accepted grant has a window and a number of uses exactly when its dates parse as they stand in
  it and its number of uses is a number.
-/

namespace EnigmaMemory

namespace ProofNetwork

open Json

variable {P : Platform} {g : Json}

/-- The grant runs from one date to a later one and may be used so many times. -/
structure Window (P : Platform) (g : Json) : Prop where
  dates : ∃ t u, parsedDate P (g.get (js "issued_at")) = some t ∧ parsedDate P (g.get (js "expires_at")) = some u ∧ t < u
  uses : ∃ n : ℕ, g.get (js "max_uses") = some (.num n)

/-- The dates and the number of uses stand in the grant and need no default and no conversion. -/
structure Explicit (P : Platform) (g : Json) : Prop where
  issued_at : (parsedDate P (g.get (js "issued_at"))).isSome = true
  expires_at : (parsedDate P (g.get (js "expires_at"))).isSome = true
  max_uses : ∃ q, g.get (js "max_uses") = some (.num q)

theorem Window.explicit (h : Window P g) : Explicit P g := by
  obtain ⟨⟨t, u, ht, hu, -⟩, n, hn⟩ := h
  exact ⟨by rw [ht]; rfl, by rw [hu]; rfl, n, hn⟩

/-- A number that passes is a natural number. -/
theorem nonNegativeInteger_num {q r : ℚ} {field : JsString} (h : nonNegativeInteger P (some (.num q)) field 0 = .ok r) :
    ∃ n : ℕ, q = n := by
  have hvalue : orElse (some (.num q)) (some (.num 0)) = some (.num q) := rfl
  rw [nonNegativeInteger, hvalue, testedInteger] at h
  have hnumeric : toNumeric P.toNumberFormat (some (.num q)) = .finite q := rfl
  simp only [hnumeric] at h
  split at h
  · rename_i htest
    rw [Bool.and_eq_true, beq_iff_eq, decide_eq_true_eq] at htest
    obtain ⟨hden, hpos⟩ := htest
    have hint : q = q.num := (Rat.den_eq_one_iff q).1 hden ▸ rfl
    obtain ⟨n, hn⟩ := Int.eq_ofNat_of_zero_le (Rat.num_nonneg.2 hpos)
    exact ⟨n, by rw [hint, hn]; rfl⟩
  · cases h

/-- What the validator has looked at. -/
theorem valid_grant_checks (h : validateCapabilityGrant P g = []) :
    notAfter P (g.get (js "expires_at")) (g.get (js "issued_at")) = false ∧
      ∃ q, nonNegativeInteger P (g.get (js "max_uses")) (js "max_uses") 0 = .ok q := by
  have hall := collectValidation_eq_nil.1 h
  constructor
  · have hexpiry := hall (.ok (errorIf (notAfter P (g.get (js "expires_at")) (g.get (js "issued_at"))) expiryMessage)) (by simp)
    have herrors := Except.ok.inj hexpiry
    rw [errorIf] at herrors
    split at herrors
    · cases herrors
    · exact eq_false_of_ne_true ‹_›
  · exact required_eq_ok.1 (hall (required (nonNegativeInteger P (g.get (js "max_uses")) (js "max_uses") 0)) (by simp))

/-- **An accepted grant has a window exactly when its dates parse and its number of uses is a number.** -/
theorem grant_window_iff (P : Platform) (g : Json) (h : validateCapabilityGrant P g = []) : Window P g ↔ Explicit P g := by
  refine ⟨Window.explicit, fun he => ?_⟩
  obtain ⟨hissued, hexpires, q, hq⟩ := he
  obtain ⟨hexpiry, r, huses⟩ := valid_grant_checks h
  obtain ⟨t, ht⟩ := Option.isSome_iff_exists.1 hissued
  obtain ⟨u, hu⟩ := Option.isSome_iff_exists.1 hexpires
  rw [notAfter, ht, hu, decide_eq_false_iff_not, not_le] at hexpiry
  rw [hq] at huses
  obtain ⟨n, rfl⟩ := nonNegativeInteger_num huses
  exact ⟨⟨t, u, ht, hu, hexpiry⟩, n, hq⟩

/-! ## A grant without dates -/

def undatedRoot : JsString := prefixedSha256 (js "resource")

/-- The fields of a grant that names neither a date nor a number of uses. -/
def undatedFields (resourceRoot : JsString) : List (JsString × Json) :=
  [(js "schema", .str Kind.capabilityGrant.schema), (js "grant_ref", .str (js "grant:1")), (js "issuer_ref", .str (js "issuer:1")),
    (js "subject_ref", .str (js "subject:1")), (js "audience_ref", .str (js "audience:1")), (js "scopes", strings [js "recall"]),
    (js "resource_root", .str resourceRoot), (js "resource_roots", strings [undatedRoot]), (js "nonce_hash", .str undatedRoot)]

theorem undated_public (text : JsString) : Public (.obj (undatedFields (prefixedSha256 text) ++ [] ++ safeBooleanBoundaries)) := by
  have hnames : plainNames [js "schema", js "grant_ref", js "issuer_ref", js "subject_ref", js "audience_ref", js "scopes",
      js "resource_root", js "resource_roots", js "nonce_hash"] = true := by decide +kernel
  have htexts : [Kind.capabilityGrant.schema, js "grant:1", js "issuer:1", js "subject:1", js "audience:1",
      js "recall"].all publicText = true := by decide +kernel
  have htext : ∀ t ∈ [Kind.capabilityGrant.schema, js "grant:1", js "issuer:1", js "subject:1", js "audience:1", js "recall"],
      Public (.str t) := fun t ht => .str (List.all_eq_true.1 htexts t ht)
  have hlist : ∀ t, Public (.str t) → Public (strings [t]) := fun t ht => .arr fun x hx => List.mem_singleton.1 hx ▸ ht
  have hfields : Public (.obj (undatedFields (prefixedSha256 text))) := by
    unfold undatedFields
    exact public_obj hnames rfl ⟨htext _ (by simp), htext _ (by simp), htext _ (by simp), htext _ (by simp), htext _ (by simp),
      hlist _ (htext _ (by simp)), public_digest _, hlist _ (public_digest _), public_digest _⟩
  rw [List.append_nil]
  exact hfields.append public_safe

/-- The root of the resources. -/
def undatedResource : JsString := prefixedSha256 (digestText reference (strings [undatedRoot]))

theorem undated_sealed : ∃ g, Sealed reference .capabilityGrant (undatedFields undatedResource) [] g := by
  obtain ⟨g, hg⟩ := freezeArtifact_of_public (P := reference) .capabilityGrant (undated_public _)
  exact ⟨g, hg, .inl rfl⟩

theorem get_undated {g : Json} (h : Sealed reference .capabilityGrant (undatedFields undatedResource) [] g) :
    g.get (js "issued_at") = none ∧ g.get (js "expires_at") = none ∧ g.get (js "max_uses") = none := by
  obtain ⟨d, -, rfl, -⟩ := h.eq
  have hnone : ∀ key ∈ [js "issued_at", js "expires_at", js "max_uses"], key ∉ (undatedFields undatedResource ++ [] ++
      safeBooleanBoundaries ++ [(js Kind.capabilityGrant.idField, Json.str (js Kind.capabilityGrant.prefixText ++ js "_" ++ shortDigest d)),
        (js Kind.capabilityGrant.hashField, Json.str d)]).map Prod.fst := by
    simp [undatedFields, safeBooleanBoundaries, safeFieldNames, Kind.idField, Kind.hashField]
  exact ⟨get_eq_none_iff.2 (hnone _ (by simp)), get_eq_none_iff.2 (hnone _ (by simp)), get_eq_none_iff.2 (hnone _ (by simp))⟩

/-- The grant is accepted. -/
theorem undated_valid {g : Json} (h : Sealed reference .capabilityGrant (undatedFields undatedResource) [] g) :
    validateCapabilityGrant reference g = [] := by
  obtain ⟨hissued, hexpires, huses⟩ := get_undated h
  have hroots : Public (strings [undatedRoot]) := .arr fun x hx => List.mem_singleton.1 hx ▸ public_digest _
  have href : ∀ text, refTest text = true → Passes publicRef text := fun _ => publicRef_passes
  have hdigest : Passes digestRef undatedRoot := digestRef_passes (rootTest_sha256 _)
  have hdate : ∀ field, required (isoTimestamp reference none field) = .ok [] := fun _ => rfl
  have hlist : digestArray reference (some (strings [undatedRoot])) (js "resource_roots") = .ok [undatedRoot] := by
    have hone : checkItems reference digestRef [some (.str undatedRoot)] (js "resource_roots") = .ok [undatedRoot] :=
      Except.bind_eq_ok.2 ⟨_, hdigest _, rfl⟩
    exact hone
  have hrootsGet : g.get (js "resource_roots") = some (strings [undatedRoot]) := h.get rfl (by decide)
  refine h.valid rfl ⟨rfl, rfl, rfl, rfl, rfl⟩ ⟨?_, ?_, ?_, ?_, ?_, ?_, ?_, ?_, ?_, ?_, ?_, ?_, ?_⟩
  · rw [hissued]
    exact hdate _
  · rw [hexpires]
    exact hdate _
  · rw [hissued, hexpires]
    rfl
  · exact required_of_passes (h.get rfl (by decide)) (href _ (by decide))
  · exact required_of_passes (h.get rfl (by decide)) (href _ (by decide))
  · exact required_of_passes (h.get rfl (by decide)) (href _ (by decide))
  · exact required_of_passes (h.get rfl (by decide)) (href _ (by decide))
  · rw [hrootsGet]
    exact rootCheck_sealed (by rw [hlist]; rfl) (sha256Json_of_public hroots) (h.get rfl (by decide))
  · have hscopes : g.get (js "scopes") = some (strings [js "recall"]) := h.get rfl (by decide)
    rw [hscopes]
    rfl
  · rw [huses]
    rfl
  · exact required_of_passes (h.get rfl (by decide)) hdigest
  · exact h.signatureCheck rfl
  · exact h.identity rfl rfl

/-- An accepted grant without a window. -/
theorem grant_without_window : ∃ g, validateCapabilityGrant reference g = [] ∧ ¬ Window reference g := by
  obtain ⟨g, hg⟩ := undated_sealed
  refine ⟨g, undated_valid hg, fun h => ?_⟩
  obtain ⟨t, u, ht, -⟩ := h.dates
  rw [(get_undated hg).1] at ht
  cases ht

theorem grant_window_undated : ∃ g, validateCapabilityGrant reference g = [] ∧ (Window reference g ↔ Explicit reference g) := by
  obtain ⟨g, hg⟩ := undated_sealed
  exact ⟨g, undated_valid hg, grant_window_iff reference g (undated_valid hg)⟩

end ProofNetwork

end EnigmaMemory
