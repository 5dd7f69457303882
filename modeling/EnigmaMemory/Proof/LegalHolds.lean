import EnigmaMemory.Proof.Enterprise

/-!
# What legal holds cover

A memory has an address, an identifier, a subject and a scope. A hold covers the memories that have one of
the values it gives; a request targets the memories that have all the values it gives, so that a request
without identifiers may be about any memory.

* `covers_iff`: what the evaluation compares.
* `hold_blocks_iff`: when an active hold blocks the deletion of what it covers.
-/

namespace EnigmaMemory.Enterprise

open Json Mesh

variable {P : Platform} {policy request hold : Json}

inductive Identifier where
  | memory_addr
  | memory_id
  | subject_id
  deriving DecidableEq

def Identifier.ofRequest (request : Json) : Identifier → Option Json
  | .memory_addr => requestMemoryAddr request
  | .memory_id => requestMemoryId request
  | .subject_id => requestSubjectId request

/-- What a hold gives for an identifier; a text is an address. -/
def Identifier.ofHold : Json → Identifier → Option Json
  | .str s, .memory_addr => some (.str s)
  | .obj fs, .memory_addr => orElse ((Json.obj fs).get (js "memory_addr")) ((Json.obj fs).get (js "memoryAddr"))
  | .obj fs, .memory_id => orElse ((Json.obj fs).get (js "memory_id")) ((Json.obj fs).get (js "memoryId"))
  | .obj fs, .subject_id => orElse ((Json.obj fs).get (js "subject_id")) ((Json.obj fs).get (js "subjectId"))
  | _, _ => none

/-- The hash of the scope of a hold, given or taken. -/
def scopeOf (P : Platform) : Json → Option Json
  | .obj fs => firstOf [(Json.obj fs).get (js "scope_hash"), (Json.obj fs).get (js "scopeHash"), scopeHash P (.obj fs)]
  | _ => none

def IsActive : Json → Prop
  | .str _ => True
  | .obj fs =>
    let status := orElse ((Json.obj fs).get (js "status")) (some (holdActivity (.obj fs)))
    truthy status = true → status = some (.str (js "active"))
  | _ => False

/-- The field gives a value that can be compared: not empty, and no object. -/
def Names (value : Option Json) (v : Json) : Prop := value = some v ∧ truthy value = true ∧ sameValue v v = true

structure Memory where
  identifiers : Identifier → Json
  scope_hash : Json

/-- **The memories that a hold covers.** -/
def CoversMemory (P : Platform) (hold : Json) (m : Memory) : Prop :=
  IsActive hold ∧ ((∃ id v, Names (id.ofHold hold) v ∧ m.identifiers id = v) ∨ Names (scopeOf P hold) m.scope_hash)

/-- **The memories that a request may be about.** -/
def Targets (request : Json) (m : Memory) : Prop := ∀ id v, Names (Identifier.ofRequest request id) v → m.identifiers id = v

/-- The request gives every identifier that an active hold gives, and no hold goes by scope. -/
def Comparable (P : Platform) (policy request : Json) : Prop :=
  ∀ hold ∈ itemsOf (legalHolds policy), IsActive hold →
    (∀ v, ¬ Names (scopeOf P hold) v) ∧ ∀ id v, Names (id.ofHold hold) v → ∃ w, Names (Identifier.ofRequest request id) w

/-! ## Comparisons -/

theorem sameValue_eq {a b : Json} (h : sameValue a b = true) : a = b := by
  cases a <;> cases b <;> simp_all [sameValue]

theorem Names.unique {value : Option Json} {v w : Json} (hv : Names value v) (hw : Names value w) : v = w :=
  Option.some.inj (hv.1.symm.trans hw.1)

theorem bothAre_iff {a b : Option Json} : bothAre a b = true ↔ ∃ v, Names a v ∧ Names b v := by
  rw [bothAre, Bool.and_eq_true, Bool.and_eq_true]
  constructor
  · rintro ⟨⟨ha, hb⟩, hequal⟩
    cases a with
    | none => cases ha
    | some v =>
      cases b with
      | none => cases hb
      | some w =>
        obtain rfl := sameValue_eq hequal
        exact ⟨v, ⟨rfl, ha, hequal⟩, rfl, hb, hequal⟩
  · rintro ⟨v, ⟨rfl, ha, hequal⟩, rfl, hb, -⟩
    exact ⟨⟨ha, hb⟩, hequal⟩

/-- **Like is compared with like.** -/
theorem covers_iff : Covers hold request ↔
    IsActive hold ∧ ∃ id v, Names (Identifier.ofHold hold id) v ∧ Names (Identifier.ofRequest request id) v := by
  have hid : ∀ p : Identifier → Prop, (∃ id, p id) ↔ p .memory_addr ∨ p .memory_id ∨ p .subject_id := fun p =>
    ⟨fun ⟨id, h⟩ => by cases id <;> simp [h], fun h => by rcases h with h | h | h <;> exact ⟨_, h⟩⟩
  rw [hid fun id => ∃ v, Names (Identifier.ofHold hold id) v ∧ Names (Identifier.ofRequest request id) v]
  simp only [← bothAre_iff]
  cases hold with
  | str s => simp [Covers, IsActive, Identifier.ofHold, Identifier.ofRequest, bothAre_none]
  | obj fs => rfl
  | _ => simp [Covers, IsActive]

/-! ## Deletion -/

variable {time : ℤ} {r : EnterpriseEvaluation}

/-- **When legal holds block deletion.** An evaluation that allows an operation `delete` leaves everything
alone that an active hold covers just when the policy does not permit the request, or every active hold can
be compared with the request: it has no scope, and the request gives each identifier that the hold gives. -/
theorem hold_blocks_iff (h : evaluateEnterprisePolicy P time policy request = .ok r)
    (hdelete : operationOf P request = some (js "delete")) :
    (r.allowed = true → ∀ hold ∈ itemsOf (legalHolds policy), ∀ m, CoversMemory P hold m → ¬ Targets request m) ↔
      (isPolicy policy = true → Permits P policy request → Comparable P policy request) := by
  rw [allowed_iff h]
  constructor
  · intro hblocks hpolicy hpermits hold hmem hactive
    have hfree := hblocks ⟨hpolicy, hpermits⟩ hold hmem
    constructor
    · intro v hscope
      refine hfree ⟨fun id => (id.ofRequest request).getD .null, v⟩ ⟨hactive, .inr hscope⟩ fun id w hw => ?_
      show (id.ofRequest request).getD .null = w
      rw [hw.1, Option.getD_some]
    · intro id v hv
      by_contra hnone
      refine hfree ⟨fun id' => if id' = id then v else (id'.ofRequest request).getD .null, .null⟩
        ⟨hactive, .inl ⟨id, v, hv, if_pos rfl⟩⟩ fun id' w hw => ?_
      by_cases hid : id' = id
      · exact absurd ⟨w, hid ▸ hw⟩ hnone
      · simp only [if_neg hid, hw.1, Option.getD_some]
  · rintro hcomparable ⟨hpolicy, hpermits⟩ hold hmem m ⟨hactive, hcovers⟩ htargets
    obtain ⟨hscope, hgiven⟩ := hcomparable hpolicy hpermits hold hmem hactive
    rcases hcovers with ⟨id, v, hv, hm⟩ | hv
    · obtain ⟨w, hw⟩ := hgiven id v hv
      obtain rfl : v = w := hm.symm.trans (htargets id w hw)
      exact hpermits.unheld hdelete hold hmem (covers_iff.2 ⟨hactive, id, v, hv, hw⟩)
    · exact hscope _ hv

/-! ## A deletion that names nothing -/

/-- A policy that holds the memory at the address `a` and lets `delete` pass. -/
def heldPolicy : Json :=
  .obj [(js "schema", .str POLICY_SCHEMA), (js "allowed_operations", .str (js "delete")), (js "allowed_providers", .str (js "a")),
    (js "allowed_models", .str (js "a")), (js "allowed_regions", .str (js "a")), (js "allowed_purposes", .str (js "a")),
    (js "legal_holds", .str (js "a"))]

def namelessRequest : Json :=
  .obj [(js "operation", .str (js "delete")), (js "provider", .str (js "a")), (js "model", .str (js "a")), (js "region", .str (js "a")),
    (js "purpose", .str (js "a")), (js "sensitivity", .str (js "low"))]

theorem operationOf_nameless : operationOf P namelessRequest = some (js "delete") := by
  simp [operationOf, namelessRequest, js, utf16, toText]

theorem nameless_permits : Permits P heldPolicy namelessRequest := by
  have ha : js "a" ≠ [] := by simp [js, utf16]
  refine ⟨⟨js "delete", operationOf_nameless, ?_⟩, ?_, ?_, ?_, ?_, ⟨.str (js "low"), ?_, ?_, ?_⟩, ?_, fun _ hold hmem => ?_⟩
  · exact lists_single (by simp [js, utf16])
  · simpa [namelessRequest, heldPolicy, allowedProviders, orElse] using listed_single ha
  · simpa [namelessRequest, heldPolicy, allowedModels, orElse] using listed_single ha
  · simpa [namelessRequest, heldPolicy, allowedRegions, orElse] using listed_single ha
  · simpa [namelessRequest, heldPolicy, allowedPurposes, orElse] using listed_single ha
  · simp [namelessRequest]
  · simp [truthy, js, utf16]
  · simp [Lists, deniedSensitivities, heldPolicy, firstOf, orElse, itemsOf]
  · simp [asksLegalHoldDelete, namelessRequest, strictEq]
  · obtain rfl : hold = .str (js "a") := by simpa [legalHolds, heldPolicy, orElse, itemsOf] using hmem
    simp [Covers, bothAre, requestMemoryAddr, namelessRequest, orElse, strictEq, truthy]

theorem isPolicy_held : isPolicy heldPolicy = true := by simp [isPolicy, heldPolicy, isPlainRecord]

theorem evaluate_nameless : ∃ r, evaluateEnterprisePolicy P 0 heldPolicy namelessRequest = .ok r := by
  have htime : evaluationTime P 0 namelessRequest = .ok (P.isoText 0) := by simp [evaluationTime, namelessRequest, nowIso]
  exact ⟨_, Except.bind_eq_ok.2 ⟨_, htime, if_pos isPolicy_held⟩⟩

/-- The memory at the address that is held. -/
def heldMemory : Memory := ⟨fun _ => .str (js "a"), .null⟩

theorem held_covers : CoversMemory P (.str (js "a")) heldMemory :=
  ⟨trivial, .inl ⟨.memory_addr, .str (js "a"), ⟨rfl, rfl, by simp [sameValue]⟩, rfl⟩⟩

theorem nameless_targets : Targets namelessRequest heldMemory := by
  rintro (_ | _ | _) v ⟨h, -⟩ <;>
    simp [Identifier.ofRequest, requestMemoryAddr, requestMemoryId, requestSubjectId, namelessRequest, orElse] at h

/-- **A deletion that names nothing is allowed**, whatever is held. -/
theorem nameless_deletion_allowed : ¬ ∀ policy request r, evaluateEnterprisePolicy reference 0 policy request = .ok r →
    operationOf reference request = some (js "delete") → r.allowed = true →
      ∀ hold ∈ itemsOf (legalHolds policy), ∀ m, CoversMemory reference hold m → ¬ Targets request m := by
  intro h
  obtain ⟨r, hr⟩ := evaluate_nameless (P := reference)
  refine h _ _ r hr operationOf_nameless ((allowed_iff hr).2 ⟨isPolicy_held, nameless_permits⟩) (.str (js "a")) ?_ heldMemory
    held_covers nameless_targets
  simp [legalHolds, heldPolicy, orElse, itemsOf]

theorem hold_blocks_nameless : ∃ r, evaluateEnterprisePolicy reference 0 heldPolicy namelessRequest = .ok r ∧
    ((r.allowed = true → ∀ hold ∈ itemsOf (legalHolds heldPolicy), ∀ m, CoversMemory reference hold m → ¬ Targets namelessRequest m) ↔
      (isPolicy heldPolicy = true → Permits reference heldPolicy namelessRequest → Comparable reference heldPolicy namelessRequest)) := by
  obtain ⟨r, hr⟩ := evaluate_nameless (P := reference)
  exact ⟨r, hr, hold_blocks_iff hr operationOf_nameless⟩

end EnigmaMemory.Enterprise
