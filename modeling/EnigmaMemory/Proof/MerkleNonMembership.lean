import EnigmaMemory.Proof.MerkleMembership

/-!
# Non-membership proofs

A non-membership proof shows the two neighbours of the place where the value would
stand.

* `proofs_complete`: every value has a proof that verifies, of membership or of
  non-membership.
* `verifyNonMembership_sound_iff`: a verified proof shows absence **only for sets with at
  most one value**. The verifier takes the positions of the neighbours from their index
  fields, and nothing ties an index to the sibling path (`verifyMembership_relabel`). In
  a set with two values `a < b` the proof of `b` under index `0` shows the absence of
  `a`.
-/

namespace EnigmaMemory

namespace MerkleSet

variable {F : NumberFormat}

/-! ## The binary search -/

/-- What the search keeps: everything before `low` is below the value, nothing from
`high` on is. -/
structure Between (values : List JsString) (value : JsString) (low high : ℕ) : Prop where
  le : low ≤ high
  high_le : high ≤ values.length
  below : ∀ j v, j < low → values[j]? = some v → v < value
  above : ∀ j v, high ≤ j → values[j]? = some v → ¬ v < value

theorem lowerBoundLoop_spec {values : List JsString} (hs : values.Pairwise (· < ·)) (value : JsString) (fuel : ℕ) :
    ∀ low high, Between values value low high → high - low ≤ fuel →
      Between values value (lowerBoundLoop values value fuel low high) (lowerBoundLoop values value fuel low high) := by
  induction fuel with
  | zero =>
    intro low high h hf
    have he : high = low := by have := h.le; omega
    rw [lowerBoundLoop]
    exact he ▸ h
  | succ fuel ih =>
    intro low high h hf
    rw [lowerBoundLoop]
    split
    · rename_i hlt
      have hmid : (low + high) / 2 < values.length := by have := h.high_le; omega
      have hget : values.getD ((low + high) / 2) [] = values[(low + high) / 2] := by
        rw [List.getD_eq_getElem?_getD, List.getElem?_eq_getElem hmid, Option.getD_some]
      simp only [hget]
      have hord : ∀ i j (hi : i < values.length) (hj : j < values.length), i < j → values[i] < values[j] :=
        List.pairwise_iff_getElem.1 hs
      split
      · -- the middle is below the value, and with it everything before
        rename_i hbelow
        refine ih _ _ ⟨by omega, h.high_le, ?_, h.above⟩ (by omega)
        intro j v hj hv
        obtain ⟨hjl, rfl⟩ := List.getElem?_eq_some_iff.1 hv
        rcases Nat.lt_or_eq_of_le (Nat.lt_succ_iff.1 hj) with hj | hj
        · exact lt_trans (hord j _ hjl hmid hj) hbelow
        · subst hj; exact hbelow
      · rename_i habove
        refine ih _ _ ⟨by omega, by omega, h.below, ?_⟩ (by omega)
        intro j v hj hv hlt'
        obtain ⟨hjl, rfl⟩ := List.getElem?_eq_some_iff.1 hv
        rcases Nat.lt_or_eq_of_le hj with hj | hj
        · exact habove (lt_trans (hord _ j hmid hjl hj) hlt')
        · subst hj; exact habove hlt'
    · rename_i hge
      have he : high = low := by have := h.le; omega
      exact he ▸ h

/-- **`lowerBound` finds the place where a value would stand.** -/
theorem lowerBound_spec {values : List JsString} (hs : values.Pairwise (· < ·)) (value : JsString) :
    Between values value (lowerBound values value) (lowerBound values value) := by
  refine lowerBoundLoop_spec hs value values.length 0 values.length ⟨Nat.zero_le _, le_rfl, ?_, ?_⟩ (by omega)
  · intro j v hj; exact absurd hj (Nat.not_lt_zero j)
  · intro j v hj hv
    have := (List.getElem?_eq_some_iff.1 hv).1
    omega

/-! ## Completeness -/

/-- What the verifier reads off the siblings of a position under an index of the prover's
choice. -/
theorem neighbour_relabel {values : List JsString} {position : ℕ} (index : ℕ) {v : JsString}
    (hv : values[position]? = some v) (hi : index < values.length) :
    neighbour F (some (relabel values position index)) (merkleRoot values) = some ⟨v, index, values.length⟩ := by
  have hvalue : (relabel values position index).get (js "value") = some (.str v) := by
    rw [relabel_eq index hv]; simp
  have hindex : Json.natural? ((relabel values position index).get (js "index")) = some index := by
    rw [relabel_eq index hv]; simpa using natural?_natCast index
  have hsize : Json.natural? ((relabel values position index).get (js "size")) = some values.length := by
    rw [relabel_eq index hv]; simpa using natural?_natCast values.length
  rw [neighbour]
  simp only [verifyMembership_relabel hv hi, if_true, hvalue, hindex, hsize]

theorem isNull_relabel (values : List JsString) (position index : ℕ) :
    isNull (some (relabel values position index)) = false := rfl

/-- The record that `proveNonMembership` returns, with any two neighbours. -/
def nonMembershipProof (values : List JsString) (value : JsString) (predecessor successor : Json) : Json :=
  .obj [(js "type", .str (js "non_membership")), (js "value", .str value),
    (js "size", .num values.length), (js "root", .str (merkleRoot values)),
    (js "predecessor", predecessor), (js "successor", successor)]

/-- **When a proof with the right size and root verifies**, by its neighbours. -/
theorem verifyNonMembership_iff {values : List JsString} {value : JsString} {p s : Json} :
    verifyNonMembership F (nonMembershipProof values value p s) (merkleRoot values) = true ↔
      if values = [] then p = .null ∧ s = .null
      else if isNull (some p) then
        ∃ n, neighbour F (some s) (merkleRoot values) = some n ∧ value < n.value ∧ n.index = 0 ∧ n.size = values.length
      else if isNull (some s) then
        ∃ n, neighbour F (some p) (merkleRoot values) = some n ∧ n.value < value ∧ n.index + 1 = values.length ∧
          n.size = values.length
      else ∃ m n, neighbour F (some p) (merkleRoot values) = some m ∧ neighbour F (some s) (merkleRoot values) = some n ∧
        m.value < value ∧ value < n.value ∧ m.index + 1 = n.index ∧ m.size = values.length ∧ n.size = values.length := by
  have hnull : ∀ j : Json, isNull (some j) = true ↔ j = .null := by
    intro j
    cases j <;> simp [isNull]
  have hnone : ∀ j : Json, j = .null → neighbour F (some j) (merkleRoot values) = none := by
    rintro j rfl; rfl
  have hsize : values = [] ↔ values.length = 0 := List.length_eq_zero_iff.symm
  simp only [verifyNonMembership, nonMembershipProof, Json.get_obj_cons, js_inj, String.reduceEq, if_false, if_true,
    natural?_natCast]
  by_cases hv : values = []
  · subst hv
    simp [hnull, merkleRoot]
  · have hlen : values.length ≠ 0 := fun h => hv (hsize.2 h)
    simp only [if_neg hv, if_neg hlen]
    by_cases hp : p = .null
    · subst hp
      simp only [show isNull (some Json.null) = true from rfl, if_true]
      by_cases hs : s = .null
      · subst hs
        simp [isNull, hnone]
      · have hs' : isNull (some s) = false := by rw [← Bool.not_eq_true, hnull]; exact hs
        cases hn : neighbour F (some s) (merkleRoot values) with
        | none => simp
        | some n => simp [hs', and_assoc]
    · have hp' : isNull (some p) = false := by rw [← Bool.not_eq_true, hnull]; exact hp
      simp only [hp', Bool.false_eq_true, if_false]
      by_cases hs : s = .null
      · subst hs
        simp only [show isNull (some Json.null) = true from rfl, if_true]
        cases hn : neighbour F (some p) (merkleRoot values) with
        | none => simp
        | some n => simp [and_assoc]
      · have hs' : isNull (some s) = false := by rw [← Bool.not_eq_true, hnull]; exact hs
        simp only [hs', Bool.false_eq_true, if_false]
        cases hm : neighbour F (some p) (merkleRoot values) with
        | none => simp
        | some m =>
          cases hn : neighbour F (some s) (merkleRoot values) with
          | none => simp
          | some n => simp [and_assoc]

theorem sortedValues_pairwise (s : MerkleSet) : s.sortedValues.Pairwise (· < ·) := OrdSet.sorted_lt s

theorem isNull_ite (c : Prop) [Decidable c] (values : List JsString) (i : ℕ) :
    isNull (some (if c then membershipProof values i else .null)) = !decide c := by
  by_cases h : c
  · simp [h, membershipProof, isNull]
  · simp [h, isNull]

/-- **Every value has a proof that verifies**: of membership when it is in the set, of
non-membership when it is not. -/
theorem proofs_complete (F : NumberFormat) (s : MerkleSet) (v : JsString) :
    (v ∈ s → ∃ p, s.proveMembership v = .ok p ∧ verifyMembership F p s.root = true) ∧
    (v ∉ s → ∃ p, s.proveNonMembership v = .ok p ∧ verifyNonMembership F p s.root = true) := by
  constructor
  · intro hv
    have hmem : v ∈ s.sortedValues := mem_sortedValues.2 hv
    refine ⟨_, if_pos hmem, verifyMembership_membershipProof (v := v) ?_⟩
    rw [List.getElem?_eq_getElem (List.idxOf_lt_length_of_mem hmem), List.getElem_idxOf]
  · intro hv
    have hmem : v ∉ s.sortedValues := fun h => hv (mem_sortedValues.1 h)
    refine ⟨_, if_neg hmem, ?_⟩
    have hb := lowerBound_spec s.sortedValues_pairwise v
    generalize hi : lowerBound s.sortedValues v = i at hb
    have habove : ∀ x, s.sortedValues[i]? = some x → v < x := by
      intro x hx
      rcases lt_trichotomy v x with h | h | h
      · exact h
      · subst h; exact absurd (List.mem_of_getElem? hx) hmem
      · exact absurd h (hb.above i x le_rfl hx)
    have hle := hb.high_le
    refine verifyNonMembership_iff.2 ?_
    by_cases hnil : s.sortedValues = []
    · rw [if_pos hnil]
      have h0 : s.sortedValues.length = 0 := List.length_eq_zero_iff.2 hnil
      rw [if_neg (by omega), if_neg (by omega)]
      exact ⟨rfl, rfl⟩
    · rw [if_neg hnil, isNull_ite, isNull_ite]
      have hpos := List.length_pos_iff.2 hnil
      by_cases h0 : 0 < i
      · have hpred : s.sortedValues[i - 1]? = some (s.sortedValues[i - 1]) := List.getElem?_eq_getElem (by omega)
        have hp := neighbour_relabel (F := F) (i - 1) hpred (by omega)
        have hlt := hb.below (i - 1) _ (by omega) hpred
        by_cases hn : i < s.sortedValues.length
        · have hsucc : s.sortedValues[i]? = some (s.sortedValues[i]) := List.getElem?_eq_getElem hn
          have hs := neighbour_relabel (F := F) i hsucc hn
          simp only [h0, hn, if_true, decide_true, Bool.not_true, Bool.false_eq_true, if_false]
          exact ⟨_, _, hp, hs, hlt, habove _ hsucc, by simp only; omega, rfl, rfl⟩
        · simp only [h0, hn, if_true, if_false, decide_true, decide_false, Bool.not_true, Bool.not_false,
            Bool.false_eq_true]
          exact ⟨_, hp, hlt, by simp only; omega, rfl⟩
      · have hi0 : i = 0 := by omega
        subst hi0
        have hsucc : s.sortedValues[0]? = some (s.sortedValues[0]) := List.getElem?_eq_getElem hpos
        have hs := neighbour_relabel (F := F) 0 hsucc hpos
        simp only [hpos, if_true, lt_irrefl, if_false, decide_false, Bool.not_false]
        exact ⟨_, hs, habove _ hsucc, rfl, rfl⟩

theorem proofs_complete_triple : ∃ p, proveNonMembership (OrdSet.ofList [js "c", js "a", js "d"]) (js "b") = .ok p ∧
    verifyNonMembership decimalFormat p (root (OrdSet.ofList [js "c", js "a", js "d"])) = true :=
  (proofs_complete decimalFormat (OrdSet.ofList [js "c", js "a", js "d"]) (js "b")).2 (by decide)

/-! ## Soundness and its limit -/

/-- The values of the neighbours of a proof that verifies are in the set. -/
theorem neighbour_mem {s : MerkleSet} {j : Option Json} {n : Neighbour}
    (hcf : CollisionFree { x | x ∈ s.rootTexts ∨ x ∈ (j.map (membershipTexts F)).getD [] })
    (h : neighbour F j s.root = some n) : n.value ∈ s := by
  cases j with
  | none => exact absurd h (by simp [neighbour])
  | some proof =>
    rw [neighbour] at h
    split at h
    · rename_i hver
      obtain ⟨v, hv, hget⟩ := verifyMembership_sound F s proof hcf hver
      split at h
      · rename_i value index size h1 h2 h3
        rw [hget] at h1
        rw [← Option.some.inj h]
        exact (Json.str.inj (Option.some.inj h1)) ▸ hv
      · exact absurd h (by simp)
    · exact absurd h (by simp)

/-- What a verified non-membership proof does show: the set is empty, or one of its
values differs from the absent one. -/
theorem verifyNonMembership_ne {s : MerkleSet} {proof : Json} {v : JsString}
    (hcf : CollisionFree { x | x ∈ s.rootTexts ∨ x ∈ nonMembershipTexts F proof })
    (h : verifyNonMembership F proof s.root = true) (hv : proof.get (js "value") = some (.str v)) :
    s.size = 0 ∨ ∃ w ∈ s, w ≠ v := by
  have hpred : ∀ n, neighbour F (proof.get (js "predecessor")) s.root = some n → n.value ∈ s := fun n hn =>
    neighbour_mem (hcf.mono fun x hx => hx.imp id fun h => by simp [nonMembershipTexts, h]) hn
  have hsucc : ∀ n, neighbour F (proof.get (js "successor")) s.root = some n → n.value ∈ s := fun n hn =>
    neighbour_mem (hcf.mono fun x hx => hx.imp id fun h => by simp [nonMembershipTexts, h]) hn
  simp only [verifyNonMembership, hv, Bool.and_eq_true] at h
  obtain ⟨-, h⟩ := h
  split at h
  · rename_i value size hval hsz
    cases hval
    rw [Bool.and_eq_true] at h
    obtain ⟨-, h⟩ := h
    split at h
    · left
      simp only [Bool.and_eq_true, decide_eq_true_eq] at h
      by_contra hne
      exact root_ne_empty hcf (Or.inr (by simp [nonMembershipTexts])) (fun h0 => hne (sortedValues_eq_nil.1 h0))
        (fun x hx => Or.inl hx) h.2
    · right
      split at h
      · rw [Bool.and_eq_true] at h
        split at h
        · rename_i n hn
          simp only [Bool.and_eq_true, decide_eq_true_eq] at h
          exact ⟨n.value, hsucc n hn, ne_of_gt h.2.1.1⟩
        · exact absurd h.2 (by simp)
      · split at h
        · split at h
          · rename_i n hn
            simp only [Bool.and_eq_true, decide_eq_true_eq] at h
            exact ⟨n.value, hpred n hn, ne_of_lt h.1.1⟩
          · exact absurd h (by simp)
        · split at h
          · rename_i m n hm hn
            simp only [Bool.and_eq_true, decide_eq_true_eq] at h
            exact ⟨m.value, hpred m hm, ne_of_lt h.1.1.1.1⟩
          · exact absurd h (by simp)
  · exact absurd h (by simp)

/-- A proof that the smallest of two or more values is absent: the second value under
index `0` as the successor. -/
def forgedAbsence (values : List JsString) : Json :=
  nonMembershipProof values (values.getD 0 []) .null (relabel values 1 0)

theorem verifyNonMembership_forged {s : MerkleSet} (h2 : 2 ≤ s.size) :
    verifyNonMembership F (forgedAbsence s.sortedValues) s.root = true := by
  have hlen := length_sortedValues s
  have h0 : s.sortedValues[0]? = some (s.sortedValues[0]) := List.getElem?_eq_getElem (by omega)
  have h1 : s.sortedValues[1]? = some (s.sortedValues[1]) := List.getElem?_eq_getElem (by omega)
  have hlt := List.pairwise_iff_getElem.1 s.sortedValues_pairwise 0 1 (by omega) (by omega) (by omega)
  refine verifyNonMembership_iff.2 ?_
  rw [if_neg (by intro h; rw [h] at hlen; simp at hlen; omega)]
  refine (if_pos (show isNull (some .null) = true from rfl)).mpr ⟨_, neighbour_relabel 0 h1 (by omega), ?_, rfl, rfl⟩
  rw [List.getD_eq_getElem?_getD, h0, Option.getD_some]
  exact hlt

theorem nonMembershipTexts_forged {s : MerkleSet} (h2 : 2 ≤ s.size) :
    ∀ x ∈ nonMembershipTexts F (forgedAbsence s.sortedValues), x = merkleEmptyText ∨ x ∈ s.rootTexts := by
  intro x hx
  have hlen := length_sortedValues s
  have h1 : s.sortedValues[1]? = some (s.sortedValues[1]) := List.getElem?_eq_getElem (by omega)
  simp only [nonMembershipTexts, forgedAbsence, nonMembershipProof, Json.get_obj_cons, js_inj, String.reduceEq, if_false,
    if_true, Option.map_some, Option.getD_some, List.mem_cons, List.mem_append] at hx
  rcases hx with (h | h) | h
  · exact Or.inl h
  · exact absurd h List.not_mem_nil
  · exact Or.inr (membershipTexts_relabel 0 h1 x h)

/-- **Non-membership proofs are sound for a set exactly when it has at most one value.** -/
theorem verifyNonMembership_sound_iff (F : NumberFormat) (s : MerkleSet)
    (hcf : CollisionFree { x | x = merkleEmptyText ∨ x ∈ s.rootTexts }) :
    (∀ proof v, CollisionFree { x | x ∈ s.rootTexts ∨ x ∈ nonMembershipTexts F proof } →
      verifyNonMembership F proof s.root = true → proof.get (js "value") = some (.str v) → v ∉ s) ↔ s.size ≤ 1 := by
  constructor
  · intro hsound
    by_contra hsize
    have h2 : 2 ≤ s.size := by omega
    obtain ⟨a, h0⟩ : ∃ a, s.sortedValues[0]? = some a :=
      ⟨_, List.getElem?_eq_getElem (by rw [length_sortedValues]; omega)⟩
    refine hsound (forgedAbsence s.sortedValues) a (hcf.mono fun x hx => ?_) (verifyNonMembership_forged h2) ?_
      (mem_sortedValues.1 (List.mem_of_getElem? h0))
    · rcases hx with h | h
      · exact Or.inr h
      · exact nonMembershipTexts_forged h2 x h
    · simp [forgedAbsence, nonMembershipProof, h0]
  · intro hsize proof v hcf' hver hget hmem
    rcases verifyNonMembership_ne hcf' hver hget with h0 | ⟨w, hw, hne⟩
    · exact absurd (List.length_eq_zero_iff.1 h0 ▸ hmem : v ∈ ([] : List JsString)) List.not_mem_nil
    · -- two different values do not fit in a set of size one
      have hsub : [w, v].Subperm s.elems := List.subperm_of_subset
        (by simp [hne]) (by intro x hx; simp at hx; rcases hx with rfl | rfl; exacts [hw, hmem])
      have := hsub.length_le
      simp at this
      exact absurd this (by rw [← OrdSet.size]; omega)

/-- The texts hashed for the set of `a` and `b` do not collide. -/
theorem pair_collisionFree :
    CollisionFree { x | x = merkleEmptyText ∨ x ∈ rootTexts (OrdSet.ofList [js "a", js "b"]) } :=
  (collisionFree_of_nodup (merkleEmptyText :: rootTexts (OrdSet.ofList [js "a", js "b"]))
    (by decide +kernel)).mono fun _ hx => List.mem_cons.2 hx

theorem verifyNonMembership_sound_iff_pair :
    CollisionFree { x | x = merkleEmptyText ∨ x ∈ rootTexts (OrdSet.ofList [js "a", js "b"]) } ∧
    ((∀ proof v, CollisionFree { x | x ∈ rootTexts (OrdSet.ofList [js "a", js "b"]) ∨
        x ∈ nonMembershipTexts decimalFormat proof } →
      verifyNonMembership decimalFormat proof (root (OrdSet.ofList [js "a", js "b"])) = true →
      proof.get (js "value") = some (.str v) → v ∉ (OrdSet.ofList [js "a", js "b"] : MerkleSet)) ↔
      OrdSet.size (OrdSet.ofList [js "a", js "b"]) ≤ 1) :=
  ⟨pair_collisionFree, verifyNonMembership_sound_iff decimalFormat _ pair_collisionFree⟩

/-- In the set of `a` and `b`, a proof that `a` is absent verifies. -/
theorem forgedAbsence_pair :
    CollisionFree { x | x ∈ rootTexts (OrdSet.ofList [js "a", js "b"]) ∨
      x ∈ nonMembershipTexts decimalFormat (forgedAbsence [js "a", js "b"]) } ∧
    verifyNonMembership decimalFormat (forgedAbsence [js "a", js "b"])
      (root (OrdSet.ofList [js "a", js "b"])) = true ∧
    (forgedAbsence [js "a", js "b"]).get (js "value") = some (.str (js "a")) ∧
    js "a" ∈ (OrdSet.ofList [js "a", js "b"] : MerkleSet) := by
  have hvalues : sortedValues (OrdSet.ofList [js "a", js "b"]) = [js "a", js "b"] := by decide
  have h2 : 2 ≤ OrdSet.size (OrdSet.ofList [js "a", js "b"]) := by decide
  refine ⟨pair_collisionFree.mono ?_, ?_, ?_, by decide⟩
  · rintro x (hx | hx)
    · exact Or.inr hx
    · rw [← hvalues] at hx
      exact nonMembershipTexts_forged h2 x hx
  · rw [← hvalues]
    exact verifyNonMembership_forged h2
  · simp [forgedAbsence, nonMembershipProof]

end MerkleSet

end EnigmaMemory
