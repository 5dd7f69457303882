import EnigmaMemory.Proof.Decimal
import EnigmaMemory.Proof.MerkleRoot

/-!
# Membership proofs

The verifier replays the siblings of a proof and compares the digest it ends with.
Whatever the siblings are, this is a climb from the leaf's digest in the hash tree
scheme (`replay_digests`).

* `verifyMembership_sound`: only values of the set verify against its root.
* `verifyMembership_relabel`: the siblings of any position verify under **any** index
  and size that satisfy `index < size`. In particular honest proofs verify
  (`verifyMembership_membershipProof`).
-/

namespace EnigmaMemory

open HashTree (Side climb step auditPath)

namespace MerkleSet

/-- The JSON of a sibling whose hash is a digest. -/
def digestJson (s : Side × Digest) : Json := siblingJson (Prod.map id Subtype.val s)

theorem readSibling_digest (F : NumberFormat) (s : Side × Digest) :
    readSibling F (digestJson s) = some (Prod.map id Subtype.val s) := by
  obtain ⟨side, h, hh⟩ := s
  have hhash : siblingHash F (digestJson (side, ⟨h, hh⟩)) = h := by
    simp [siblingHash, digestJson, siblingJson, Json.toText]
  have hpos : (digestJson (side, ⟨h, hh⟩)).get (js "position") = some (.str (positionText side)) := by
    simp [digestJson, siblingJson]
  unfold readSibling
  rw [hhash, hpos, hh]
  cases side <;> simp [positionText]

theorem readSibling_isHash {F : NumberFormat} {j : Json} {s : Side × JsString} (h : readSibling F j = some s) :
    isHash s.2 = true := by
  unfold readSibling at h
  by_cases hh : isHash (siblingHash F j) = true
  · rw [hh] at h
    split at h
    · exact absurd h (by simp)
    · split at h
      · rw [← Option.some.inj h]; exact hh
      · split at h
        · rw [← Option.some.inj h]; exact hh
        · exact absurd h (by simp)
  · rw [if_pos (by simpa using hh)] at h
    exact absurd h (by simp)

variable {F : NumberFormat}

theorem step_digest (c : Digest) (s : Side × Digest) :
    step merkleNodeHash c.1 (Prod.map id Subtype.val s) = (step merkleScheme.node c s).1 := by
  obtain ⟨side, d⟩ := s
  cases side <;> rfl

theorem replayTexts_cons {c : Digest} {j : Json} {rest : List Json} {s : Side × Digest}
    (h : readSibling F j = some (Prod.map id Subtype.val s)) :
    replayTexts F c.1 (j :: rest) =
      merkleScheme.stepText c s :: replayTexts F (step merkleScheme.node c s).1 rest := by
  obtain ⟨side, d⟩ := s
  rw [replayTexts, h]
  cases side <;> rfl

/-- **A replay is a climb**, through digests only. -/
theorem replay_digests (siblings : List Json) : ∀ (c : Digest) (r : JsString),
    replaySiblings F c.1 siblings = some r → ∃ path : List (Side × Digest),
      (climb merkleScheme.node c path).1 = r ∧ replayTexts F c.1 siblings = merkleScheme.climbTexts c path := by
  induction siblings with
  | nil =>
    intro c r h
    exact ⟨[], Option.some.inj h, rfl⟩
  | cons j rest ih =>
    intro c r h
    rw [replaySiblings, List.foldlM_cons] at h
    cases hj : readSibling F j with
    | none => rw [hj] at h; exact absurd h (by simp)
    | some s =>
      have hs : readSibling F j = some (Prod.map id Subtype.val (s.1, (⟨s.2, readSibling_isHash hj⟩ : Digest))) := hj
      rw [hs, Option.map_some, Option.bind_eq_bind, Option.bind_some, step_digest] at h
      obtain ⟨path, hp, ht⟩ := ih _ r h
      refine ⟨_ :: path, hp, ?_⟩
      rw [replayTexts_cons hs, ht]
      rfl

/-- Replaying siblings that are digests. -/
theorem replay_digestJson (path : List (Side × Digest)) (c : Digest) :
    replaySiblings F c.1 (path.map digestJson) = some (climb merkleScheme.node c path).1 ∧
      replayTexts F c.1 (path.map digestJson) = merkleScheme.climbTexts c path := by
  induction path generalizing c with
  | nil => exact ⟨rfl, rfl⟩
  | cons s path ih =>
    have hs := readSibling_digest F s
    obtain ⟨h1, h2⟩ := ih (step merkleScheme.node c s)
    constructor
    · rw [List.map_cons, replaySiblings, List.foldlM_cons, hs, Option.map_some, Option.bind_eq_bind,
        Option.bind_some, step_digest]
      exact h1
    · rw [List.map_cons, replayTexts_cons hs, h2]
      rfl

/-! ## What the verifier accepts -/

/-- **When a membership proof verifies.** -/
theorem verifyMembership_iff {proof : Json} {root : JsString} : verifyMembership F proof root = true ↔
    ∃ value index size siblings current, proof.get (js "type") = some (.str (js "membership")) ∧
      proof.get (js "value") = some (.str value) ∧ Json.natural? (proof.get (js "index")) = some index ∧
      Json.natural? (proof.get (js "size")) = some size ∧ proof.get (js "siblings") = some (.arr siblings) ∧
      index < size ∧ replaySiblings F (merkleLeafHash value) siblings = some current ∧
      proof.get (js "root") = some (.str root) ∧ sha256Prefix ++ current = root := by
  constructor
  · intro h
    rw [verifyMembership, Bool.and_eq_true, Json.isStr_iff] at h
    obtain ⟨htype, h⟩ := h
    split at h
    · rename_i value index size siblings hv hi hs hsib
      rw [Bool.and_eq_true, decide_eq_true_eq] at h
      obtain ⟨hlt, h⟩ := h
      split at h
      · rename_i current hc
        rw [Bool.and_eq_true, Json.isStr_iff, decide_eq_true_eq] at h
        exact ⟨value, index, size, siblings, current, htype, hv, hi, hs, hsib, hlt, hc, h.2 ▸ h.1, h.2⟩
      · exact absurd h (by simp)
    · exact absurd h (by simp)
  · rintro ⟨value, index, size, siblings, current, htype, hv, hi, hs, hsib, hlt, hc, hroot, heq⟩
    rw [verifyMembership, Bool.and_eq_true, Json.isStr_iff]
    refine ⟨htype, ?_⟩
    simp [hv, hi, hs, hsib, hlt, hc, hroot, heq]

/-! ## Honest paths -/

/-- The siblings of the value at `position`, under an index of the prover's choice. -/
def relabel (values : List JsString) (position index : ℕ) : Json :=
  .obj [(js "type", .str (js "membership")), (js "value", .str (values.getD position [])),
    (js "index", .num index), (js "size", .num values.length), (js "root", .str (merkleRoot values)),
    (js "siblings", .arr ((auditPath merkleNodeHash values.length (values.map merkleLeafHash) position).map siblingJson))]

theorem membershipProof_eq_relabel (values : List JsString) (index : ℕ) :
    membershipProof values index = relabel values index index := rfl

theorem natural?_natCast (n : ℕ) : Json.natural? (some (.num n)) = some n := by
  simp [Json.natural?]

/-- The audit path of a value, through digests. -/
def digestPath (values : List JsString) (position : ℕ) : List (Side × Digest) :=
  auditPath merkleScheme.node values.length (values.map merkleScheme.leaf) position

theorem siblings_eq_digestPath (values : List JsString) (position : ℕ) :
    (auditPath merkleNodeHash values.length (values.map merkleLeafHash) position).map siblingJson =
      (digestPath values position).map digestJson := by
  rw [map_merkleLeafHash, HashTree.auditPath_map merkleScheme.node merkleNodeHash Subtype.val merkleScheme_node,
    List.map_map]
  rfl

/-- The audit path of a value ends in the root. -/
theorem climb_digestPath {values : List JsString} {position : ℕ} {v : JsString} (hv : values[position]? = some v) :
    sha256Prefix ++ (climb merkleScheme.node (merkleScheme.leaf v) (digestPath values position)).1 = merkleRoot values := by
  have hne : values ≠ [] := by rintro rfl; exact absurd hv (by simp)
  have hleaf : (values.map merkleScheme.leaf)[position]? = some (merkleScheme.leaf v) := by
    rw [List.getElem?_map, hv]; rfl
  have hclimb := HashTree.climb_auditPath merkleScheme.node values.length _ position _ hleaf (by simp)
  have hm := HashTree.map_reduce merkleScheme.node merkleNodeHash Subtype.val merkleScheme_node
    values.length (values.map merkleScheme.leaf)
  rw [hclimb, ← map_merkleLeafHash] at hm
  rw [merkleRoot, if_neg hne, merkleTop, ← hm]
  rfl

theorem relabel_eq {values : List JsString} {position : ℕ} (index : ℕ) {v : JsString} (hv : values[position]? = some v) :
    relabel values position index =
      .obj [(js "type", .str (js "membership")), (js "value", .str v), (js "index", .num index),
        (js "size", .num values.length), (js "root", .str (merkleRoot values)),
        (js "siblings", .arr ((digestPath values position).map digestJson))] := by
  rw [relabel, siblings_eq_digestPath, List.getD_eq_getElem?_getD, hv, Option.getD_some]

/-- **The siblings of any position verify under any index below the size**: the verifier
does not compare the index with the path. -/
theorem verifyMembership_relabel {values : List JsString} {position index : ℕ} {v : JsString}
    (hv : values[position]? = some v) (hi : index < values.length) :
    verifyMembership F (relabel values position index) (merkleRoot values) = true := by
  rw [verifyMembership_iff, relabel_eq index hv]
  refine ⟨v, index, values.length, (digestPath values position).map digestJson, _, ?_, ?_, ?_, ?_, ?_, hi,
    (replay_digestJson _ (merkleScheme.leaf v)).1, ?_, climb_digestPath hv⟩
  · simp
  · simp
  · simpa using natural?_natCast index
  · simpa using natural?_natCast values.length
  · simp
  · simp

theorem verifyMembership_membershipProof {values : List JsString} {index : ℕ} {v : JsString}
    (hv : values[index]? = some v) :
    verifyMembership F (membershipProof values index) (merkleRoot values) = true :=
  verifyMembership_relabel hv (List.getElem?_eq_some_iff.1 hv).1

/-- Verifying the siblings of a position hashes no text that the root did not hash. -/
theorem membershipTexts_relabel {s : MerkleSet} {position : ℕ} (index : ℕ) {v : JsString}
    (hv : s.sortedValues[position]? = some v) :
    ∀ x ∈ membershipTexts F (relabel s.sortedValues position index), x ∈ s.rootTexts := by
  intro x hx
  have hne : s.sortedValues ≠ [] := by intro h; rw [h] at hv; exact absurd hv (by simp)
  have hmem : membershipTexts F (relabel s.sortedValues position index) = merkleLeafText v ::
      merkleScheme.climbTexts (merkleScheme.leaf v) (digestPath s.sortedValues position) := by
    rw [relabel_eq index hv]
    simp only [membershipTexts, Json.get_obj_cons, js_inj, String.reduceEq, if_false, if_true]
    exact congrArg _ (replay_digestJson _ (merkleScheme.leaf v)).2
  rw [rootTexts, if_neg hne, List.mem_append]
  rw [hmem, List.mem_cons] at hx
  rcases hx with rfl | hx
  · exact Or.inl (List.mem_map_of_mem (List.mem_of_getElem? hv))
  · right
    have hleaf : (s.sortedValues.map merkleScheme.leaf)[position]? = some (merkleScheme.leaf v) := by
      rw [List.getElem?_map, hv]; rfl
    rw [map_merkleLeafHash, HashTree.levelTexts_map merkleScheme.node merkleNodeHash merkleScheme.nodeText
      merkleNodeText Subtype.val merkleScheme_node (fun _ _ => rfl)]
    exact merkleScheme.climbTexts_auditPath _ _ _ _ hleaf x hx

/-! ## Soundness -/

/-- The digest that a climb ends with is the digest of a leaf or node text. -/
theorem climb_eq_hash (value : JsString) (path : List (Side × Digest)) : ∃ t : JsString,
    (climb merkleScheme.node (merkleScheme.leaf value) path).1 = sha256Hex t ∧
      t ∈ merkleLeafText value :: merkleScheme.climbTexts (merkleScheme.leaf value) path ∧ t ≠ merkleEmptyText := by
  induction path using List.reverseRecOn with
  | nil => exact ⟨_, rfl, List.mem_cons_self, merkleLeafText_ne_empty value⟩
  | append_singleton p s _ =>
    refine ⟨merkleScheme.stepText (climb merkleScheme.node (merkleScheme.leaf value) p) s, ?_, ?_, ?_⟩
    · rw [climb, List.foldl_append]
      exact congrArg Subtype.val (merkleScheme.step_eq_hash _ s)
    · rw [merkleScheme.climbTexts_append]
      exact List.mem_cons_of_mem _ (List.mem_append_right _ (List.mem_singleton_self _))
    · obtain ⟨side, d⟩ := s
      cases side <;> exact merkleNodeText_ne_empty _ _

/-- **Only a value of the set has a membership proof that verifies against its root**,
whatever the proof is made of. -/
theorem verifyMembership_sound (F : NumberFormat) (s : MerkleSet) (proof : Json)
    (hcf : CollisionFree { x | x ∈ s.rootTexts ∨ x ∈ membershipTexts F proof })
    (h : verifyMembership F proof s.root = true) : ∃ v ∈ s, proof.get (js "value") = some (.str v) := by
  obtain ⟨value, index, size, siblings, current, -, hv, -, -, hsib, -, hreplay, -, hroot⟩ := verifyMembership_iff.1 h
  refine ⟨value, ?_, hv⟩
  obtain ⟨path, hclimb, htexts⟩ := replay_digests siblings (merkleScheme.leaf value) current hreplay
  have hmem : membershipTexts F proof =
      merkleLeafText value :: merkleScheme.climbTexts (merkleScheme.leaf value) path := by
    rw [membershipTexts, hv, hsib, ← htexts]
    rfl
  have hleaf : merkleLeafText value ∈ { x | x ∈ s.rootTexts ∨ x ∈ membershipTexts F proof } :=
    Or.inr (by rw [hmem]; exact List.mem_cons_self)
  have hpath : ∀ x ∈ merkleScheme.climbTexts (merkleScheme.leaf value) path,
      x ∈ { x | x ∈ s.rootTexts ∨ x ∈ membershipTexts F proof } := fun x hx =>
    Or.inr (by rw [hmem]; exact List.mem_cons_of_mem _ hx)
  by_cases hne : s.sortedValues = []
  · -- the path ends in a leaf or node text, and the root of the empty set is neither
    exfalso
    rw [root_of_nil hne, emptyMerkleRoot, prefixedSha256, ← hclimb] at hroot
    have hempty : merkleEmptyText ∈ { x | x ∈ s.rootTexts ∨ x ∈ membershipTexts F proof } :=
      Or.inl (by rw [rootTexts_of_nil hne]; exact List.mem_singleton_self _)
    obtain ⟨t, ht, htD, hte⟩ := climb_eq_hash value path
    rw [ht] at hroot
    refine hte (hcf ?_ hempty (List.append_cancel_left hroot))
    rcases List.mem_cons.1 htD with rfl | h
    · exact hleaf
    · exact hpath t h
  · obtain ⟨t, hf, hr, ht⟩ := exists_merkleTree hne
    rw [hr, ← hclimb] at hroot
    have hin := merkleScheme.climb_sound hcf.injOn_scheme hleaf path t (fun x hx => Or.inl (ht x hx)) hpath
      (Subtype.ext (List.append_cancel_left hroot))
    rw [hf] at hin
    exact mem_sortedValues.1 hin

theorem verifyMembership_sound_pair : ∃ v ∈ (OrdSet.ofList [js "b", js "a"] : MerkleSet),
    (membershipProof [js "a", js "b"] 1).get (js "value") = some (.str v) := by
  have hvalues : sortedValues (OrdSet.ofList [js "b", js "a"]) = [js "a", js "b"] := by decide
  have hcf : CollisionFree { x | x ∈ rootTexts (OrdSet.ofList [js "b", js "a"]) } :=
    collisionFree_of_nodup _ (by decide +kernel)
  have htexts := membershipTexts_relabel (F := decimalFormat) (s := OrdSet.ofList [js "b", js "a"]) 1
    (show _[1]? = some (js "b") by rw [hvalues]; rfl)
  rw [hvalues] at htexts
  refine verifyMembership_sound decimalFormat (OrdSet.ofList [js "b", js "a"]) _ ?_ ?_
  · exact hcf.mono (fun x hx => hx.elim id (htexts x))
  · rw [root, hvalues]
    exact verifyMembership_membershipProof rfl

end MerkleSet

end EnigmaMemory
