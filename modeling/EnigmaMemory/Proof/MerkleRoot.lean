import EnigmaMemory.Proof.JsString
import EnigmaMemory.Spec.MerkleSet

/-!
# What a Merkle root commits to

The leaf and node texts form a hash tree scheme (`merkleScheme`): they start with
different domain names, and a digest has a fixed length, so a node text splits in
one way only. The root of a non-empty set is the root of a tree whose fringe is the
sorted list of its values (`exists_merkleTree`), and therefore determines the set
(`root_eq_iff`).
-/

namespace EnigmaMemory

/-- A string of 64 hexadecimal digits. -/
abbrev Digest := { s : JsString // isHash s = true }

theorem Digest.length (d : Digest) : d.1.length = 64 := by
  have h := d.2
  rw [isHash, Bool.and_eq_true, beq_iff_eq] at h
  exact h.1

theorem merkleLeafText_ne_node (v l r : JsString) : merkleLeafText v ≠ merkleNodeText l r := by
  intro h
  unfold merkleLeafText merkleNodeText at h
  rw [List.append_assoc] at h
  have := (List.append_inj h (by decide)).1
  exact absurd this (by decide)

theorem merkleLeafText_ne_empty (v : JsString) : merkleLeafText v ≠ merkleEmptyText := by
  intro h
  have hd := congrArg (List.take 16) h
  unfold merkleLeafText at hd
  rw [List.take_append_of_le_length (by decide)] at hd
  exact absurd hd (by decide)

theorem merkleNodeText_ne_empty (l r : JsString) : merkleNodeText l r ≠ merkleEmptyText := by
  intro h
  have hd := congrArg (List.take 16) h
  unfold merkleNodeText at hd
  rw [List.append_assoc, List.take_append_of_le_length (by decide)] at hd
  exact absurd hd (by decide)

/-- **The texts hashed by a `MerkleSet` form a hash tree scheme.** -/
def merkleScheme : HashTree.Scheme JsString JsString Digest where
  hash t := ⟨sha256Hex t, isHash_sha256Hex t⟩
  leafText := merkleLeafText
  nodeText l r := merkleNodeText l.1 r.1
  leaf_inj h := List.append_cancel_left h
  node_inj {l r l' r'} h := by
    unfold merkleNodeText at h
    rw [List.append_assoc, List.append_assoc] at h
    have h := List.append_inj (List.append_cancel_left h) (by rw [l.length, l'.length])
    exact ⟨Subtype.ext h.1, Subtype.ext (List.cons.inj h.2).2⟩
  leaf_ne_node := merkleLeafText_ne_node _ _ _

theorem merkleScheme_leaf (v : JsString) : (merkleScheme.leaf v).1 = merkleLeafHash v := rfl

theorem merkleScheme_node (l r : Digest) : (merkleScheme.node l r).1 = merkleNodeHash l.1 r.1 := rfl

theorem map_merkleLeafHash (values : List JsString) :
    values.map merkleLeafHash = (values.map merkleScheme.leaf).map Subtype.val := by
  rw [List.map_map]; rfl

theorem CollisionFree.injOn_scheme {D : Set JsString} (h : CollisionFree D) : Set.InjOn merkleScheme.hash D :=
  fun _ hx _ hy heq => h hx hy (congrArg Subtype.val heq)

namespace MerkleSet

theorem mem_sortedValues {s : MerkleSet} {v : JsString} : v ∈ s.sortedValues ↔ v ∈ s :=
  (List.perm_insertionSort _ _).mem_iff

theorem length_sortedValues (s : MerkleSet) : s.sortedValues.length = s.size :=
  (List.perm_insertionSort _ _).length_eq

theorem sortedValues_eq_nil {s : MerkleSet} : s.sortedValues = [] ↔ s.size = 0 := by
  rw [← length_sortedValues, List.length_eq_zero_iff]

/-- **The root of a non-empty set is the root of a tree over its sorted values**, whose
texts are those that `root` hashes. -/
theorem exists_merkleTree {s : MerkleSet} (hne : s.sortedValues ≠ []) :
    ∃ t : HashTree.Tree JsString, t.fringe = s.sortedValues ∧
      s.root = sha256Prefix ++ (merkleScheme.root t).1 ∧ ∀ x ∈ merkleScheme.texts t, x ∈ s.rootTexts := by
  obtain ⟨t, hf, hr, ht⟩ := HashTree.exists_tree merkleScheme hne
  refine ⟨t, hf, ?_, ?_⟩
  · have hm := HashTree.map_reduce merkleScheme.node merkleNodeHash Subtype.val merkleScheme_node
      s.sortedValues.length (s.sortedValues.map merkleScheme.leaf)
    rw [hr, ← map_merkleLeafHash] at hm
    rw [root, merkleRoot, if_neg hne, merkleTop, ← hm]
    rfl
  · intro x hx
    rw [rootTexts, if_neg hne, List.mem_append, map_merkleLeafHash,
      HashTree.levelTexts_map merkleScheme.node merkleNodeHash merkleScheme.nodeText merkleNodeText Subtype.val
        merkleScheme_node (fun _ _ => rfl)]
    exact ht x hx

theorem root_of_nil {s : MerkleSet} (h : s.sortedValues = []) : s.root = emptyMerkleRoot := by
  rw [root, h]; rfl

theorem rootTexts_of_nil {s : MerkleSet} (h : s.sortedValues = []) : s.rootTexts = [merkleEmptyText] := by
  rw [rootTexts, if_pos h]

/-- The text whose digest a tree's root is differs from the one of the empty set. -/
theorem top_ne_empty (t : HashTree.Tree JsString) : merkleScheme.top t ≠ merkleEmptyText := by
  cases t with
  | leaf v => exact merkleLeafText_ne_empty v
  | node l r => exact merkleNodeText_ne_empty _ _

/-- A non-empty set does not have the root of the empty set. -/
theorem root_ne_empty {D : Set JsString} (hD : CollisionFree D) (hempty : merkleEmptyText ∈ D) {s : MerkleSet}
    (hne : s.sortedValues ≠ []) (hs : ∀ x ∈ s.rootTexts, x ∈ D) : s.root ≠ emptyMerkleRoot := by
  intro h
  obtain ⟨t, -, hr, ht⟩ := exists_merkleTree hne
  rw [hr, emptyMerkleRoot, prefixedSha256, merkleScheme.root_eq_hash] at h
  exact top_ne_empty t (hD (hs _ (ht _ (merkleScheme.top_mem_texts t))) hempty (List.append_cancel_left h))

theorem isRoot_root (s : MerkleSet) : isRoot s.root = true := by
  by_cases h : s.sortedValues = []
  · rw [root_of_nil h]
    exact isRoot_prefixedSha256 _
  · obtain ⟨t, -, hr, -⟩ := exists_merkleTree h
    rw [hr]
    exact isRoot_append (merkleScheme.root t).2

/-- Sets with the same values have the same root. -/
theorem root_congr {s t : MerkleSet} (h : ∀ v, v ∈ s ↔ v ∈ t) : s.root = t.root := by
  rw [root, root, sortedValues, sortedValues, sortStrings, sortStrings, OrdSet.sort_congr h]

/-- **The root commits to the set.** -/
theorem root_eq_iff {D : Set JsString} (hD : CollisionFree D) {s t : MerkleSet}
    (hs : ∀ x ∈ s.rootTexts, x ∈ D) (ht : ∀ x ∈ t.rootTexts, x ∈ D) :
    s.root = t.root ↔ ∀ v, v ∈ s ↔ v ∈ t := by
  refine ⟨?_, root_congr⟩
  intro h
  suffices hv : s.sortedValues = t.sortedValues by
    intro v; rw [← mem_sortedValues, hv, mem_sortedValues]
  by_cases hs0 : s.sortedValues = []
  · have hmem : merkleEmptyText ∈ D := hs _ (by rw [rootTexts_of_nil hs0]; exact List.mem_singleton_self _)
    by_contra hne
    have ht0 : t.sortedValues ≠ [] := fun h0 => hne (hs0.trans h0.symm)
    exact root_ne_empty hD hmem ht0 ht (h.symm.trans (root_of_nil hs0))
  · by_cases ht0 : t.sortedValues = []
    · have hmem : merkleEmptyText ∈ D := ht _ (by rw [rootTexts_of_nil ht0]; exact List.mem_singleton_self _)
      exact absurd (h.trans (root_of_nil ht0)) (root_ne_empty hD hmem hs0 hs)
    · obtain ⟨a, ha, hra, hta⟩ := exists_merkleTree hs0
      obtain ⟨b, hb, hrb, htb⟩ := exists_merkleTree ht0
      rw [hra, hrb] at h
      have hab := merkleScheme.root_inj hD.injOn_scheme a b (fun x hx => hs x (hta x hx))
        (fun x hx => ht x (htb x hx)) (Subtype.ext (List.append_cancel_left h))
      rw [← ha, ← hb, hab]

/-- **Two histories of a set have one root exactly when they end in one set.** -/
theorem run_root_eq_iff (a b : List Op)
    (hcf : CollisionFree { x | x ∈ (run a).rootTexts ∨ x ∈ (run b).rootTexts }) :
    (run a).root = (run b).root ↔ ∀ v, v ∈ run a ↔ v ∈ run b :=
  root_eq_iff hcf (fun _ hx => Or.inl hx) (fun _ hx => Or.inr hx)

theorem run_root_eq_iff_pair :
    (run [.insert (js "b"), .insert (js "a"), .insert (js "b")]).root =
      (run [.insert (js "a"), .insert (js "c"), .delete (js "c"), .insert (js "b")]).root := by
  have htexts : (run [.insert (js "b"), .insert (js "a"), .insert (js "b")]).rootTexts =
      (run [.insert (js "a"), .insert (js "c"), .delete (js "c"), .insert (js "b")]).rootTexts := by decide +kernel
  have hcf : CollisionFree { x | x ∈ (run [.insert (js "b"), .insert (js "a"), .insert (js "b")]).rootTexts } :=
    collisionFree_of_nodup _ (by decide +kernel)
  refine (run_root_eq_iff [.insert (js "b"), .insert (js "a"), .insert (js "b")]
    [.insert (js "a"), .insert (js "c"), .delete (js "c"), .insert (js "b")] ?_).2 ?_
  · rw [← htexts]
    exact hcf.mono (fun x hx => hx.elim id id)
  · intro v
    simp only [run, List.foldl_cons, List.foldl_nil, apply, OrdSet.mem_add, OrdSet.mem_delete,
      OrdSet.not_mem_empty, or_false]
    have hac : js "a" ≠ js "c" := by decide
    constructor
    · rintro (rfl | rfl | rfl)
      · exact Or.inl rfl
      · exact Or.inr ⟨hac, Or.inr rfl⟩
      · exact Or.inl rfl
    · rintro (rfl | ⟨hc, rfl | rfl⟩)
      · exact Or.inl rfl
      · exact absurd rfl hc
      · exact Or.inr (Or.inl rfl)

end MerkleSet

end EnigmaMemory
