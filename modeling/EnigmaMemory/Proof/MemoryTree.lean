import EnigmaMemory.Proof.Reference
import EnigmaMemory.Spec.MemoryTree

/-!
# What inclusion proofs of the memory tree bind

The byte strings that are hashed form a hash tree scheme (`scheme`): the prefixes keep leaves and
nodes apart, and two digests of 32 bytes are taken apart again in one way. A leaf is the run of a
key and three byte strings without their lengths, so that what a proof binds is that run.

* `verify_eq_true`: what an accepted proof is.
* `root_commits`: a path from a run to the root of a tree starts at the run of one of its records.
* `verify_honest`: every run of a record has an accepted proof.
* `inclusion_proofs_bind_iff`: all accepted proofs for a presented record are right unless records
  of the list have its run and all of them divide it otherwise.
-/

namespace EnigmaMemory.MemoryTree

open HashTree (Side)

/-! ## The scheme -/

theorem length_sha256 (bufs : List Bytes) : (sha256 bufs).length = 32 := by
  simp [sha256, Sha256.bytes, Sha256.State.words, Sha256.beBytes]

/-- The 32 bytes of a digest. -/
abbrev Digest := { b : Bytes // b.length = 32 }

/-- **The byte strings hashed for a tree form a hash tree scheme.** -/
def scheme : HashTree.Scheme Bytes Bytes Digest where
  hash t := ⟨sha256 [t], length_sha256 _⟩
  leafText := leafText
  nodeText l r := nodeText l.1 r.1
  leaf_inj h := (List.cons.inj h).2
  node_inj {l r l' r'} h := by
    have happ := List.append_inj (List.cons.inj h).2 (l.2.trans l'.2.symm)
    exact ⟨Subtype.ext happ.1, Subtype.ext happ.2⟩
  leaf_ne_node h := absurd (List.cons.inj h).1 (by decide)

theorem hashPayload_eq (p : Payload) : hashPayload p = (scheme.leaf p.run).1 := by
  simp [hashPayload, HashTree.Scheme.leaf, scheme, leafText, Payload.run, sha256]

theorem hashNode_eq (l r : Digest) : hashNode l.1 r.1 = (scheme.node l r).1 := by
  simp [hashNode, HashTree.Scheme.node, scheme, nodeText, sha256]

theorem hashNode_val (a b : Digest) : Subtype.val (scheme.node a b) = hashNode a.1 b.1 := (hashNode_eq a b).symm

/-! ## Bytes as text -/

theorem hex_inj : ∀ {a b : Bytes}, hex a = hex b → a = b
  | [], [], _ => rfl
  | [], y :: b, h => by simp [hex] at h
  | x :: a, [], h => by simp [hex] at h
  | x :: a, y :: b, h => by
    simp only [hex, List.flatMap_cons, List.cons_append, List.nil_append, List.cons.injEq] at h
    obtain ⟨hhigh, hlow, hrest⟩ := h
    have h1 := hexDigit_inj (by omega) (by omega) hhigh
    have h2 := hexDigit_inj (Nat.mod_lt _ (by decide)) (Nat.mod_lt _ (by decide)) hlow
    rw [Fin.ext (show x.val = y.val by omega), hex_inj hrest]

theorem digitValue_hexDigit {n : ℕ} (h : n < 16) : digitValue (hexDigit n) = some n := by
  have key : ∀ m < 16, digitValue (hexDigit m) = some m := by decide
  exact key n h

@[simp] theorem ofHex_hex (b : Bytes) : ofHex (hex b) = b := by
  induction b with
  | nil => rfl
  | cons x b ih =>
    have hx : Fin.ofNat 256 (16 * (x.val / 16) + x.val % 16) = x := by
      rw [Nat.div_add_mod]
      exact Fin.ofNat_val_eq_self x
    have hhex : hex (x :: b) = hexDigit (x.val / 16) :: hexDigit (x.val % 16) :: hex b := rfl
    rw [hhex, ofHex, digitValue_hexDigit (by omega), digitValue_hexDigit (Nat.mod_lt _ (by decide)), ih]
    exact congrArg (· :: b) hx

/-! ## Levels -/

/-- The loop of `buildTree` puts the levels on top of each other. -/
theorem buildLevels_eq (fuel : ℕ) : ∀ (level : List Bytes) (below : List (List Bytes)),
    buildLevels fuel (level :: below) = (HashTree.dupLevels hashNode fuel level).reverse ++ below := by
  induction fuel with
  | zero => intro level below; rfl
  | succ fuel ih =>
    intro level below
    rw [buildLevels, List.headD_cons]
    split
    · rename_i hl
      rw [ih, HashTree.dupLevels_succ hashNode hl, List.reverse_cons, List.append_assoc]
      rfl
    · rename_i hl
      rw [HashTree.dupLevels_short hashNode (by omega)]
      rfl

theorem headD_reverse {α : Type} (l : List α) (d : α) : l.reverse.headD d = l.getLast?.getD d := by
  rw [← List.head?_reverse, List.headD_eq_head?_getD]

variable (P : Platform)

theorem levels_reverse {records : List MemoryRecord} (hne : records ≠ []) :
    (buildMemoryMerkleTree P records).levels.reverse =
      HashTree.dupLevels hashNode (leafHashes P records).length (leafHashes P records) := by
  have hleaves : leafHashes P records ≠ [] := by
    simpa [leafHashes, sortRecords, ← List.length_eq_zero_iff, List.length_insertionSort] using hne
  rw [buildMemoryMerkleTree, buildTree, if_neg hleaves]
  simp only [buildLevels_eq, List.append_nil, List.reverse_reverse]

theorem root_eq {records : List MemoryRecord} (hne : records ≠ []) :
    (buildMemoryMerkleTree P records).root =
      ((buildMemoryMerkleTree P records).levels.reverse.getLast?.getD []).headD [] := by
  have hleaves : leafHashes P records ≠ [] := by
    simpa [leafHashes, sortRecords, ← List.length_eq_zero_iff, List.length_insertionSort] using hne
  rw [buildMemoryMerkleTree, buildTree, if_neg hleaves, ← headD_reverse, List.reverse_reverse]

/-- The runs of the records, in the order of the leaves. -/
def runs (records : List MemoryRecord) : List Bytes := (sortRecords P records).map fun r => (r.payload P).run

theorem mem_runs {records : List MemoryRecord} {b : Bytes} :
    b ∈ runs P records ↔ ∃ r ∈ records, (r.payload P).run = b := by
  simp [runs, sortRecords]

theorem leafHashes_eq (records : List MemoryRecord) :
    leafHashes P records = ((runs P records).map scheme.leaf).map Subtype.val := by
  rw [runs, List.map_map, List.map_map]
  exact List.map_congr_left fun r _ => hashPayload_eq _

/-- The levels in digests. -/
def digestLevels (records : List MemoryRecord) : List (List Digest) :=
  HashTree.dupLevels scheme.node (runs P records).length ((runs P records).map scheme.leaf)

theorem levels_eq {records : List MemoryRecord} (hne : records ≠ []) :
    (buildMemoryMerkleTree P records).levels.reverse = (digestLevels P records).map (List.map Subtype.val) := by
  rw [levels_reverse P hne, digestLevels, HashTree.map_dupLevels scheme.node hashNode Subtype.val hashNode_val,
    ← leafHashes_eq]
  congr 1
  rw [leafHashes_eq, List.length_map, List.length_map]

theorem root_of_top {records : List MemoryRecord} (hne : records ≠ []) {d : Digest}
    (h : (digestLevels P records).getLast? = some [d]) : (buildMemoryMerkleTree P records).root = d.1 := by
  rw [root_eq P hne, levels_eq P hne, List.getLast?_map, h]
  rfl

theorem treeTexts_eq {records : List MemoryRecord} (hne : records ≠ []) :
    treeTexts P records = (runs P records).map leafText ++ HashTree.dupLevelTexts scheme.nodeText (digestLevels P records) := by
  rw [treeTexts, if_neg hne, levels_eq P hne, HashTree.dupLevelTexts_map scheme.nodeText nodeText Subtype.val (fun _ _ => rfl),
    runs, List.map_map]
  rfl

/-! ## Accepted proofs -/

variable (bufferOf : Json → Except JsError Bytes)

/-- A sibling that is read is a digest, on the side of the index. -/
theorem readSibling_ok {index : Numeric} {sibling : Json} {s : Side × Bytes}
    (h : readSibling bufferOf index sibling = .ok s) :
    s.1 = (if isOdd index then .left else .right) ∧ s.2.length = 32 := by
  rw [readSibling, Except.bind_eq_ok] at h
  obtain ⟨b, -, h⟩ := h
  split at h
  · rename_i hlen
    cases h
    exact ⟨rfl, hlen⟩
  · cases h

theorem step_val (c : Digest) (side : Side) (d : Digest) :
    HashTree.step hashNode c.1 (side, d.1) = (HashTree.step scheme.node c (side, d)).1 := by
  cases side with
  | left => exact hashNode_eq d c
  | right => exact hashNode_eq c d

theorem replayTexts_cons {index : Numeric} {sibling : Json} {side : Side} {d : Digest}
    (h : readSibling bufferOf index sibling = .ok (side, d.1)) (c : Digest) (rest : List Json) :
    replayTexts bufferOf index c.1 (sibling :: rest) = scheme.stepText c (side, d) ::
      replayTexts bufferOf (half index) (HashTree.step scheme.node c (side, d)).1 rest := by
  rw [replayTexts, h, ← step_val]
  cases side <;> rfl

/-- The loop climbs a path, hashing its texts. -/
theorem replay_ok : ∀ (siblings : List Json) (index : Numeric) (c : Digest) (top : Bytes),
    replay bufferOf index c.1 siblings = .ok top → ∃ path : List (Side × Digest),
      (HashTree.climb scheme.node c path).1 = top ∧ scheme.climbTexts c path = replayTexts bufferOf index c.1 siblings
  | [], index, c, top, h => by
    cases h
    exact ⟨[], rfl, rfl⟩
  | sibling :: rest, index, c, top, h => by
    rw [replay, Except.bind_eq_ok] at h
    obtain ⟨⟨side, b⟩, hread, h⟩ := h
    obtain ⟨-, hlen⟩ := readSibling_ok bufferOf hread
    rw [step_val c side ⟨b, hlen⟩] at h
    obtain ⟨path, htop, htexts⟩ := replay_ok rest (half index) _ top h
    refine ⟨(side, ⟨b, hlen⟩) :: path, htop, ?_⟩
    rw [HashTree.Scheme.climbTexts, htexts]
    exact (replayTexts_cons bufferOf (d := ⟨b, hlen⟩) hread c rest).symm

theorem proofField_ok {proof value : Json} {key : String} :
    proofField proof key = .ok value ↔ proof.get (js key) = some value ∧ Json.truthy (some value) = true := by
  rw [proofField]
  cases proof.get (js key) with
  | none => simp
  | some v =>
    simp only [Option.some.injEq]
    split
    · rename_i ht
      simp only [Except.ok.injEq]
      constructor
      · rintro rfl
        exact ⟨rfl, ht⟩
      · exact fun h => h.1
    · rename_i ht
      refine iff_of_false (fun h => nomatch h) ?_
      rintro ⟨rfl, h⟩
      exact ht h

/-- **What an accepted proof is**: a path that leads from the run of the presented record to the root. -/
theorem verify_eq_true {key : JsString} {proof record : Json} (hrecord : proof.get (js "record") = some record)
    (h : verify P bufferOf key proof = .ok true) : ∃ payload path,
      payloadOf P bufferOf key record = .ok payload ∧
      proof.get (js "root") = some (.str (hex (HashTree.climb scheme.node (scheme.leaf payload.run) path).1)) ∧
      verifyTexts P bufferOf key proof = leafText payload.run :: scheme.climbTexts (scheme.leaf payload.run) path := by
  rw [verify] at h
  simp only [Except.bind_eq_ok] at h
  obtain ⟨⟨⟩, -, record', hr, siblings, hs, root, hroot, payload, hp, sibs, hitems, top, hreplay, h⟩ := h
  obtain rfl : record' = record := Option.some.inj ((proofField_ok.1 hr).1.symm.trans hrecord)
  have hstr : Json.isStr (some root) (hex top) = true := Except.ok.inj h
  rw [hashPayload_eq] at hreplay
  obtain ⟨path, htop, htexts⟩ := replay_ok bufferOf sibs _ _ _ hreplay
  refine ⟨payload, path, hp, ?_, ?_⟩
  · rw [(proofField_ok.1 hroot).1, htop]
    exact Json.isStr_iff.1 hstr
  · rw [verifyTexts, hrecord, Option.map_some, hp, (proofField_ok.1 hs).1]
    simp only [hitems, htexts, hashPayload_eq]

/-- No path leads to the root of the empty tree, the digest of no bytes. -/
theorem root_ne_empty {D : Set Bytes} (hinj : Set.InjOn (fun b => sha256 [b]) D) (hD : [] ∈ D) {b : Bytes}
    {path : List (Side × Digest)} (hleaf : leafText b ∈ D) (hpath : ∀ x ∈ scheme.climbTexts (scheme.leaf b) path, x ∈ D) :
    (HashTree.climb scheme.node (scheme.leaf b) path).1 ≠ (buildMemoryMerkleTree P []).root := by
  intro h
  -- the text hashed last is no empty one
  obtain ⟨x, hx, hne, hlast⟩ : ∃ x ∈ D, x ≠ [] ∧ (HashTree.climb scheme.node (scheme.leaf b) path).1 = sha256 [x] := by
    rcases List.eq_nil_or_concat path with rfl | ⟨init, s, rfl⟩
    · exact ⟨leafText b, hleaf, List.cons_ne_nil _ _, rfl⟩
    · rw [List.concat_eq_append] at hpath ⊢
      rw [HashTree.Scheme.climbTexts_append] at hpath
      refine ⟨_, hpath _ (List.mem_append_right _ (List.mem_singleton_self _)), ?_, ?_⟩
      · obtain ⟨side, d⟩ := s
        cases side <;> exact List.cons_ne_nil _ _
      · rw [HashTree.climb, List.foldl_append]
        exact congrArg Subtype.val (scheme.step_eq_hash _ s)
  exact hne (hinj hx hD (hlast.symm.trans h))

/-- **A path from a run to the root of a tree starts at the run of one of its records.** -/
theorem root_commits {D : Set Bytes} (hinj : Set.InjOn (fun b => sha256 [b]) D) {records : List MemoryRecord}
    (htree : ∀ x ∈ treeTexts P records, x ∈ D) {b : Bytes} {path : List (Side × Digest)} (hleaf : leafText b ∈ D)
    (hpath : ∀ x ∈ scheme.climbTexts (scheme.leaf b) path, x ∈ D)
    (hroot : (HashTree.climb scheme.node (scheme.leaf b) path).1 = (buildMemoryMerkleTree P records).root) :
    ∃ r ∈ records, (r.payload P).run = b := by
  have hne : records ≠ [] := by
    rintro rfl
    exact root_ne_empty P hinj (htree [] (by simp [treeTexts])) hleaf hpath hroot
  rw [treeTexts_eq P hne] at htree
  have hruns : runs P records ≠ [] := by
    simpa [runs, sortRecords, ← List.length_eq_zero_iff, List.length_insertionSort] using hne
  obtain ⟨t, hfringe, htop, htexts⟩ := HashTree.exists_dupTree scheme hruns
  have hscheme : Set.InjOn scheme.hash D := fun x hx y hy h => hinj hx hy (congrArg Subtype.val h)
  have hmem := scheme.climb_sound hscheme hleaf path t (fun x hx => htree x (List.mem_append.2 (htexts x hx))) hpath
    (Subtype.ext (hroot.trans (root_of_top P hne htop)))
  exact (mem_runs P).1 (hfringe b hmem)

/-! ## Honest proofs -/

theorem isOdd_natCast (n : ℕ) : isOdd (.finite n) = decide (n % 2 = 1) := by
  have hfloor : ⌊(n : ℚ) / 2⌋ = (n / 2 : ℕ) := by
    rw [show (n : ℚ) / 2 = ((n : ℤ) : ℚ) / ((2 : ℕ) : ℚ) by norm_num, Rat.floor_intCast_div_natCast]
    rfl
  rw [isOdd, hfloor, decide_eq_decide]
  have hcast : (n : ℚ) - 2 * (((n / 2 : ℕ) : ℤ) : ℚ) = ((n % 2 : ℕ) : ℚ) := by
    have hdiv : 2 * ((n / 2 : ℕ) : ℚ) + ((n % 2 : ℕ) : ℚ) = n := by exact_mod_cast Nat.div_add_mod n 2
    rw [Int.cast_natCast]
    linarith
  rw [hcast]
  constructor
  · rintro ⟨-, h⟩
    exact_mod_cast h
  · intro h
    exact ⟨Nat.cast_nonneg n, by rw [h, Nat.cast_one]⟩

theorem half_natCast (n : ℕ) : half (.finite n) = .finite ((n / 2 : ℕ) : ℚ) := by
  rw [half, show (n : ℚ) / 2 = ((n : ℤ) : ℚ) / ((2 : ℕ) : ℚ) by norm_num, Rat.floor_intCast_div_natCast]
  rfl

/-- A sibling is read back where the index has its side. -/
theorem readSibling_siblingJson {i : ℕ} {side : Side} (hside : side = .left ↔ i % 2 = 1) (d : Digest) :
    readSibling bufferOf (.finite i) (siblingJson (side, d.1)) = .ok (side, d.1) := by
  have hread : bufferFrom bufferOf ofHex ((siblingJson (side, d.1)).get (js "hash")) = .ok d.1 := by
    rw [siblingJson, Json.get_obj_cons, if_pos rfl, bufferFrom, ofHex_hex]
  rw [readSibling, hread, isOdd_natCast]
  cases side with
  | left => rw [decide_eq_true (hside.1 rfl)]; exact if_pos d.2
  | right => rw [decide_eq_false (fun h => nomatch hside.2 h)]; exact if_pos d.2

theorem siblingsFrom_succ (fuel : ℕ) {level : List Digest} (hl : 1 < level.length) {i : ℕ} {c : Digest} (hc : level[i]? = some c) :
    ∃ side d, (side = Side.left ↔ i % 2 = 1) ∧ HashTree.dupSibling level i = [(side, d)] ∧
      siblingsFrom ((HashTree.dupLevels scheme.node (fuel + 1) level).map (List.map Subtype.val)) i =
        (side, d.1) :: siblingsFrom ((HashTree.dupLevels scheme.node fuel (HashTree.pairDup scheme.node level)).map
          (List.map Subtype.val)) (i / 2) := by
  rw [HashTree.dupLevels_succ scheme.node hl]
  obtain ⟨next, above, hlevels⟩ :=
    List.exists_cons_of_ne_nil (HashTree.dupLevels_ne_nil scheme.node fuel (HashTree.pairDup scheme.node level))
  rw [hlevels, List.map_cons, List.map_cons, siblingsFrom]
  rcases HashTree.dupSibling_cases hc with ⟨k, rfl, hs⟩ | ⟨k, d, rfl, hd, hs⟩
  · refine ⟨.right, _, ⟨fun h => (nomatch h), fun h => by omega⟩, hs, ?_⟩
    rw [if_neg (by omega), if_neg (by omega), List.getElem?_map, List.getElem?_map, hc]
    cases level[2 * k + 1]? <;> rfl
  · refine ⟨.left, _, ⟨fun _ => by omega, fun _ => rfl⟩, hs, ?_⟩
    rw [if_pos (by omega), if_pos (by omega), List.getElem?_map, Nat.add_sub_cancel, hd]
    rfl

/-- The loop over the siblings of a position climbs its path. -/
theorem replay_siblingsFrom (fuel : ℕ) : ∀ (level : List Digest) (i : ℕ) (c : Digest), level[i]? = some c →
    let levels := HashTree.dupLevels scheme.node fuel level
    let siblings := (siblingsFrom (levels.map (List.map Subtype.val)) i).map siblingJson
    replay bufferOf (.finite i) c.1 siblings = .ok (HashTree.climb scheme.node c (HashTree.dupPath levels i)).1 ∧
      replayTexts bufferOf (.finite i) c.1 siblings = scheme.climbTexts c (HashTree.dupPath levels i) := by
  induction fuel with
  | zero => intro level i c hc; exact ⟨rfl, rfl⟩
  | succ fuel ih =>
    intro level i c hc
    by_cases hl : 1 < level.length
    · obtain ⟨side, d, hside, hsib, hsiblings⟩ := siblingsFrom_succ fuel hl hc
      have hup : (HashTree.pairDup scheme.node level)[i / 2]? = some (HashTree.step scheme.node c (side, d)) := by
        have hclimb := HashTree.climb_dupSibling scheme.node hc
        rw [hsib] at hclimb
        exact hclimb
      obtain ⟨hreplay, htexts⟩ := ih _ (i / 2) _ hup
      have hread := readSibling_siblingJson bufferOf hside d
      simp only [hsiblings, HashTree.dupPath_succ scheme.node hl, hsib, List.map_cons, List.cons_append, List.nil_append]
      rw [replay, hread, Except.bind_eq_ok, replayTexts_cons bufferOf hread, HashTree.Scheme.climbTexts, half_natCast, htexts]
      refine ⟨⟨_, rfl, ?_⟩, rfl⟩
      rw [step_val]
      exact hreplay
    · simp only [HashTree.dupLevels_short scheme.node (show level.length ≤ 1 by omega)]
      exact ⟨rfl, rfl⟩

/-- The proof that the tree gives at an index, for a record of one's own. -/
def honestProof (records : List MemoryRecord) (record : Json) (index : ℕ) : Json :=
  .obj [(js "root", .str (hex (buildMemoryMerkleTree P records).root)), (js "record", record),
    (js "siblings", .arr ((siblingsFrom (buildMemoryMerkleTree P records).levels.reverse index).map siblingJson)),
    (js "index", .num index)]

/-- A record that has a payload is an object. -/
theorem truthy_of_payloadOf {key : JsString} {record : Json} {p : Payload} (h : payloadOf P bufferOf key record = .ok p) :
    Json.truthy (some record) = true := by
  cases record with
  | obj fs => rfl
  | _ => cases h

theorem hex_ne_nil {b : Bytes} (h : b.length = 32) : hex b ≠ [] := by
  cases b with
  | nil => cases h
  | cons x b => exact List.cons_ne_nil _ _

/-- A proof shows the path of an index in the tree, for a record. -/
structure ShowsPath (records : List MemoryRecord) (record : Json) (index : ℕ) (proof : Json) : Prop where
  object : isObject proof = true
  root : proof.get (js "root") = some (.str (hex (buildMemoryMerkleTree P records).root))
  record : proof.get (js "record") = some record
  siblings : proof.get (js "siblings") =
    some (.arr ((siblingsFrom (buildMemoryMerkleTree P records).levels.reverse index).map siblingJson))
  index : proof.get (js "index") = some (.num index)

theorem showsPath_honestProof (records : List MemoryRecord) (record : Json) (index : ℕ) :
    ShowsPath P records record index (honestProof P records record index) := by
  constructor <;> simp [honestProof, isObject]

/-- **The path of an index is accepted** for what has the run there, and nothing is hashed that was not
hashed for the tree. -/
theorem verify_path {records : List MemoryRecord} {i : ℕ} {key : JsString} {record proof : Json} {p : Payload}
    (hp : payloadOf P bufferOf key record = .ok p) (hrun : (runs P records)[i]? = some p.run)
    (hproof : ShowsPath P records record i proof) :
    verify P bufferOf key proof = .ok true ∧ ∀ x ∈ verifyTexts P bufferOf key proof, x ∈ treeTexts P records := by
  have hmem := List.mem_of_getElem? hrun
  obtain ⟨r, hr, -⟩ := (mem_runs P).1 hmem
  have hne := List.ne_nil_of_mem hr
  have hi := (List.getElem?_eq_some_iff.1 hrun).1
  have hc : ((runs P records).map scheme.leaf)[i]? = some (scheme.leaf p.run) := by
    rw [List.getElem?_map, hrun]
    rfl
  have htop := HashTree.climb_dupPath scheme.node (runs P records).length _ i _ hc (by rw [List.length_map]; omega)
  have hroot := root_of_top P hne htop
  obtain ⟨hreplay, htexts⟩ := replay_siblingsFrom bufferOf (runs P records).length _ i _ hc
  have hlen : (buildMemoryMerkleTree P records).root.length = 32 := by
    rw [hroot]
    exact (HashTree.climb scheme.node _ _).2
  have hindex : proofIndex P proof = .finite i := by
    simp [proofIndex, hproof.index, Json.orElse]
  rw [← digestLevels, ← levels_eq P hne, ← hashPayload_eq] at hreplay htexts
  constructor
  · have hfields : proofField proof "record" = .ok record :=
      proofField_ok.2 ⟨hproof.record, truthy_of_payloadOf P bufferOf hp⟩
    have hsibsField := proofField_ok.2 ⟨hproof.siblings, rfl⟩
    have hrootOk := proofField_ok.2 ⟨hproof.root, bne_iff_ne.2 (hex_ne_nil hlen)⟩
    have hcheck : checkObject proof = .ok () := if_pos hproof.object
    rw [verify, hcheck, Except.ok_bind, hfields, hsibsField, hrootOk]
    change (payloadOf P bufferOf key record >>= _) = _
    rw [hp, Except.bind_eq_ok]
    refine ⟨p, rfl, ?_⟩
    rw [Except.bind_eq_ok]
    refine ⟨_, rfl, ?_⟩
    rw [Except.bind_eq_ok, hindex]
    exact ⟨_, hreplay, congrArg _ (Json.isStr_iff.2 (by rw [hroot]; rfl))⟩
  · intro x hx
    rw [verifyTexts, hproof.record, Option.map_some, hp, hproof.siblings, hindex] at hx
    simp only [items, htexts] at hx
    rw [treeTexts_eq P hne, List.mem_append]
    rcases List.mem_cons.1 hx with rfl | hx
    · exact .inl (List.mem_map_of_mem hmem)
    · exact .inr (HashTree.climbTexts_dupPath scheme _ _ i _ hc x hx)

/-- **Whatever has the run of a record of the list has an accepted proof**, for which nothing is hashed that
was not hashed for the tree. -/
theorem verify_honest {records : List MemoryRecord} {r : MemoryRecord} (hr : r ∈ records) {key : JsString} {record : Json}
    {p : Payload} (hp : payloadOf P bufferOf key record = .ok p) (hrun : (r.payload P).run = p.run) :
    ∃ i, verify P bufferOf key (honestProof P records record i) = .ok true ∧
      ∀ x ∈ verifyTexts P bufferOf key (honestProof P records record i), x ∈ treeTexts P records := by
  obtain ⟨i, hget⟩ := List.getElem?_of_mem ((mem_runs P).2 ⟨r, hr, hrun⟩)
  exact ⟨i, verify_path P bufferOf hp hget (showsPath_honestProof P records record i)⟩

/-! ## Completeness -/

/-- The sides of a path are those of the index, halved at each step. -/
theorem siblingsFrom_sides : ∀ (levels : List (List Bytes)) (i k : ℕ) (s : Side × Bytes), (siblingsFrom levels i)[k]? = some s →
    (s.1 = .left ↔ i / 2 ^ k % 2 = 1)
  | [], _, _, _, h => by cases h
  | [_], _, _, _, h => by cases h
  | level :: next :: above, i, k, s, h => by
    rw [siblingsFrom] at h
    cases k with
    | zero =>
      cases Option.some.inj h
      rw [pow_zero, Nat.div_one]
      split <;> simp_all
    | succ k =>
      rw [List.getElem?_cons_succ] at h
      rw [siblingsFrom_sides (next :: above) (i / 2) k s h, pow_succ', Nat.div_div_eq_div_mul]

/-- Every turn of a loop that ends has read its sibling. -/
theorem replay_reads : ∀ {siblings : List Json} {index : Numeric} {current top : Bytes},
    replay bufferOf index current siblings = .ok top → ∀ (k : ℕ) (sibling : Json), siblings[k]? = some sibling →
      ∃ hash, readSibling bufferOf (half^[k] index) sibling = .ok (if isOdd (half^[k] index) then .left else .right, hash)
  | [], _, _, _, _, _, _, hk => by cases hk
  | sibling :: rest, index, current, top, h, k, other, hk => by
    rw [replay, Except.bind_eq_ok] at h
    obtain ⟨s, hs, hrest⟩ := h
    cases k with
    | zero =>
      cases Option.some.inj hk
      refine ⟨s.2, ?_⟩
      rw [Function.iterate_zero_apply, hs, ← (readSibling_ok bufferOf hs).1]
    | succ k => exact replay_reads hrest k other hk

theorem half_iterate (i k : ℕ) : half^[k] (.finite i) = .finite ((i / 2 ^ k : ℕ) : ℚ) := by
  induction k with
  | zero => rw [Function.iterate_zero_apply, pow_zero, Nat.div_one]
  | succ k ih => rw [Function.iterate_succ_apply', ih, half_natCast, Nat.div_div_eq_div_mul, pow_succ]

/-- The index of a key is that of the only record that has it. -/
theorem keyToIndex_of_mem {sorted : List MemoryRecord} (hnodup : (sorted.map MemoryRecord.key).Nodup) {r : MemoryRecord}
    (hr : r ∈ sorted) : ∃ i, keyToIndex sorted r.key = some i ∧ sorted[i]? = some r := by
  have hfound : (sorted.reverse.findIdx? (·.key = r.key)).isSome = true := by
    rw [List.findIdx?_isSome, List.any_eq_true]
    exact ⟨r, List.mem_reverse.2 hr, decide_eq_true rfl⟩
  obtain ⟨j, hj⟩ := Option.isSome_iff_exists.1 hfound
  obtain ⟨hlt, hkey, -⟩ := List.findIdx?_eq_some_iff_getElem.1 hj
  rw [List.length_reverse] at hlt
  have hi : sorted.length - 1 - j < sorted.length := by omega
  rw [List.getElem_reverse, decide_eq_true_iff] at hkey
  have hsame : sorted[sorted.length - 1 - j] = r :=
    List.inj_on_of_nodup_map hnodup (List.getElem_mem hi) hr hkey
  refine ⟨sorted.length - 1 - j, by rw [keyToIndex, hj, Option.map_some], ?_⟩
  rw [List.getElem?_eq_getElem hi, hsame]

/-- The proof of a key of the list. -/
theorem prove_of_mem {records : List MemoryRecord} (hnodup : (records.map MemoryRecord.key).Nodup) {r : MemoryRecord}
    (hr : r ∈ records) : ∃ i proof, prove P records r.key = some proof ∧ ShowsPath P records (recordJson r) i proof ∧
      (runs P records)[i]? = some (r.payload P).run := by
  have hperm : (sortRecords P records).Perm records := List.perm_insertionSort _ _
  obtain ⟨i, hindex, hget⟩ := keyToIndex_of_mem ((hperm.map MemoryRecord.key).nodup_iff.2 hnodup) (hperm.mem_iff.2 hr)
  have hprove : prove P records r.key = some (.obj [(js "root", .str (hex (buildMemoryMerkleTree P records).root)),
      (js "record", recordJson r), (js "leafHash", .str (hex (hashPayload (r.payload P)))),
      (js "siblings", .arr ((siblingsFrom (buildMemoryMerkleTree P records).levels.reverse i).map siblingJson)),
      (js "index", .num i)]) := by
    unfold prove
    simp only [hindex, hget, Option.bind_eq_bind, Option.bind_some]
    rfl
  refine ⟨i, _, hprove, ?_, ?_⟩
  · constructor <;> simp [isObject]
  · rw [runs, List.getElem?_map, hget, Option.map_some]

/-- **Inclusion proofs are complete**: every key of a list of records with different keys has a proof with the
root of the tree, which is accepted, and its flags tell the sides that the verifier uses. -/
theorem inclusion_proofs_complete {records : List MemoryRecord} (hnodup : (records.map MemoryRecord.key).Nodup)
    {r : MemoryRecord} (hr : r ∈ records) : ∃ proof siblings, prove P records r.key = some proof ∧
      verify P bufferOf r.key proof = .ok true ∧
      proof.get (js "root") = some (.str (hex (buildMemoryMerkleTree P records).root)) ∧
      proof.get (js "siblings") = some (.arr siblings) ∧
      ∀ k sibling, siblings[k]? = some sibling → ∃ side hash,
        readSibling bufferOf (half^[k] (proofIndex P proof)) sibling = .ok (side, hash) ∧
        sibling.get (js "isRight") = some (.bool (side = .right)) := by
  obtain ⟨i, proof, hprove, hpath, hrun⟩ := prove_of_mem P hnodup hr
  have hp : payloadOf P bufferOf r.key (recordJson r) = .ok (r.payload P) := rfl
  have haccepted := (verify_path P bufferOf hp hrun hpath).1
  refine ⟨proof, _, hprove, haccepted, hpath.root, hpath.siblings, fun k sibling hk => ?_⟩
  rw [verify] at haccepted
  simp only [Except.bind_eq_ok] at haccepted
  obtain ⟨-, -, -, -, siblings, hsiblings, -, -, payload, -, list, hlist, top, hreplay, -⟩ := haccepted
  obtain rfl := Option.some.inj ((proofField_ok.1 hsiblings).1.symm.trans hpath.siblings)
  cases hlist
  obtain ⟨hash, hread⟩ := replay_reads bufferOf hreplay k sibling hk
  have hindex : proofIndex P proof = .finite i := by
    simp [proofIndex, hpath.index, Json.orElse]
  refine ⟨_, hash, hread, ?_⟩
  rw [List.getElem?_map, Option.map_eq_some_iff] at hk
  obtain ⟨s, hs, rfl⟩ := hk
  have hside := siblingsFrom_sides _ i k s hs
  rw [hindex, half_iterate, isOdd_natCast, siblingJson]
  obtain ⟨side, b⟩ := s
  cases side with
  | left =>
    rw [decide_eq_true (hside.1 rfl)]
    simp
  | right =>
    have heven : ¬ i / 2 ^ k % 2 = 1 := by
      intro hodd
      cases hside.2 hodd
    rw [decide_eq_false heven]
    simp

/-- Three records, so that the last leaf is paired with itself. -/
def threeRecords : List MemoryRecord := [⟨js "a", [], [], []⟩, ⟨js "b", [], [], []⟩, ⟨js "c", [], [], []⟩]

theorem inclusion_proofs_complete_three : ∃ proof, prove reference threeRecords (js "c") = some proof ∧
    verify reference (fun _ => .ok []) (js "c") proof = .ok true := by
  have hnodup : (threeRecords.map MemoryRecord.key).Nodup := by decide
  have hmem : ⟨js "c", [], [], []⟩ ∈ threeRecords := by simp [threeRecords]
  obtain ⟨proof, siblings, hprove, haccepted, -⟩ := inclusion_proofs_complete reference (fun _ => .ok []) hnodup hmem
  exact ⟨proof, hprove, haccepted⟩

/-! ## What proofs bind -/

/-- Some records have the run of the payload, and all of these have another key or divide the run at
other places. -/
def Redivided (records : List MemoryRecord) (p : Payload) : Prop :=
  (∃ r ∈ records, (r.payload P).run = p.run) ∧
    ∀ r ∈ records, (r.payload P).run = p.run → r.key ≠ p.key ∨
      (r.payload P).ciphertext.length ≠ p.ciphertext.length ∨ (r.payload P).iv.length ≠ p.iv.length

/-- A run is divided in one way by the key and two lengths. -/
theorem payload_eq {p q : Payload} (hrun : p.run = q.run) (hkey : p.key = q.key)
    (hciphertext : p.ciphertext.length = q.ciphertext.length) (hiv : p.iv.length = q.iv.length) : p = q := by
  obtain ⟨key, ciphertext, iv, tag⟩ := p
  obtain ⟨key', ciphertext', iv', tag'⟩ := q
  obtain rfl : key = key' := hkey
  simp only [Payload.run, List.append_assoc] at hrun
  obtain ⟨rfl, hrest⟩ := List.append_inj (List.append_cancel_left hrun) hciphertext
  obtain ⟨rfl, rfl⟩ := List.append_inj hrest hiv
  rfl

/-- **Accepted inclusion proofs bind key and record unless the run is divided otherwise.** -/
theorem inclusion_proofs_bind_iff {D : Set Bytes} (hinj : Set.InjOn (fun b => sha256 [b]) D) {records : List MemoryRecord}
    (htree : ∀ x ∈ treeTexts P records, x ∈ D) (key : JsString) (record : Json) :
    (∀ proof, proof.get (js "record") = some record → (∀ x ∈ verifyTexts P bufferOf key proof, x ∈ D) →
      verify P bufferOf key proof = .ok true →
      proof.get (js "root") = some (.str (hex (buildMemoryMerkleTree P records).root)) →
      ∃ r ∈ records, payloadOf P bufferOf key record = .ok (r.payload P)) ↔
    ∀ p, payloadOf P bufferOf key record = .ok p → ¬ Redivided P records p := by
  constructor
  · rintro hall p hp ⟨⟨r, hr, hrun⟩, hdivided⟩
    obtain ⟨i, haccepted, htexts⟩ := verify_honest P bufferOf hr hp hrun
    obtain ⟨r', hr', hp'⟩ := hall _ (by simp [honestProof]) (fun x hx => htree x (htexts x hx)) haccepted (by simp [honestProof])
    obtain rfl : p = r'.payload P := Except.ok.inj (hp.symm.trans hp')
    rcases hdivided r' hr' rfl with hne | hne | hne
    · exact hne rfl
    · exact hne rfl
    · exact hne rfl
  · intro hnot proof hrecord htexts haccepted hroot
    obtain ⟨p, path, hp, hpath, hverify⟩ := verify_eq_true P bufferOf hrecord haccepted
    rw [hverify] at htexts
    have hsame := Json.str.inj (Option.some.inj (hpath.symm.trans hroot))
    have hcommits := root_commits P hinj htree (htexts _ List.mem_cons_self)
      (fun x hx => htexts x (List.mem_cons_of_mem _ hx)) (hex_inj hsame)
    by_contra hnone
    refine hnot p hp ⟨hcommits, fun r hr hrun => ?_⟩
    by_contra hdivision
    simp only [not_or, not_not] at hdivision
    exact hnone ⟨r, hr, by rw [hp, payload_eq hrun hdivision.1 hdivision.2.1 hdivision.2.2]⟩

/-- A record of one letter each. -/
def letters (P : Platform) : MemoryRecord := ⟨js "a", P.base64 [98], P.base64 [99], P.base64 [100]⟩

theorem treeTexts_letters : treeTexts P [letters P] = [leafText [97, 98, 99, 100]] := by
  simp [treeTexts, sortRecords, letters, MemoryRecord.payload, Payload.run, P.ofBase64_base64, buildMemoryMerkleTree, buildTree,
    leafHashes, buildLevels, HashTree.dupLevelTexts]
  decide

theorem injOn_letters : Set.InjOn (fun b => sha256 [b]) {x | x ∈ treeTexts P [letters P]} := by
  rw [treeTexts_letters]
  intro x hx y hy _
  rw [List.mem_singleton.1 hx, List.mem_singleton.1 hy]

theorem payloadOf_recordJson (r : MemoryRecord) : payloadOf P bufferOf r.key (recordJson r) = .ok (r.payload P) := rfl

theorem inclusion_proofs_bind_letters : ∃ r ∈ [letters reference],
    payloadOf reference (fun _ => .ok []) (js "a") (recordJson (letters reference)) = .ok (r.payload reference) := by
  obtain ⟨i, haccepted, htexts⟩ := verify_honest reference (fun _ => .ok []) (List.mem_singleton_self (letters reference))
    (payloadOf_recordJson reference (fun _ => .ok []) (letters reference)) rfl
  refine (inclusion_proofs_bind_iff reference (fun _ => .ok []) (injOn_letters reference) (fun _ hx => hx) (js "a")
    (recordJson (letters reference))).2 ?_ _ (by simp [honestProof]) htexts haccepted (by simp [honestProof])
  rintro p hp ⟨-, hdivided⟩
  obtain rfl : (letters reference).payload reference = p := Except.ok.inj hp
  rcases hdivided _ (List.mem_singleton_self _) rfl with hne | hne | hne
  · exact hne rfl
  · exact hne rfl
  · exact hne rfl

/-- The first byte of the ciphertext moved to the key. -/
def shifted (P : Platform) : MemoryRecord := ⟨js "ab", P.base64 [], P.base64 [99], P.base64 [100]⟩

theorem run_shifted : ((letters P).payload P).run = ((shifted P).payload P).run := by
  simp [letters, shifted, MemoryRecord.payload, Payload.run, P.ofBase64_base64]
  decide

/-- A proof for a key that no record has is accepted. -/
theorem redivided_record_accepted : ∃ records key proof, (records.map MemoryRecord.key).Nodup ∧
    (∀ r ∈ records, ∃ ciphertext iv tag,
      r.ciphertext = reference.base64 ciphertext ∧ r.iv = reference.base64 iv ∧ r.tag = reference.base64 tag) ∧
    Set.InjOn (fun b => sha256 [b]) {x | x ∈ treeTexts reference records} ∧
    (∀ x ∈ verifyTexts reference (fun _ => .ok []) key proof, x ∈ treeTexts reference records) ∧
    verify reference (fun _ => .ok []) key proof = .ok true ∧
    proof.get (js "root") = some (.str (hex (buildMemoryMerkleTree reference records).root)) ∧ ∀ r ∈ records, r.key ≠ key := by
  obtain ⟨i, haccepted, htexts⟩ := verify_honest reference (fun _ => .ok []) (List.mem_singleton_self (letters reference))
    (payloadOf_recordJson reference (fun _ => .ok []) (shifted reference)) (run_shifted reference)
  refine ⟨[letters reference], js "ab", _, List.nodup_singleton _, ?_, injOn_letters reference, htexts, haccepted,
    by simp [honestProof], ?_⟩
  · intro r hr
    rw [List.mem_singleton.1 hr]
    exact ⟨_, _, _, rfl, rfl, rfl⟩
  · intro r hr
    rw [List.mem_singleton.1 hr]
    exact js_inj.not.2 (by decide)

end EnigmaMemory.MemoryTree
