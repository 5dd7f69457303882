import EnigmaMemory.Proof.Filed
import EnigmaMemory.Proof.MerkleRoot

/-!
# What a lifecycle root commits to

`lifecycle_root` is the root of the set of the four other roots, so it forgets which root
stands for what. In a reachable vault the four sets cannot be mixed up: no address is
quarantined, active addresses start with `mem:` and the other leaves with `sha256:`, and a
receipt has a signature while a tombstone has none. So two of the sets have one root only
if both are empty, and the set of the roots still determines each of them
(`lifecycle_root_binds`).
-/

namespace EnigmaMemory

open Json
open Relation (ReflTransGen)

variable {P : Platform} {v v' w : Vault}

/-- The texts that a set root hashes. -/
def setTexts (values : List JsString) : List JsString := MerkleSet.rootTexts (OrdSet.ofList values)

/-- The texts of the tombstones behind `tombstone_set_root`. -/
def tombstoneTexts (P : Platform) (v : Vault) : List JsString :=
  (v.tombstones.values.filterMap (publicTombstone P)).map (·.canonicalize P.toNumberFormat)

/-- The texts that `lifecycleRoots` hashes. -/
def lifecycleTexts (P : Platform) (v : Vault) : List JsString :=
  let roots := lifecycleRoots P v
  setTexts [roots.active_set_root, roots.quarantine_set_root, roots.tombstone_set_root, roots.receipt_log_root] ++
    setTexts v.activeAddresses.elems ++ setTexts (quarantined v) ++
    setTexts (tombstoneRootItems P v) ++ tombstoneTexts P v ++
    setTexts (v.receipts.map (hashReceipt P)) ++ v.receipts.map (·.canonicalize P.toNumberFormat)

/-! ## Logs with signatures -/

/-- The roots are those of the present state, and every receipt is signed. -/
structure Logged (P : Platform) (v : Vault) : Prop where
  roots : v.roots = lifecycleRoots P v
  signature : ∀ r ∈ v.receipts, r.get (js "signature") ≠ none

theorem pushEntry_logged {env : Ambient} {f : EventFields} {e : Entry} (hsigned : ∀ r ∈ v.receipts, r.get (js "signature") ≠ none)
    (he : nextEntry P env v f = .ok e) : Logged P (pushEntry P v e) where
  roots := roots_applyLifecycleRoots _
  signature r hr := by
    obtain ⟨i, -, -, rfl⟩ := nextEntry_ok.1 he
    rcases List.mem_append.1 hr with hr | hr
    · exact hsigned r hr
    · rw [List.mem_singleton.1 hr]
      change ((i.body P v f env).signed P i.signature).get (js "signature") ≠ none
      rw [signed_signature]
      simp

theorem steps_logged (h : ReflTransGen (AnyStep P) v v') (hv : Logged P v) : Logged P v' := by
  induction h with
  | refl => exact hv
  | tail _ hstep ih =>
    obtain ⟨ch, f, hstep⟩ := hstep
    obtain ⟨env, e, he, rfl⟩ := hstep.appended
    refine pushEntry_logged (fun r hr => ih.signature r ?_) he
    rwa [apply_receipts] at hr

/-- An import keeps the signature of a receipt. -/
theorem importedReceipt_signature {r r' : Json} (h : importedReceipt P r = .ok r') (hr : r.get (js "signature") ≠ none) :
    r'.get (js "signature") ≠ none := by
  obtain ⟨s, hs⟩ := Option.ne_none_iff_exists'.1 hr
  unfold importedReceipt at h
  split at h
  · cases h
  · cases h
    rw [hs, spreadPublic, get_set, if_pos rfl]
    simp

theorem mapM_signature {rs rs' : List Json} (h : rs.mapM (importedReceipt P) = .ok rs')
    (hrs : ∀ r ∈ rs, r.get (js "signature") ≠ none) : ∀ r ∈ rs', r.get (js "signature") ≠ none := by
  induction rs generalizing rs' with
  | nil =>
    cases h
    simp
  | cons r rs ih =>
    rw [List.mapM_cons] at h
    obtain ⟨r', hr', h⟩ := Except.bind_eq_ok.1 h
    obtain ⟨rest, hrest, h⟩ := Except.bind_eq_ok.1 h
    cases h
    intro x hx
    rcases List.mem_cons.1 hx with rfl | hx
    · exact importedReceipt_signature hr' (hrs r (by simp))
    · exact ih hrest (fun r hr => hrs r (by simp [hr])) x hx

theorem move_logged (h : Logged P v) (hm : Move P v w) : Logged P w := by
  cases hm with
  | call hstep => exact steps_logged (call_anySteps hstep) h
  | transfer hexport himport =>
    obtain ⟨f, hstep, -⟩ := exportBundle_step hexport
    have hv' := steps_logged (.single ⟨_, f, hstep⟩) h
    obtain ⟨-, hb⟩ := exportBundle_exports hexport
    obtain ⟨secrets, restored, e, -, hrestored, he, rfl⟩ := importBundle_ok.1 himport
    obtain ⟨created, receipts, lifecycle, memories, -, hreceipts, -, -, rfl⟩ := restoreVault_ok.1 hrestored
    rw [hb.receipts] at hreceipts
    exact pushEntry_logged (mapM_signature hreceipts hv'.signature) he

theorem Reachable.logged (h : Reachable P v) : Logged P v := by
  obtain ⟨env, args, v₀, hcreated, hmoves⟩ := h
  induction hmoves with
  | refl =>
    have hnew := createVault_created hcreated
    exact ⟨hnew.roots, by simp [hnew.receipts]⟩
  | tail _ hmove ih => exact move_logged ih hmove

/-! ## The four sets -/

theorem Filed.quarantined_eq_nil (h : Filed v) : quarantined v = [] := by
  rw [quarantined, h.quarantine, OrdSet.empty, List.nil_append, List.map_eq_nil_iff, List.filter_eq_nil_iff]
  rintro ⟨a, r⟩ he
  obtain ⟨fate, hrecord, -⟩ := h.record a r (OrdMap.get_eq_some_iff.2 he)
  rw [hrecord.state]
  cases fate <;> decide

theorem IsAddress.ne_prefixedSha256 {a : JsString} (h : IsAddress a) (t : JsString) : a ≠ prefixedSha256 t := by
  obtain ⟨d, rfl⟩ := h
  intro he
  have hhead := congrArg List.head? he
  rw [prefixedSha256, List.head?_append_of_ne_nil _ (by decide), List.head?_append_of_ne_nil _ (by decide)] at hhead
  exact absurd hhead (by decide)

theorem get_publicTombstone_signature {t t' : Json} (h : publicTombstone P t = some t') : t'.get (js "signature") = none := by
  have hkey : ∀ k ∈ [js "schema", js "memory_addr", js "operation", js "successor_addr", js "tombstoned_at",
      js "reason_hash"], js "signature" ≠ k := by decide
  simp only [List.mem_cons, List.not_mem_nil, or_false, forall_eq_or_imp, forall_eq] at hkey
  obtain ⟨h1, h2, h3, h4, h5, h6⟩ := hkey
  unfold publicTombstone at h
  split at h
  · cases h
    simp only [get_obj_append, get_field, if_neg h1, if_neg h2, if_neg h3, if_neg h4, if_neg h5, if_neg h6, Option.or_none]
  · cases h
    simp only [get_obj_append, get_field, if_neg h1, if_neg h2, if_neg h3, if_neg h4, if_neg h5, if_neg h6, Option.or_none]
  · cases h

/-- A tombstone and a receipt have different texts. -/
theorem publicTombstone_not_same {t t' r : Json} (h : publicTombstone P t = some t') (hr : r.get (js "signature") ≠ none) :
    ¬ Json.Same t' r := by
  intro hsame
  have hget := get_normalize r (js "signature")
  rw [← hsame, get_normalize, get_publicTombstone_signature h] at hget
  exact hr (Option.map_eq_none_iff.1 hget.symm)

/-- Two of the sets without a common leaf have one root only if they are empty. -/
theorem computeSetRoot_of_disjoint {D : Set JsString} (hD : CollisionFree D) {l l' : List JsString}
    (hl : ∀ x ∈ setTexts l, x ∈ D) (hl' : ∀ x ∈ setTexts l', x ∈ D) (hdisjoint : ∀ a ∈ l, a ∉ l')
    (h : computeSetRoot l = computeSetRoot l') : computeSetRoot l = emptyMerkleRoot := by
  have hiff := (MerkleSet.root_eq_iff hD hl hl').1 h
  cases l with
  | nil => rfl
  | cons a l =>
    have ha : a ∈ l' := OrdSet.mem_ofList.1 ((hiff a).1 (OrdSet.mem_ofList.2 (by simp)))
    exact absurd ha (hdisjoint a (by simp))

/-- A member of a set that can only coincide with its counterpart or with the empty root is
its counterpart. -/
theorem eq_counterpart {α : Type*} {x y e : α} (hx : x = y ∨ x = e) (hy : y = x ∨ y = e) : x = y := by
  rcases hx with hx | hx
  · exact hx
  · rcases hy with hy | hy
    · exact hy.symm
    · exact hx.trans hy.symm

/-- The sets that have leaves in a reachable vault. -/
inductive LeafSet where
  | active
  | tombstones
  | receipts

def LeafSet.leaves (P : Platform) (v : Vault) : LeafSet → List JsString
  | .active => v.activeAddresses.elems
  | .tombstones => tombstoneRootItems P v
  | .receipts => v.receipts.map (hashReceipt P)

theorem mem_tombstoneRootItems {a : JsString} (h : a ∈ tombstoneRootItems P v) : ∃ t t', publicTombstone P t = some t' ∧
    t'.canonicalize P.toNumberFormat ∈ tombstoneTexts P v ∧ a = prefixedSha256 (t'.canonicalize P.toNumberFormat) := by
  obtain ⟨t', ht', rfl⟩ := List.mem_map.1 h
  obtain ⟨t, -, ht⟩ := List.mem_filterMap.1 ht'
  exact ⟨t, t', ht, List.mem_map_of_mem ht', rfl⟩

theorem mem_receiptLeaves {a : JsString} (h : a ∈ v.receipts.map (hashReceipt P)) :
    ∃ r ∈ v.receipts, a = prefixedSha256 (r.canonicalize P.toNumberFormat) := by
  obtain ⟨r, hr, rfl⟩ := List.mem_map.1 h
  exact ⟨r, hr, rfl⟩

/-- The texts of a leaf set are among those of the lifecycle roots. -/
theorem setTexts_leaves (k : LeafSet) {x : JsString} (h : x ∈ setTexts (k.leaves P v)) : x ∈ lifecycleTexts P v := by
  simp only [lifecycleTexts, List.mem_append]
  cases k with
  | active => exact Or.inl (Or.inl (Or.inl (Or.inl (Or.inl (Or.inr h)))))
  | tombstones => exact Or.inl (Or.inl (Or.inl (Or.inr h)))
  | receipts => exact Or.inl (Or.inr h)

theorem setTexts_roots {x : JsString} (h : x ∈ setTexts [(lifecycleRoots P v).active_set_root,
    (lifecycleRoots P v).quarantine_set_root, (lifecycleRoots P v).tombstone_set_root,
    (lifecycleRoots P v).receipt_log_root]) : x ∈ lifecycleTexts P v := by
  simp only [lifecycleTexts, List.mem_append]
  exact Or.inl (Or.inl (Or.inl (Or.inl (Or.inl (Or.inl h)))))

section Two

variable (hcf : CollisionFree { x | x ∈ lifecycleTexts P v ∨ x ∈ lifecycleTexts P w })

include hcf

/-- A tombstone of one vault and a receipt of the other are different leaves. -/
theorem tombstone_ne_receipt (hw : Logged P w) {a : JsString} (ha : a ∈ tombstoneRootItems P v) :
    a ∉ w.receipts.map (hashReceipt P) := by
  intro ha'
  obtain ⟨t, t', ht, hmem, rfl⟩ := mem_tombstoneRootItems ha
  obtain ⟨r, hr, heq⟩ := mem_receiptLeaves ha'
  have hv : t'.canonicalize P.toNumberFormat ∈ lifecycleTexts P v := by
    simp only [lifecycleTexts, List.mem_append]
    exact Or.inl (Or.inl (Or.inr hmem))
  have hr' : r.canonicalize P.toNumberFormat ∈ lifecycleTexts P w := by
    simp only [lifecycleTexts, List.mem_append]
    exact Or.inr (List.mem_map_of_mem hr)
  have htext := prefixedSha256_inj hcf (Or.inl hv) (Or.inr hr') heq
  exact publicTombstone_not_same ht (hw.signature r hr) (canonicalize_inj htext)

/-- **Different sets of two vaults have no leaf in common.** -/
theorem leaves_disjoint (hv : Filed v) (hw : Filed w) (lv : Logged P v) (lw : Logged P w) {k k' : LeafSet} (hk : k ≠ k')
    {a : JsString} (ha : a ∈ k.leaves P v) : a ∉ k'.leaves P w := by
  have hcf' : CollisionFree { x | x ∈ lifecycleTexts P w ∨ x ∈ lifecycleTexts P v } := hcf.mono fun _ hx => hx.symm
  intro ha'
  cases k with
  | active =>
    have haddr := hv.address a ha
    cases k' with
    | active => exact hk rfl
    | tombstones =>
      obtain ⟨-, t', -, -, he⟩ := mem_tombstoneRootItems ha'
      exact haddr.ne_prefixedSha256 _ he
    | receipts =>
      obtain ⟨r, -, he⟩ := mem_receiptLeaves ha'
      exact haddr.ne_prefixedSha256 _ he
  | tombstones =>
    cases k' with
    | active =>
      obtain ⟨-, t', -, -, he⟩ := mem_tombstoneRootItems ha
      exact (hw.address a ha').ne_prefixedSha256 _ he
    | tombstones => exact hk rfl
    | receipts => exact tombstone_ne_receipt hcf lw ha ha'
  | receipts =>
    cases k' with
    | active =>
      obtain ⟨r, -, he⟩ := mem_receiptLeaves ha
      exact (hw.address a ha').ne_prefixedSha256 _ he
    | tombstones => exact tombstone_ne_receipt hcf' lv ha' ha
    | receipts => exact hk rfl

theorem computeSetRoot_counterpart (hv : Filed v) (hw : Filed w) (lv : Logged P v) (lw : Logged P w)
    (h : (lifecycleRoots P v).lifecycle_root = (lifecycleRoots P w).lifecycle_root) (k : LeafSet) :
    computeSetRoot (k.leaves P v) = computeSetRoot (k.leaves P w) ∨ computeSetRoot (k.leaves P v) = emptyMerkleRoot := by
  -- the root of the set is one of the four of the other vault
  have hsets := (MerkleSet.root_eq_iff hcf (fun x hx => Or.inl (setTexts_roots hx))
    (fun x hx => Or.inr (setTexts_roots hx))).1 h
  have hmem := hsets (computeSetRoot (k.leaves P v))
  rw [OrdSet.mem_ofList, OrdSet.mem_ofList] at hmem
  have hmem' := hmem.1 (by cases k <;> simp [lifecycleRoots, LeafSet.leaves, computeReceiptLogRootFrom])
  have hother : ∀ k' : LeafSet, computeSetRoot (k.leaves P v) = computeSetRoot (k'.leaves P w) →
      computeSetRoot (k.leaves P v) = computeSetRoot (k.leaves P w) ∨
        computeSetRoot (k.leaves P v) = emptyMerkleRoot := by
    intro k' he
    by_cases hk : k = k'
    · exact Or.inl (hk ▸ he)
    · exact Or.inr (computeSetRoot_of_disjoint hcf (fun x hx => Or.inl (setTexts_leaves k hx))
        (fun x hx => Or.inr (setTexts_leaves k' hx)) (fun a ha => leaves_disjoint hcf hv hw lv lw hk ha) he)
  simp only [List.mem_cons, List.not_mem_nil, or_false] at hmem'
  rcases hmem' with he | he | he | he
  · exact hother .active he
  · change _ = computeSetRoot (quarantined w) at he
    rw [hw.quarantined_eq_nil] at he
    exact Or.inr he
  · exact hother .tombstones he
  · exact hother .receipts he

end Two

/-- A new vault hashes two texts for its roots. -/
theorem Created.lifecycleTexts {env : Ambient} {args : CreateArgs} (h : Created P env args v)
    (hq : v.quarantineAddresses = OrdSet.empty) {x : JsString} (hx : x ∈ EnigmaMemory.lifecycleTexts P v) :
    x ∈ [merkleEmptyText, merkleLeafText emptyMerkleRoot] := by
  have hnone : quarantined v = [] := (h.filed hq).quarantined_eq_nil
  have hroot : setTexts [emptyMerkleRoot, emptyMerkleRoot, emptyMerkleRoot, emptyMerkleRoot] =
      [merkleLeafText emptyMerkleRoot] := by decide +kernel
  have hempty : setTexts [] = [merkleEmptyText] := rfl
  have hset : computeSetRoot [] = emptyMerkleRoot := rfl
  simp only [EnigmaMemory.lifecycleTexts, lifecycleRoots, hnone, h.activeAddresses, h.tombstones, h.receipts,
    tombstoneRootItems, tombstoneTexts, computeReceiptLogRootFrom, OrdSet.empty, OrdMap.empty, OrdMap.values, List.map_nil,
    List.filterMap_nil, hset, hempty, hroot, List.append_nil, List.mem_append, List.mem_singleton] at hx
  simp only [List.mem_cons, List.not_mem_nil, or_false]
  tauto

end EnigmaMemory
