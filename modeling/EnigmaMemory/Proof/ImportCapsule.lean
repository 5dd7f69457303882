import EnigmaMemory.Proof.ImportPreview
import EnigmaMemory.Proof.MeshArtifacts
import EnigmaMemory.Spec.ImportCapsule
import Mathlib.Combinatorics.Hall.Basic
import Mathlib.Data.Set.Card

/-!
# The custody of a capsule

A capsule is `vault_write_backed` when every candidate id is named by a vault write whose receipt verifies. A receipt does not name
the candidate, and nothing keeps two writes from embedding one receipt.

* `vouched_of_backed`: every candidate id of a backed capsule has a receipt that verifies.
* `custody_backed_iff`: the candidate ids have receipts with different addresses, one each, exactly when any of them together have
  at least as many addresses as they are.
-/

namespace EnigmaMemory.Importers

open Json

/-! ## Choosing different representatives -/

/-- Members of a set have different representatives, each from a finite set of its own, if and only if any finitely many of them have
at least as many candidates together. -/
theorem exists_injOn_iff {α β : Type*} [DecidableEq β] (s : Set α) (t : α → Finset β) [Nonempty β] :
    (∃ f : α → β, Set.InjOn f s ∧ ∀ a ∈ s, f a ∈ t a) ↔
      ∀ u : Finset α, (∀ a ∈ u, a ∈ s) → u.card ≤ (u.biUnion t).card := by
  constructor
  · rintro ⟨f, hinj, hmem⟩ u hu
    refine Finset.card_le_card_of_injOn f (fun a ha => ?_) (hinj.mono fun a ha => hu a ha)
    exact Finset.mem_coe.2 (Finset.mem_biUnion.2 ⟨a, ha, hmem a (hu a ha)⟩)
  · intro h
    have hall : ∀ u : Finset s, u.card ≤ (u.biUnion fun a => t a).card := by
      intro u
      have hunion : (u.map (Function.Embedding.subtype (· ∈ s))).biUnion t = u.biUnion fun a => t a := by
        ext b
        simp
      rw [← Finset.card_map (Function.Embedding.subtype (· ∈ s)), ← hunion]
      refine h _ fun a ha => ?_
      obtain ⟨a, -, rfl⟩ := Finset.mem_map.1 ha
      exact a.2
    obtain ⟨f, hinj, hmem⟩ := (Finset.all_card_le_biUnion_card_iff_exists_injective _).1 hall
    classical
    refine ⟨fun a => if ha : a ∈ s then f ⟨a, ha⟩ else Classical.arbitrary β, fun a ha b hb hab => ?_, fun a ha => ?_⟩
    · simp only [dif_pos ha, dif_pos hb] at hab
      exact congrArg Subtype.val (hinj hab)
    · simpa only [dif_pos ha] using hmem ⟨a, ha⟩

/-- A list without repetition is no longer than a finite set that has its elements. -/
theorem length_le_ncard {α : Type*} {l : List α} {s : Set α} (hs : s.Finite) (hl : l.Nodup) (hsub : ∀ a ∈ l, a ∈ s) :
    l.length ≤ s.ncard := by
  classical
  rw [← List.toFinset_card_of_nodup hl, ← Set.ncard_coe_finset]
  exact Set.ncard_le_ncard (fun a ha => hsub a (List.mem_toFinset.1 (Finset.mem_coe.1 ha))) hs

/-! ## Custody -/

variable (P : Platform)

/-- The ids of candidates; an empty one is none. -/
def idsOf (candidates : List Json) : Set Json :=
  {id | ∃ candidate ∈ candidates, candidate.get (js "candidate_id") = some id ∧ truthy (some id) = true}

def capsuleCandidates (capsule : Json) : List Json := asArray (path (some capsule) ["payload", "memory_candidates"])

/-- A write to an address that names a candidate and embeds a create receipt that verifies. -/
structure Vouches (write id receipt : Json) (addr : JsString) : Prop where
  candidate : write.get (js "candidate_id") = some id
  embedded : write.get (js "receipt") = some receipt
  verified : canonicalVaultWriteReceipt P write = true
  address : receipt.get (js "memory_addr") = some (.str addr)

/-- The create receipts that reports embed and that verify. -/
def verifiedReceipts (reports : List Json) : Set Json :=
  {receipt | ∃ write ∈ listedWrites reports, write.get (js "receipt") = some receipt ∧ canonicalVaultWriteReceipt P write = true}

/-- Every candidate id has a receipt of its own, to an address of its own, and no more candidates are counted than receipts. -/
structure Backed (reports : List Json) (capsule : Json) : Prop where
  receipts : ∃ (receipt : Json → Json) (addr : Json → JsString), Set.InjOn addr (idsOf (capsuleCandidates capsule)) ∧
    ∀ id ∈ idsOf (capsuleCandidates capsule), ∃ write ∈ listedWrites reports, Vouches P write id (receipt id) (addr id)
  count : ∃ n : ℕ, path (some capsule) ["verifier_metadata", "canonical_candidate_count"] = some (.num n) ∧
    n ≤ (verifiedReceipts P reports).ncard

/-- The addresses that verified writes give a candidate. -/
def vouchedAddresses (reports : List Json) (id : Json) : Finset JsString :=
  ((listedWrites reports).filterMap fun write =>
    if canonicalVaultWriteReceipt P write && strictEq (write.get (js "candidate_id")) (some id) then text? (write.get (js "memory_addr"))
    else none).toFinset

/-- Any of the ids have as many addresses together as they are. -/
def Ample (reports : List Json) (ids : Set Json) : Prop :=
  ∀ s : Finset Json, (∀ id ∈ s, id ∈ ids) → s.card ≤ (s.biUnion (vouchedAddresses P reports)).card

variable {P}

/-! ## What a verified write reads -/

theorem canonical_reads {write : Json} (h : canonicalVaultWriteReceipt P write = true) :
    ∃ receipt, write.get (js "receipt") = some receipt ∧
      strictEq (receipt.get (js "memory_addr")) (write.get (js "memory_addr")) = true ∧
      write.get (js "receipt_hash") = some (.str (rootOf P receipt)) := by
  rw [canonicalVaultWriteReceipt] at h
  split at h
  · rename_i fs publicKey hreceipt hkey
    rw [Bool.and_eq_true, receiptMatches] at h
    simp only [Bool.and_eq_true, isStr_iff] at h
    exact ⟨.obj fs, hreceipt, h.1.1.1.1.1.1.1.1.1.1.1.2, h.1.2⟩
  · cases h

/-- The signer of a receipt may be asked for. -/
theorem verifyReceipt_expected {receipt : Json} {o : VerifyOptions} {id : JsString} (h : verifyReceipt P receipt o = [])
    (hid : isStr (signerKeyId receipt) id = true) : verifyReceipt P receipt { o with expectedSigner := some id } = [] := by
  rw [verifyReceipt] at h ⊢
  split at h
  · cases h
  · rename_i hrecord
    rw [if_neg hrecord]
    simp only [List.append_eq_nil_iff] at h ⊢
    obtain ⟨⟨⟨hfields, -⟩, hreceipt⟩, hsignature⟩ := h
    exact ⟨⟨⟨hfields, by simp [errorIf, hid]⟩, hreceipt⟩, hsignature⟩

theorem text?_eq_some {value : Option Json} {s : JsString} : text? value = some s ↔ value = some (.str s) := by
  rcases value with _ | _ | _ | _ | _ | _ | _ <;> simp [text?]

theorem mem_vouchedAddresses {reports : List Json} {s addr : JsString} :
    addr ∈ vouchedAddresses P reports (.str s) ↔ ∃ write ∈ listedWrites reports, ∃ receipt, Vouches P write (.str s) receipt addr := by
  rw [vouchedAddresses, List.mem_toFinset, List.mem_filterMap]
  constructor
  · rintro ⟨write, hwrite, h⟩
    split at h
    · rename_i hcond
      rw [Bool.and_eq_true, strictEq_str] at hcond
      rw [text?_eq_some] at h
      obtain ⟨receipt, hreceipt, haddr, -⟩ := canonical_reads hcond.1
      rw [h, strictEq_str] at haddr
      exact ⟨write, hwrite, receipt, hcond.2, hreceipt, hcond.1, haddr⟩
    · cases h
  · rintro ⟨write, hwrite, receipt, hv⟩
    obtain ⟨receipt', hreceipt, haddr, -⟩ := canonical_reads hv.verified
    obtain rfl : receipt = receipt' := Option.some.inj (hv.embedded.symm.trans hreceipt)
    refine ⟨write, hwrite, ?_⟩
    rw [hv.verified, strictEq_str.2 hv.candidate, Bool.and_self, if_pos rfl, text?_eq_some]
    rw [hv.address] at haddr
    cases hw : write.get (js "memory_addr") with
    | none => rw [hw] at haddr; cases haddr
    | some a =>
      rw [hw] at haddr
      rw [eq_of_sameValue haddr]

theorem vaultWriteOf_eq_some {write : Json} {w : VaultWrite} (h : vaultWriteOf P write = some w) :
    write.get (js "candidate_id") = some (.str w.candidate_id) ∧ write.get (js "memory_addr") = some (.str w.memory_addr) ∧
      canonicalVaultWriteReceipt P write = true := by
  rw [vaultWriteOf] at h
  split at h
  · rename_i hid haddr hhash
    split at h
    · rename_i hcanonical
      cases h
      exact ⟨hid, haddr, hcanonical⟩
    · cases h
  · cases h

theorem mem_collect {reports : List Json} {w : VaultWrite} (h : w ∈ collectReportVaultWrites P reports) :
    ∃ write ∈ listedWrites reports, vaultWriteOf P write = some w := by
  have hfold : ∀ (writes out : List VaultWrite), w ∈ writes.foldl (fun out write =>
      if write.key ∈ out.map VaultWrite.key then out else out ++ [write]) out → w ∈ writes ∨ w ∈ out := by
    intro writes
    induction writes with
    | nil => exact fun out h => .inr h
    | cons a writes ih =>
      intro out hmem
      rcases ih _ hmem with hw | hw
      · exact .inl (List.mem_cons_of_mem _ hw)
      · dsimp only at hw
        split at hw
        · exact .inr hw
        · rcases List.mem_append.1 hw with hw | hw
          · exact .inr hw
          · exact .inl (List.mem_cons.2 (.inl (List.mem_singleton.1 hw)))
  rcases hfold _ _ h with hw | hw
  · exact List.mem_filterMap.1 hw
  · cases hw

/-- A candidate that a kept write names has a receipt. -/
theorem vouches_of_mem {memoryCandidates reports : List Json} {w : VaultWrite} (h : w ∈ mappedVaultWrites P memoryCandidates reports) :
    ∃ write ∈ listedWrites reports, ∃ receipt, Vouches P write (.str w.candidate_id) receipt w.memory_addr := by
  obtain ⟨write, hwrite, hof⟩ := mem_collect (List.mem_filter.1 h).1
  obtain ⟨hid, haddr, hcanonical⟩ := vaultWriteOf_eq_some hof
  obtain ⟨receipt, hreceipt, hsame, -⟩ := canonical_reads hcanonical
  rw [haddr, strictEq_str] at hsame
  exact ⟨write, hwrite, receipt, hid, hreceipt, hcanonical, hsame⟩

/-! ## The status -/

theorem mem_candidateIds {memoryCandidates : List Json} {id : Json} :
    id ∈ candidateIds memoryCandidates ↔ id ∈ idsOf memoryCandidates := by
  rw [candidateIds, mem_distinctValues, List.mem_filterMap, idsOf, Set.mem_ofPred_eq]
  simp only [Option.filter_eq_some_iff]

theorem hasValue_str {ids : List Json} {s : JsString} : hasValue ids (.str s) = true ↔ .str s ∈ ids := by
  rw [hasValue_iff]
  exact and_iff_left (by simp [sameValue])

theorem mem_canonicalIds {memoryCandidates : List Json} {vaultWrites : List VaultWrite} {s : JsString} :
    s ∈ (canonicalIds memoryCandidates vaultWrites).elems ↔
      (∃ w ∈ vaultWrites, w.candidate_id = s) ∧ .str s ∈ candidateIds memoryCandidates := by
  rw [← OrdSet.mem_def, canonicalIds, OrdSet.mem_ofList, List.mem_filter, hasValue_str, List.mem_map]

/-- In a backed capsule the ids are those that writes name. -/
theorem ids_of_backed {memoryCandidates : List Json} {vaultWrites : List VaultWrite}
    (h : custodyStatus (vaultWriteCounts memoryCandidates vaultWrites) = .vault_write_backed) {id : Json} :
    id ∈ candidateIds memoryCandidates ↔ ∃ s ∈ (canonicalIds memoryCandidates vaultWrites).elems, .str s = id := by
  have hnone : (vaultWriteCounts memoryCandidates vaultWrites).candidate_only_count = 0 := by
    rw [custodyStatus] at h
    split at h
    · cases h
    · omega
  have hlength : (candidateIds memoryCandidates).length ≤ ((canonicalIds memoryCandidates vaultWrites).elems.map Json.str).length := by
    rw [List.length_map]
    exact Nat.sub_eq_zero_iff_le.1 hnone
  have hnodup : ((canonicalIds memoryCandidates vaultWrites).elems.map Json.str).Nodup :=
    (canonicalIds memoryCandidates vaultWrites).nodup.map fun a b hab => Json.str.inj hab
  have hsub : (canonicalIds memoryCandidates vaultWrites).elems.map Json.str ⊆ candidateIds memoryCandidates := by
    intro a ha
    obtain ⟨s, hs, rfl⟩ := List.mem_map.1 ha
    exact (mem_canonicalIds.1 hs).2
  have hperm := (List.subperm_of_subset hnodup hsub).perm_of_length_le hlength
  rw [← hperm.mem_iff, List.mem_map]

/-! ## What a capsule reads -/

theorem reads_of_export {keyPair : JsString × JsString} {now : Now} {args capsule : Json}
    (h : exportEnigmaCapsule P keyPair now args = .ok capsule) :
    capsuleCandidates capsule = exportCandidates P args (exportReports args) ∧
      path (some capsule) ["verifier_metadata", "custody_status"] = some (.str (custodyStatus (vaultWriteCounts
        (exportCandidates P args (exportReports args))
        (mappedVaultWrites P (exportCandidates P args (exportReports args)) (exportReports args)))).text) ∧
      path (some capsule) ["verifier_metadata", "canonical_candidate_count"] = some (.num (vaultWriteCounts
        (exportCandidates P args (exportReports args))
        (mappedVaultWrites P (exportCandidates P args (exportReports args)) (exportReports args))).canonical_candidate_count) := by
  simp only [exportEnigmaCapsule, Except.bind_eq_ok, Except.pure_eq_ok] at h
  obtain ⟨exportedAt, -, node, -, manifest, -, rfl⟩ := h
  refine ⟨?_, ?_, ?_⟩
  · simp [capsuleCandidates, path, get_obj_append, capsulePayload, asArray]
  · simp [path, get_obj_append, verifierMetadata]
  · simp [path, get_obj_append, verifierMetadata]

theorem text_inj {a b : CustodyStatus} (h : a.text = b.text) : a = b := by
  revert h
  cases a <;> cases b <;> simp [CustodyStatus.text]

/-- **Every candidate id of a backed capsule has a receipt that verifies**, if not one of its own. -/
theorem vouched_of_backed {keyPair : JsString × JsString} {now : Now} {args capsule : Json}
    (hexport : exportEnigmaCapsule P keyPair now args = .ok capsule)
    (hstatus : path (some capsule) ["verifier_metadata", "custody_status"] = some (.str CustodyStatus.vault_write_backed.text))
    {id : Json} (hid : id ∈ idsOf (capsuleCandidates capsule)) :
    ∃ write ∈ listedWrites (exportReports args), ∃ receipt addr, Vouches P write id receipt addr := by
  obtain ⟨hcandidates, hread, -⟩ := reads_of_export hexport
  rw [hread] at hstatus
  rw [hcandidates] at hid
  obtain ⟨s, hs, rfl⟩ := (ids_of_backed (text_inj (Json.str.inj (Option.some.inj hstatus)))).1 (mem_candidateIds.2 hid)
  obtain ⟨⟨w, hw, rfl⟩, -⟩ := mem_canonicalIds.1 hs
  obtain ⟨write, hwrite, receipt, hv⟩ := vouches_of_mem hw
  exact ⟨write, hwrite, receipt, _, hv⟩

/-! ## Receipts of their own -/

section Backed

variable {reports memoryCandidates : List Json}

/-- A choice of receipts with different addresses is one of addresses. -/
theorem receipts_iff {ids : Set Json} (hids : ∀ id ∈ ids, ∃ s, id = .str s) :
    (∃ (receipt : Json → Json) (addr : Json → JsString), Set.InjOn addr ids ∧
        ∀ id ∈ ids, ∃ write ∈ listedWrites reports, Vouches P write id (receipt id) (addr id)) ↔
      ∃ addr : Json → JsString, Set.InjOn addr ids ∧ ∀ id ∈ ids, addr id ∈ vouchedAddresses P reports id := by
  constructor
  · rintro ⟨receipt, addr, hinj, hall⟩
    refine ⟨addr, hinj, fun id hid => ?_⟩
    obtain ⟨s, rfl⟩ := hids id hid
    obtain ⟨write, hwrite, hv⟩ := hall _ hid
    exact mem_vouchedAddresses.2 ⟨write, hwrite, _, hv⟩
  · rintro ⟨addr, hinj, hall⟩
    have hreceipt : ∀ id, ∃ receipt, id ∈ ids → ∃ write ∈ listedWrites reports, Vouches P write id receipt (addr id) := by
      intro id
      by_cases hid : id ∈ ids
      · obtain ⟨s, rfl⟩ := hids id hid
        obtain ⟨write, hwrite, receipt, hv⟩ := mem_vouchedAddresses.1 (hall _ hid)
        exact ⟨receipt, fun _ => ⟨write, hwrite, hv⟩⟩
      · exact ⟨.null, fun h => absurd h hid⟩
    choose receipt hreceipt using hreceipt
    exact ⟨receipt, addr, hinj, fun id hid => hreceipt id hid⟩

theorem finite_verifiedReceipts : (verifiedReceipts P reports).Finite := by
  refine (List.finite_toSet ((listedWrites reports).filterMap (·.get (js "receipt")))).subset ?_
  rintro receipt ⟨write, hwrite, hreceipt, -⟩
  exact List.mem_filterMap.2 ⟨write, hwrite, hreceipt⟩

/-- Ids with receipts at different addresses are no more than the receipts. -/
theorem canonical_count_le {vaultWrites : List VaultWrite} {receipt : Json → Json} {addr : Json → JsString}
    (hinj : Set.InjOn addr (idsOf memoryCandidates))
    (hall : ∀ id ∈ idsOf memoryCandidates, ∃ write ∈ listedWrites reports, Vouches P write id (receipt id) (addr id)) :
    (canonicalIds memoryCandidates vaultWrites).size ≤ (verifiedReceipts P reports).ncard := by
  have hid : ∀ s ∈ (canonicalIds memoryCandidates vaultWrites).elems, Json.str s ∈ idsOf memoryCandidates := fun s hs =>
    mem_candidateIds.1 (mem_canonicalIds.1 hs).2
  have hnodup : ((canonicalIds memoryCandidates vaultWrites).elems.map fun s => receipt (.str s)).Nodup := by
    refine (canonicalIds memoryCandidates vaultWrites).nodup.map_on fun a ha b hb hab => ?_
    obtain ⟨_, -, hva⟩ := hall _ (hid a ha)
    obtain ⟨_, -, hvb⟩ := hall _ (hid b hb)
    have haddr : addr (.str a) = addr (.str b) := by
      have h := hva.address
      rw [hab, hvb.address] at h
      exact (Json.str.inj (Option.some.inj h)).symm
    exact Json.str.inj (hinj (hid a ha) (hid b hb) haddr)
  rw [OrdSet.size, ← List.length_map (fun s => receipt (.str s))]
  refine length_le_ncard finite_verifiedReceipts hnodup fun r hr => ?_
  obtain ⟨s, hs, rfl⟩ := List.mem_map.1 hr
  obtain ⟨write, hwrite, hv⟩ := hall _ (hid s hs)
  exact ⟨write, hwrite, hv.embedded, hv.verified⟩

end Backed

/-- **The candidate ids of a backed capsule have receipts of their own exactly when any of them together have as many addresses as
they are**: it fails where candidates share receipts. -/
theorem custody_backed_iff (P : Platform) (keyPair : JsString × JsString) (now : Now) (args capsule : Json)
    (hexport : exportEnigmaCapsule P keyPair now args = .ok capsule)
    (hstatus : path (some capsule) ["verifier_metadata", "custody_status"] = some (.str CustodyStatus.vault_write_backed.text)) :
    Backed P (exportReports args) capsule ↔
      Ample P (exportReports args) (idsOf (exportCandidates P args (exportReports args))) := by
  obtain ⟨hcandidates, hread, hcount⟩ := reads_of_export hexport
  rw [hread] at hstatus
  have hbacked := text_inj (Json.str.inj (Option.some.inj hstatus))
  have hids : ∀ id ∈ idsOf (exportCandidates P args (exportReports args)), ∃ s, id = .str s := by
    intro id hid
    obtain ⟨s, -, rfl⟩ := (ids_of_backed hbacked).1 (mem_candidateIds.2 hid)
    exact ⟨s, rfl⟩
  rw [Ample, ← exists_injOn_iff, ← receipts_iff hids]
  constructor
  · rintro ⟨hreceipts, -⟩
    rwa [hcandidates] at hreceipts
  · rintro ⟨receipt, addr, hinj, hall⟩
    refine ⟨⟨receipt, addr, ?_, ?_⟩, _, hcount, canonical_count_le hinj hall⟩
    · rwa [hcandidates]
    · rwa [hcandidates]

/-! ## Candidates that share a receipt -/

namespace Sample

/-- The create receipt before it is signed. -/
def body : ReceiptBody where
  event_hash := emptyMerkleRoot
  operation := js "create"
  tenant_id := js "t"
  subject_id := js "s"
  sequence := 0
  previous_receipt_hash := genesis
  active_set_root := emptyMerkleRoot
  receipt_log_root := emptyMerkleRoot
  timestamp := DEFAULT_NOW
  signer := signerJson (js "k") ed25519
  memory_addr := some (.str (js "m"))
  source_addr := none
  provider := none
  model := none
  policy_id := none

def receipt : Json := body.signed reference (Reference.sign ((body.unsigned reference).canonicalize reference.toNumberFormat))

/-- A write for a candidate that embeds the receipt. -/
def write (id : JsString) : Json :=
  .obj [(js "candidate_id", .str id), (js "memory_addr", .str (js "m")), (js "receipt_hash", .str (rootOf reference receipt)),
    (js "receipt_public_key", .str (js "p")), (js "receipt", receipt)]

def candidate (id : JsString) : Json := .obj [(js "candidate_id", .str id)]

def report (ids : List JsString) : Json :=
  .obj [(js "memory_candidates", .arr (ids.map candidate)), (js "vault_writes", .arr (ids.map write))]

/-- One report whose candidates are written with one receipt. -/
def args (ids : List JsString) : Json :=
  .obj [(js "reports", .arr [report ids]), (js "node", Mesh.Artifacts.grantNode), (js "expires_at", .str Reference.newYearText)]

theorem signerKeyId_receipt : signerKeyId receipt = some (.str (js "k")) := by
  rw [signerKeyId, receipt, (reads_signed body _).signer]
  rfl

theorem verifyReceipt_receipt : verifyReceipt reference receipt { publicKey := some (js "p"), expectedSigner := some (js "k") } = [] := by
  have hvalid : body.Valid := ⟨by decide +kernel, by decide +kernel, by decide +kernel, .inl rfl⟩
  refine verifyReceipt_expected (o := { publicKey := some (js "p") }) ?_ (isStr_iff.2 signerKeyId_receipt)
  exact verifyReceipt_signed (b := body) hvalid (by decide +kernel) (Reference.sign_unmarked _).1
    (reference_signingKey (js "p") []) rfl rfl rfl

theorem canonical_write (id : JsString) : canonicalVaultWriteReceipt reference (write id) = true := by
  have hr : body.Reads receipt := reads_signed body _
  have hid : receipt.get (js "receipt_id") = some (.str (receiptIdOf reference body.toJson)) := signed_receipt_id body _
  have hsignature : isEd25519 (receipt.get (js "signature")) "value" = true := by
    rw [receipt, signed_signature]
    rfl
  have hsigner : isEd25519 (receipt.get (js "signer")) "key_id" = true := by
    rw [hr.signer]
    rfl
  have hmatches : receiptMatches reference (write id) receipt = true := by
    rw [receiptMatches, hr.schema, hr.operation, hr.memory_addr, hid, hr.event_hash, hr.active_set_root, hr.receipt_log_root,
      hr.previous_receipt_hash, hr.timestamp, hr.sequence, hsigner, hsignature]
    simp [write, isText, isInteger, body, strictEq, sameValue]
  have hreads : (write id).get (js "receipt") = some receipt := rfl
  have hkey : (write id).get (js "receipt_public_key") = some (.str (js "p")) := rfl
  have hobject : ∃ fs, receipt = .obj fs := ⟨_, rfl⟩
  obtain ⟨fs, hfs⟩ := hobject
  rw [canonicalVaultWriteReceipt, hreads, hkey, hfs]
  simp only
  rw [← hfs, hmatches, signerKeyId_receipt, text?, verifyReceipt_receipt]
  rfl

/-- What is kept of a write. -/
def kept (id : JsString) : VaultWrite := ⟨id, js "m", rootOf reference receipt, none⟩

theorem vaultWriteOf_write (id : JsString) : vaultWriteOf reference (write id) = some (kept id) := by
  have hid : (write id).get (js "candidate_id") = some (.str id) := rfl
  have haddr : (write id).get (js "memory_addr") = some (.str (js "m")) := rfl
  have hhash : (write id).get (js "receipt_hash") = some (.str (rootOf reference receipt)) := rfl
  rw [vaultWriteOf, hid, haddr, hhash]
  simp only [canonical_write, if_true]
  rfl

theorem filterMap_write (ids : List JsString) : (ids.map write).filterMap (vaultWriteOf reference) = ids.map kept := by
  induction ids with
  | nil => rfl
  | cons id ids ih => rw [List.map_cons, List.filterMap_cons_some (vaultWriteOf_write id), ih, List.map_cons]

/-- The runs: one candidate with its receipt, and two candidates that share one. -/
def Runs (ids : List JsString) : Prop := ids = [js "a"] ∨ ids = [js "a", js "b"]

theorem exportReports_args (ids : List JsString) : exportReports (args ids) = [report ids] := rfl

theorem listedWrites_report {ids : List JsString} (h : Runs ids) : listedWrites [report ids] = ids.map write := by
  rcases h with rfl | rfl <;> rfl

theorem collect_report {ids : List JsString} (h : Runs ids) : collectReportVaultWrites reference [report ids] = ids.map kept := by
  rw [collectReportVaultWrites, listedWrites_report h, filterMap_write]
  rcases h with rfl | rfl
  · rfl
  · have hkey : (kept (js "b")).key ∉ [(kept (js "a")).key] := by
      rw [List.mem_singleton]
      exact fun h => absurd (List.cons.inj h).1 (by decide)
    have hne : ¬(kept (js "a")).key = (kept (js "b")).key := fun h => hkey (List.mem_singleton.2 h.symm)
    simp [hne]

theorem exportCandidates_args {ids : List JsString} (h : Runs ids) :
    exportCandidates reference (args ids) [report ids] = ids.map candidate := by
  rcases h with rfl | rfl <;> rfl

theorem candidateIds_args {ids : List JsString} (h : Runs ids) : candidateIds (ids.map candidate) = ids.map .str := by
  rcases h with rfl | rfl <;> rfl

theorem status_args {ids : List JsString} (h : Runs ids) :
    vaultWriteCounts (ids.map candidate) (mappedVaultWrites reference (ids.map candidate) [report ids]) = ⟨ids.length, 0, ids.length⟩ := by
  rw [mappedVaultWrites, collect_report h, vaultWriteCounts, canonicalIds, candidateIds_args h]
  rcases h with rfl | rfl <;> rfl

/-- What the manifest is made of, for any roots. -/
def options (payloadHash receiptRoot activeRoot scopeHash : JsString) : Json :=
  .obj [(js "node", Mesh.Artifacts.grantNode), (js "issuer", .str (js "n")), (js "holder", .str (js "holder:importer")),
    (js "encrypted_payload_hash", .str payloadHash), (js "receipt_log_root", .str receiptRoot), (js "active_set_root", .str activeRoot),
    (js "owner_scope_hash", .str scopeHash), (js "issued_at", .str DEFAULT_NOW), (js "expires_at", .str Reference.newYearText)]

theorem manifest_created {payloadHash receiptRoot activeRoot scopeHash : JsString} (hpayload : isRoot payloadHash = true)
    (hreceipts : isRoot receiptRoot = true) (hactive : isRoot activeRoot = true) (hscope : isRoot scopeHash = true) :
    ∃ manifest, Mesh.Artifacts.createCapsuleManifest reference (options payloadHash receiptRoot activeRoot scopeHash) = .ok manifest := by
  have hhash : Mesh.normalizeEncryptedPayloadHash reference (options payloadHash receiptRoot activeRoot scopeHash) = .ok payloadHash := by
    rw [Mesh.normalizeEncryptedPayloadHash, Except.bind_eq_ok]
    exact ⟨none, rfl, Mesh.normalizeRoot_of_isRoot hpayload⟩
  have hquiet : ¬ Mesh.hasPlaintextLeak Mesh.FORBIDDEN_PLAINTEXT_KEYS (options payloadHash receiptRoot activeRoot scopeHash) = true := by
    rw [Bool.not_eq_true]
    rfl
  have hunsigned : ∃ unsigned, Mesh.Artifacts.unsignedCapsule reference (options payloadHash receiptRoot activeRoot scopeHash) =
      .ok unsigned := by
    simp only [Mesh.Artifacts.unsignedCapsule, Mesh.assertNoPlaintext, Except.bind_eq_ok, Mesh.failIf_ok, hhash]
    refine ⟨_, (), hquiet, js "n", rfl, js "holder:importer", rfl, payloadHash, rfl, receiptRoot, Mesh.normalizeRoot_of_isRoot hreceipts,
      activeRoot, Mesh.normalizeRoot_of_isRoot hactive, scopeHash, Mesh.normalizeRoot_of_isRoot hscope, DEFAULT_NOW, ?_,
      Reference.newYearText, ?_, rfl⟩
    · exact Mesh.dateString_ok.2 ⟨rfl, by decide, by decide⟩
    · exact Mesh.dateString_ok.2 ⟨rfl, by decide, by decide⟩
  obtain ⟨unsigned, hunsigned⟩ := hunsigned
  simp only [Mesh.Artifacts.createCapsuleManifest, Mesh.Artifacts.issue, Except.bind_eq_ok, hunsigned, Mesh.Artifacts.createSignature]
  exact ⟨_, unsigned, rfl, _, ⟨some (js "k"), rfl, js "k", rfl, _, rfl, rfl⟩, rfl⟩

theorem export_args (ids : List JsString) : ∃ capsule, exportEnigmaCapsule reference ([], []) .absent (args ids) = .ok capsule := by
  have hscope : ∀ holder reports memoryCandidates, isRoot (ownerScopeHash reference holder reports memoryCandidates) = true := by
    intro holder reports memoryCandidates
    simp only [ownerScopeHash]
    split <;> exact isRoot_prefixedSha256 _
  obtain ⟨manifest, hmanifest⟩ := manifest_created
    (isRoot_prefixedSha256 (hashedText reference (capsulePayload [report ids] (exportCandidates reference (args ids) [report ids])
      DEFAULT_NOW)))
    (MerkleSet.isRoot_root (OrdSet.ofList ((mappedVaultWrites reference (exportCandidates reference (args ids) [report ids])
      [report ids]).map VaultWrite.receipt_hash)))
    (MerkleSet.isRoot_root (OrdSet.ofList ((mappedVaultWrites reference (exportCandidates reference (args ids) [report ids])
      [report ids]).map VaultWrite.memory_addr)))
    (hscope (.str (js "holder:importer")) [report ids] (exportCandidates reference (args ids) [report ids]))
  simp only [exportEnigmaCapsule, Except.bind_eq_ok, exportReports_args]
  exact ⟨_, DEFAULT_NOW, rfl, Mesh.Artifacts.grantNode, rfl, manifest, hmanifest, rfl⟩

/-- What the capsule of a run reads. -/
theorem capsule_args (ids : List JsString) (h : Runs ids) : ∃ capsule,
    exportEnigmaCapsule reference ([], []) .absent (args ids) = .ok capsule ∧
    path (some capsule) ["verifier_metadata", "custody_status"] = some (.str CustodyStatus.vault_write_backed.text) ∧
    path (some capsule) ["verifier_metadata", "canonical_candidate_count"] = some (.num ids.length) := by
  obtain ⟨capsule, hcapsule⟩ := export_args ids
  obtain ⟨-, hstatus, hcount⟩ := reads_of_export hcapsule
  rw [exportReports_args, exportCandidates_args h, status_args h] at hstatus hcount
  refine ⟨capsule, hcapsule, ?_, hcount⟩
  rw [hstatus]
  rcases h with rfl | rfl <;> rfl

theorem verifiedReceipts_args {ids : List JsString} (h : Runs ids) : verifiedReceipts reference [report ids] = {receipt} := by
  ext r
  rw [verifiedReceipts, Set.mem_ofPred_eq, listedWrites_report h, Set.mem_singleton_iff]
  constructor
  · rintro ⟨w, hw, hr, -⟩
    obtain ⟨id, -, rfl⟩ := List.mem_map.1 hw
    exact (Option.some.inj hr).symm
  · rintro rfl
    have hmem : js "a" ∈ ids := by rcases h with rfl | rfl <;> simp
    exact ⟨write (js "a"), List.mem_map_of_mem hmem, rfl, canonical_write _⟩

end Sample

theorem custody_backed_one : ∃ capsule, exportEnigmaCapsule reference ([], []) .absent (Sample.args [js "a"]) = .ok capsule ∧
    (Backed reference (exportReports (Sample.args [js "a"])) capsule ↔ Ample reference (exportReports (Sample.args [js "a"]))
      (idsOf (exportCandidates reference (Sample.args [js "a"]) (exportReports (Sample.args [js "a"]))))) := by
  obtain ⟨capsule, hcapsule, hstatus, -⟩ := Sample.capsule_args [js "a"] (.inl rfl)
  exact ⟨capsule, hcapsule, custody_backed_iff reference ([], []) .absent _ capsule hcapsule hstatus⟩

/-- Two candidates are counted with one receipt. -/
theorem shared_receipt : ∃ capsule, exportEnigmaCapsule reference ([], []) .absent (Sample.args [js "a", js "b"]) = .ok capsule ∧
    path (some capsule) ["verifier_metadata", "custody_status"] = some (.str CustodyStatus.vault_write_backed.text) ∧
    path (some capsule) ["verifier_metadata", "canonical_candidate_count"] = some (.num 2) ∧
    (verifiedReceipts reference (exportReports (Sample.args [js "a", js "b"]))).ncard = 1 ∧
    ¬ Backed reference (exportReports (Sample.args [js "a", js "b"])) capsule := by
  obtain ⟨capsule, hcapsule, hstatus, hcount⟩ := Sample.capsule_args [js "a", js "b"] (.inr rfl)
  have hone : (verifiedReceipts reference (exportReports (Sample.args [js "a", js "b"]))).ncard = 1 := by
    rw [Sample.exportReports_args, Sample.verifiedReceipts_args (.inr rfl), Set.ncard_singleton]
  refine ⟨capsule, hcapsule, hstatus, hcount, hone, fun hbacked => ?_⟩
  obtain ⟨n, hn, hle⟩ := hbacked.count
  rw [hcount] at hn
  have htwo : ((2 : ℕ) : ℚ) = n := Json.num.inj (Option.some.inj hn)
  rw [hone, ← Nat.cast_inj.1 htwo] at hle
  omega

end EnigmaMemory.Importers
