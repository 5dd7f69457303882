import EnigmaMemory.Proof.Revive
import EnigmaMemory.Proof.VerifyBundle

/-!
# Deletions and the loader of the MCP server

The MCP server takes the active addresses from the file, not from the receipts, and the offline
verifier does not look at them. A file whose address list was edited passes the verifier and has
its deleted memory active again.

* `lastDeleted_not_active`: an address whose last receipt deletes it is not active after the replay
  of the receipts.
* `revived_deletions`: a revived vault keeps the deletions exactly when the address list of the file
  does; where the receipts replay, that is the comparison with the replayed set that `importBundle`
  makes and `reviveVault` leaves out.
-/

namespace EnigmaMemory

open Json

variable {P : Platform} {K : KeyReader} {env : Ambient} {b receipt addr : Json} {r : Revived} {receipts : List Json}

/-! ## Deleted addresses -/

/-- The receipt of an operation on an address. -/
def Concerns (operation : String) (addr receipt : Json) : Prop :=
  receipt.get (js "operation") = some (.str (js operation)) ∧ strictEq (receipt.get (js "memory_addr")) (some addr) = true

/-- There is a delete receipt for the address that no create or update receipt for it follows. -/
def LastDeleted (receipts : List Json) (addr : Json) : Prop :=
  ∃ before receipt after, receipts = before ++ receipt :: after ∧ Concerns "delete" addr receipt ∧
    ∀ later ∈ after, ¬Concerns "create" addr later ∧ ¬Concerns "update" addr later

/-- The active addresses of a revived vault are what its receipts leave of them. -/
structure DeletionsKept (P : Platform) (r : Revived) : Prop where
  root : r.receipts.getLast?.bind (·.get (js "active_set_root")) = some (.str (addressSetRoot P r.activeAddresses))
  inactive : ∀ addr, LastDeleted r.receipts addr → hasValue r.activeAddresses addr = false

/-- The address list of a file. -/
def declaredAddresses (b : Json) : List Json :=
  match iterated (b.get (js "active_memory_addresses")) with
  | .ok addresses => addresses
  | .error _ => []

/-- The address list of a file hashes to the root of its last receipt and names no deleted address. -/
structure DeclaredKept (P : Platform) (b : Json) : Prop where
  root : (asArray (b.get (js "receipts"))).getLast?.bind (·.get (js "active_set_root")) =
    some (.str (addressSetRoot P (declaredAddresses b)))
  alive : ∀ addr ∈ declaredAddresses b, ¬LastDeleted (asArray (b.get (js "receipts"))) addr

theorem lastDeleted_snoc : LastDeleted (receipts ++ [receipt]) addr ↔
    Concerns "delete" addr receipt ∨ LastDeleted receipts addr ∧ ¬Concerns "create" addr receipt ∧ ¬Concerns "update" addr receipt := by
  constructor
  · rintro ⟨before, deleted, after, hsplit, hdelete, hafter⟩
    rcases List.eq_nil_or_concat after with rfl | ⟨rest, last, rfl⟩
    · obtain ⟨-, hlast⟩ := List.append_inj' hsplit rfl
      rw [List.singleton_inj.1 hlast]
      exact Or.inl hdelete
    · rw [List.concat_eq_append, ← List.cons_append, ← List.append_assoc] at hsplit
      obtain ⟨hbefore, hlast⟩ := List.append_inj' hsplit rfl
      rw [List.concat_eq_append] at hafter
      rw [List.singleton_inj.1 hlast]
      exact Or.inr ⟨⟨before, deleted, rest, hbefore, hdelete, fun later h => hafter later (List.mem_append_left _ h)⟩,
        hafter last (List.mem_append_right _ (List.mem_singleton_self _))⟩
  · rintro (hdelete | ⟨⟨before, deleted, after, rfl, hdelete, hafter⟩, hlater⟩)
    · exact ⟨receipts, receipt, [], rfl, hdelete, fun _ h => absurd h List.not_mem_nil⟩
    · refine ⟨before, deleted, after ++ [receipt], by rw [List.append_assoc, List.cons_append], hdelete, fun later h => ?_⟩
      rcases List.mem_append.1 h with h | h
      · exact hafter later h
      · rw [List.mem_singleton.1 h]
        exact hlater

/-! ## Deleted addresses in the replay -/

theorem concerns_of_addrOf {operation : String} {a : JsString} {event : Json}
    (hop : isStr (event.get (js "operation")) (js operation) = true) (haddr : addrOf (event.get (js "memory_addr")) = some a) :
    Concerns operation (.str a) event :=
  ⟨isStr_iff.1 hop, strictEq_str.2 (addrOf_eq_some.1 haddr).1⟩

theorem Concerns.operation_inj {operation operation' : String} {addr' event : Json} (h : Concerns operation addr event)
    (h' : Concerns operation' addr' event) : js operation = js operation' :=
  Json.str.inj (Option.some.inj (h.1.symm.trans h'.1))

theorem Concerns.memory_addr {operation : String} {a : JsString} {event : Json} (h : Concerns operation (.str a) event) :
    event.get (js "memory_addr") = some (.str a) :=
  strictEq_str.1 h.2

/-- What an event leaves active was active and is not deleted, or is what the event brings. -/
theorem mem_replayEvent {s : Lifecycle} {event : Json} {a : JsString} (hne : a ≠ []) (h : a ∈ (replayEvent s event).active) :
    a ∈ s.active ∧ ¬Concerns "delete" (.str a) event ∨ Concerns "create" (.str a) event ∨ Concerns "update" (.str a) event := by
  unfold replayEvent at h
  cases haddr : addrOf (event.get (js "memory_addr")) with
  | none =>
    rw [haddr] at h
    refine Or.inl ⟨h, fun hdelete => ?_⟩
    rw [hdelete.memory_addr, addrOf_str hne] at haddr
    cases haddr
  | some addr =>
    simp only [haddr] at h
    split_ifs at h with hcreate hupdate hdelete
    · rcases OrdSet.mem_add.1 h with rfl | h
      · exact Or.inr (Or.inl (concerns_of_addrOf hcreate haddr))
      · exact Or.inl ⟨h, fun hdelete => by simpa using hdelete.operation_inj (concerns_of_addrOf hcreate haddr)⟩
    · have hmem : a = addr ∨ a ∈ s.active := by
        split at h
        · rcases OrdSet.mem_add.1 h with h | h
          · exact Or.inl h
          · exact Or.inr (OrdSet.mem_delete.1 h).2
        · exact OrdSet.mem_add.1 h
      rcases hmem with rfl | h
      · exact Or.inr (Or.inr (concerns_of_addrOf hupdate haddr))
      · exact Or.inl ⟨h, fun hdelete => by simpa using hdelete.operation_inj (concerns_of_addrOf hupdate haddr)⟩
    · obtain ⟨hother, h⟩ := OrdSet.mem_delete.1 h
      refine Or.inl ⟨h, fun hd => hother ?_⟩
      rw [hd.memory_addr, addrOf_str hne] at haddr
      exact Option.some.inj haddr
    · exact Or.inl ⟨h, fun hd => hdelete (isStr_iff.2 hd.1)⟩

theorem empty_not_mem_replayEvent {s : Lifecycle} {event : Json} (hs : [] ∉ s.active) : [] ∉ (replayEvent s event).active := by
  unfold replayEvent
  cases haddr : addrOf (event.get (js "memory_addr")) with
  | none => exact hs
  | some addr =>
    have hne := (addrOf_eq_some.1 haddr).2.symm
    simp only
    split_ifs
    · simp [hs, hne]
    · split <;> simp [hs, hne]
    · simp [hs]
    · exact hs

/-- The active addresses of the replay are no deleted ones. -/
def KeepsDeleted (receipts : List Json) (s : Lifecycle) : Prop := ∀ a ∈ s.active, a ≠ [] ∧ ¬LastDeleted receipts (.str a)

theorem replayReceipt_verified {s s' : Lifecycle} (hevent : receiptEvent receipt = some receipt) :
    replayReceipt s receipt = .ok s' ↔ s' = replayEvent s receipt ∧
      ∀ root, receipt.get (js "active_set_root") = some (.str root) → root = computeSetRoot s'.active.elems := by
  unfold replayReceipt
  rw [hevent]
  simp only
  split
  · rename_i root hroot
    simp only [hroot, Option.some.injEq, Json.str.injEq, forall_eq']
    split
    · rename_i heq
      constructor
      · intro h
        obtain rfl := Except.ok.inj h
        exact ⟨rfl, heq⟩
      · rintro ⟨rfl, -⟩
        rfl
    · rename_i hne
      exact iff_of_false (fun h => nomatch h) (fun h => hne (h.1 ▸ h.2))
  · rename_i hnone
    constructor
    · intro h
      obtain rfl := Except.ok.inj h
      exact ⟨rfl, fun root hroot => absurd hroot (hnone root)⟩
    · rintro ⟨rfl, -⟩
      rfl

theorem deriveReceiptLifecycle_snoc {s' : Lifecycle} : deriveReceiptLifecycle (receipts ++ [receipt]) = .ok s' ↔
    ∃ s, deriveReceiptLifecycle receipts = .ok s ∧ replayReceipt s receipt = .ok s' := by
  rw [deriveReceiptLifecycle, List.foldlM_append, Except.bind_eq_ok]
  simp only [List.foldlM_cons, List.foldlM_nil, bind_pure]
  rfl

theorem replayReceipt_keeps {s s' : Lifecycle} (hevent : receiptEvent receipt = some receipt) (hs : KeepsDeleted receipts s)
    (h : replayReceipt s receipt = .ok s') : KeepsDeleted (receipts ++ [receipt]) s' := by
  obtain ⟨rfl, -⟩ := (replayReceipt_verified hevent).1 h
  intro a ha
  have hne : a ≠ [] := by
    rintro rfl
    exact empty_not_mem_replayEvent (fun h => (hs _ h).1 rfl) ha
  refine ⟨hne, fun hdeleted => ?_⟩
  rcases mem_replayEvent hne ha with ⟨hmem, hkept⟩ | hbrought
  · rcases lastDeleted_snoc.1 hdeleted with hdelete | ⟨hdeleted, -⟩
    · exact hkept hdelete
    · exact (hs a hmem).2 hdeleted
  · rcases lastDeleted_snoc.1 hdeleted with hdelete | ⟨-, hcreate, hupdate⟩
    · rcases hbrought with hcreate | hupdate
      · simpa using hdelete.operation_inj hcreate
      · simpa using hdelete.operation_inj hupdate
    · exact hbrought.elim hcreate hupdate

/-- **The replay of receipts leaves no deleted address active.** -/
theorem lastDeleted_not_active (hevent : ∀ receipt ∈ receipts, receiptEvent receipt = some receipt) {s : Lifecycle}
    (h : deriveReceiptLifecycle receipts = .ok s) : KeepsDeleted receipts s := by
  induction receipts using List.reverseRecOn generalizing s with
  | nil =>
    obtain rfl := Except.ok.inj h
    exact fun a ha => absurd ha (OrdSet.not_mem_empty a)
  | append_singleton receipts receipt ih =>
    obtain ⟨before, hbefore, hlast⟩ := deriveReceiptLifecycle_snoc.1 h
    exact replayReceipt_keeps (hevent receipt (by simp)) (ih (fun r hr => hevent r (by simp [hr])) hbefore) hlast

/-! ## What the two readers of the file look at -/

/-- A verified receipt is an object without an event of its own. -/
theorem receiptEvent_of_verified {o : VerifyOptions} (h : verifyReceipt P receipt o = []) : receiptEvent receipt = some receipt := by
  cases receipt with
  | obj fs =>
    have hshape : validateReceiptShape (.obj fs) = [] := by
      simp only [verifyReceipt, isPlainRecord, Bool.not_true, Bool.false_eq_true, if_false, List.append_eq_nil_iff] at h
      exact h.1.1.1.1.1.1.1.1.1.1.1
    have hevent : (Json.obj fs).get (js "event") = none := by
      by_contra hsome
      have hkey := mem_keys_iff.2 (Option.isSome_iff_ne_none.2 hsome)
      rw [validateReceiptShape, List.append_eq_nil_iff, List.flatMap_eq_nil_iff] at hshape
      have hfield := hshape.1 _ hkey
      rw [if_neg (by decide)] at hfield
      exact absurd (List.append_eq_nil_iff.1 hfield).1 (List.cons_ne_nil _ _)
    simp only [receiptEvent, hevent]
  | _ => simp [verifyReceipt, isPlainRecord] at h

theorem errorWhen_eq_nil {c : Bool} {e : VerifierError} : errorWhen c e = [] ↔ c = false := by
  cases c <;> simp [errorWhen]

/-- The receipts of an accepted bundle verify. -/
theorem receiptEvent_of_accepted (h : verifyBundle P K b = []) (hmem : receipt ∈ asArray (b.get (js "receipts"))) :
    receiptEvent receipt = some receipt := by
  unfold verifyBundle at h
  simp only at h
  split_ifs at h
  simp only [List.append_eq_nil_iff, errorWhen_eq_nil] at h
  obtain ⟨⟨⟨⟨-, hkey⟩, hsigned⟩, -⟩, -⟩ := h
  obtain ⟨key, hkey⟩ := Option.isNone_eq_false_iff.1 hkey |> Option.isSome_iff_exists.1
  obtain ⟨last, hlast⟩ := Option.ne_none_iff_exists'.1
    (mt List.getLast?_eq_none_iff.1 (List.ne_nil_of_mem hmem))
  simp only [signedFindings, hkey, hlast, List.append_eq_nil_iff, List.flatMap_eq_nil_iff] at hsigned
  have hfindings := hsigned.2 receipt hmem
  rw [receiptFindings, errorWhen_eq_nil, Bool.not_eq_false', List.isEmpty_iff] at hfindings
  exact receiptEvent_of_verified hfindings

/-- What a revived vault takes from the file. -/
theorem reviveVault_ok (h : reviveVault P env b = .ok r) : r.receipts = asArray (b.get (js "receipts")) ∧
    r.activeAddresses = distinctValues (declaredAddresses b) := by
  unfold reviveVault at h
  obtain ⟨-, -, h⟩ := Except.bind_eq_ok.1 h
  obtain ⟨created, -, h⟩ := Except.bind_eq_ok.1 h
  obtain ⟨memories, -, h⟩ := Except.bind_eq_ok.1 h
  obtain ⟨addresses, haddresses, h⟩ := Except.bind_eq_ok.1 h
  obtain ⟨tombstones, -, h⟩ := Except.bind_eq_ok.1 h
  cases Except.pure_eq_ok.1 h
  rw [declaredAddresses, haddresses]
  exact ⟨rfl, rfl⟩

theorem addressSetRoot_distinct (addresses : List Json) : addressSetRoot P (distinctValues addresses) = addressSetRoot P addresses := by
  refine computeSetRoot_congr fun a => ?_
  simp only [List.mem_map, mem_distinctValues]

theorem Concerns.sameValue {operation : String} (h : Concerns operation addr receipt) : sameValue addr addr = true := by
  have hsame := h.2
  rw [eq_of_strictEq hsame] at hsame
  exact hsame

/-- A revived vault keeps the deletions if the file does. -/
theorem deletionsKept_iff_declared (hrevive : reviveVault P env b = .ok r) : DeletionsKept P r ↔ DeclaredKept P b := by
  obtain ⟨hreceipts, hactive⟩ := reviveVault_ok hrevive
  constructor
  · rintro ⟨hroot, hinactive⟩
    rw [hreceipts, hactive, addressSetRoot_distinct] at hroot
    refine ⟨hroot, fun addr hmem hdeleted => ?_⟩
    have hnone := hinactive addr (hreceipts ▸ hdeleted)
    obtain ⟨-, deleted, -, -, hdelete, -⟩ := hdeleted
    rw [hactive, hasValue_iff.2 ⟨mem_distinctValues.2 hmem, hdelete.sameValue⟩] at hnone
    cases hnone
  · rintro ⟨hroot, halive⟩
    refine ⟨by rw [hreceipts, hactive, addressSetRoot_distinct, hroot], fun addr hdeleted => ?_⟩
    by_contra hactive'
    have hmem := (hasValue_iff.1 (Bool.not_eq_false _ ▸ hactive')).1
    rw [hactive, mem_distinctValues] at hmem
    exact halive addr hmem (hreceipts ▸ hdeleted)

/-! ## The check of `importBundle` -/

/-- The addresses of the receipts are strings. -/
def TextAddresses (receipts : List Json) : Prop :=
  ∀ receipt ∈ receipts, ∀ field ∈ ["memory_addr", "source_addr"], ∀ addr, receipt.get (js field) = some addr → ∃ a, addr = .str a

/-- The address list of a file, as texts. -/
def declaredTexts (P : Platform) (b : Json) : List JsString := (declaredAddresses b).map (·.toText P.toNumberFormat)

/-- The texts that the roots of the declared and of the replayed addresses hash. -/
def addressTexts (P : Platform) (b : Json) (s : Lifecycle) : Set JsString :=
  { x | x ∈ setTexts (declaredTexts P b) ∨ x ∈ setTexts s.active.elems }

/-- The declared addresses are the replayed ones, and the last receipt carries their root. -/
structure DeclaredReplayed (P : Platform) (b : Json) (s : Lifecycle) : Prop where
  same : sameStringSet (OrdSet.ofList (declaredTexts P b)).elems s.active.elems = true
  root : ∃ root, (asArray (b.get (js "receipts"))).getLast?.bind (·.get (js "active_set_root")) = some (.str root)

/-- The last receipt carries the root of the replayed set. -/
theorem lastRoot_derived {s : Lifecycle} (hevent : ∀ receipt ∈ receipts, receiptEvent receipt = some receipt)
    (hderive : deriveReceiptLifecycle receipts = .ok s) {root : JsString}
    (hroot : receipts.getLast?.bind (·.get (js "active_set_root")) = some (.str root)) : root = computeSetRoot s.active.elems := by
  rcases List.eq_nil_or_concat receipts with rfl | ⟨before, last, rfl⟩
  · cases hroot
  · rw [List.concat_eq_append] at hroot hderive hevent
    rw [List.getLast?_concat, Option.bind_some] at hroot
    obtain ⟨s₀, -, hlast⟩ := deriveReceiptLifecycle_snoc.1 hderive
    exact ((replayReceipt_verified (hevent last (by simp))).1 hlast).2 root hroot

/-- Where the receipts replay, a file keeps the deletions if it declares the replayed addresses. -/
theorem declaredKept_iff_replayed {s : Lifecycle}
    (hevent : ∀ receipt ∈ asArray (b.get (js "receipts")), receiptEvent receipt = some receipt)
    (htext : TextAddresses (asArray (b.get (js "receipts")))) (hderive : deriveReceiptLifecycle (asArray (b.get (js "receipts"))) = .ok s)
    (hcf : CollisionFree (addressTexts P b s)) : DeclaredKept P b ↔ DeclaredReplayed P b s := by
  have hsame : sameStringSet (OrdSet.ofList (declaredTexts P b)).elems s.active.elems = true ↔
      ∀ a, a ∈ OrdSet.ofList (declaredTexts P b) ↔ a ∈ OrdSet.ofList s.active.elems := by
    rw [sameStringSet_iff (OrdSet.nodup _) s.active.nodup]
    exact forall_congr' fun a => iff_congr Iff.rfl OrdSet.mem_ofList.symm
  have hroots : computeSetRoot (declaredTexts P b) = computeSetRoot s.active.elems ↔
      ∀ a, a ∈ OrdSet.ofList (declaredTexts P b) ↔ a ∈ OrdSet.ofList s.active.elems :=
    MerkleSet.root_eq_iff hcf (fun x hx => Or.inl hx) (fun x hx => Or.inr hx)
  constructor
  · rintro ⟨hroot, -⟩
    exact ⟨hsame.2 (hroots.1 (lastRoot_derived hevent hderive hroot)), _, hroot⟩
  · rintro ⟨hset, root, hroot⟩
    obtain rfl := lastRoot_derived hevent hderive hroot
    refine ⟨hroot.trans (congrArg _ (congrArg _ (hroots.2 (hsame.1 hset)).symm)), fun addr hmem hdeleted => ?_⟩
    -- a deleted address is a string, and the replay has not left it
    obtain ⟨a, rfl⟩ : ∃ a, addr = .str a := by
      obtain ⟨before, deleted, after, hsplit, hdelete, -⟩ := hdeleted
      exact htext deleted (by rw [hsplit]; simp) "memory_addr" (by simp) addr (eq_of_strictEq hdelete.2)
    have hactive : a ∈ s.active := by
      have hlisted := (hsame.1 hset a).1 (OrdSet.mem_ofList.2 (List.mem_map.2 ⟨_, hmem, rfl⟩))
      exact OrdSet.mem_ofList.1 hlisted
    exact (lastDeleted_not_active hevent hderive a hactive).2 hdeleted

/-- **A revived vault keeps the deletions exactly when the address list of the file does.** For a
bundle that the verifier accepts, the root and the deletions of its receipts hold of the revived
vault if and only if they hold of the addresses that the file declares; where the receipts replay,
this is the comparison of those addresses with the replayed ones. -/
theorem revived_deletions_iff (P : Platform) (K : KeyReader) (env : Ambient) (b : Json) (r : Revived)
    (hverify : verifyBundle P K b = []) (hrevive : reviveVault P env b = .ok r) :
    (DeletionsKept P r ↔ DeclaredKept P b) ∧
      ∀ s, TextAddresses r.receipts → deriveReceiptLifecycle r.receipts = .ok s →
        CollisionFree (addressTexts P b s) → (DeletionsKept P r ↔ DeclaredReplayed P b s) := by
  have hkept := deletionsKept_iff_declared hrevive
  refine ⟨hkept, fun s htext hderive hcf => hkept.trans ?_⟩
  rw [(reviveVault_ok hrevive).1] at htext hderive
  exact declaredKept_iff_replayed (fun _ => receiptEvent_of_accepted hverify) htext hderive hcf

/-! ## A deleted memory that comes back -/

/-- A vault that was exported after its one memory was deleted. -/
structure DeletedMemory (bundle : Bundle) (w : Vault) (addr : JsString) : Prop where
  exported : ∃ v, exportBundle reference referenceEnv {} v = .ok bundle w
  deleted : LastDeleted w.receipts (.str addr)
  tracks : ∃ m, Tracks reference w m
  canSign : Signer reference Reference.privateKey w
  log : LogOk reference Reference.privateKey w
  portable : Portable reference w
  subject_id : Named reference (some w.subject_id)
  signer : truthy (some w.signer) = true
  publicKey : w.signingKeyPair.publicKey = some Reference.publicKey

theorem exists_deletedMemory : ∃ bundle w addr, DeletedMemory bundle w addr := by
  obtain ⟨v₀, u, u', addr, -, h, hpk, hne, hlog, -⟩ := exists_firstBundle
  obtain ⟨v, hv⟩ := h.delete
  have hrun := (h.run _).trans hv
  have hgrows := run_grows hrun
  have hok : Succeeds (exportBundle reference referenceEnv {}) v :=
    exportBundle_ok (hgrows.signer_ok h.signer₀) (h.writable.of_grows hgrows)
  obtain ⟨bundle, w, hexport⟩ := hok
  have hgrows' : Grows v₀ w := by
    have hw := exportBundle_grows (P := reference) referenceEnv {} v
    rw [EStateM.after, hexport] at hw
    exact hgrows.trans _ _ _ hw
  have hnew := createVault_created h.created
  have hsigner : truthy (some v₀.signer) = true := by
    rw [hnew.signer]
    rfl
  obtain ⟨m, htracks⟩ := run_tracks ⟨_, hnew.tracks⟩ hrun (by
    rw [Run.all_cons h.remembered, Run.all_cons hv]
    exact ⟨⟨trivial, trivial⟩, ⟨trivial, trivial⟩, Run.All.nil _ _⟩)
  refine ⟨bundle, w, addr, ⟨v, hexport⟩, ?_, ⟨m, export_tracks htracks hexport⟩, hgrows'.signer_ok h.signer₀, ?_,
    hgrows'.portable hnew.portable, ?_, hgrows'.signer ▸ hsigner, by rw [hgrows'.signingKeyPair, hpk]⟩
  · -- the receipt of the deletion, and after it the one of the export
    obtain ⟨_, hexec⟩ := stepCall_eq_some.1 hv
    obtain ⟨r, hr⟩ := discard_ok.1 hexec
    obtain ⟨a, f, record, tombstone, hstep, haddr, -, -⟩ := deleteMemory_step hr
    obtain rfl : addr = a := Option.some.inj haddr
    obtain ⟨f', hstep', hop'⟩ := exportBundle_step hexport
    obtain ⟨deleted, hreceipts, hop, haddr⟩ := hstep.receipt
    obtain ⟨exported, hreceipts', hexported, -⟩ := hstep'.receipt
    have hfields : f.operation = .str (js "delete") ∧ f.memory_addr = some (.str addr) := by
      cases hstep.legal with
      | retire _ _ hop haddr _ => exact ⟨hop, haddr⟩
    rw [hreceipts', hop'] at *
    rw [lastDeleted_snoc]
    refine Or.inr ⟨?_, fun hc => ?_, fun hc => ?_⟩
    · rw [hreceipts, lastDeleted_snoc]
      refine Or.inl ⟨by rw [hop, hfields.1], ?_⟩
      rw [haddr, hfields.2, strictEq_str]
      rfl
    · simpa using hexported.symm.trans hc.1
    · simpa using hexported.symm.trans hc.1
  · have hone : Run.run (stepCall reference) u [.deleteMemory referenceEnv { memory_addr := some addr }] = some v := by
      rw [Run.run, hv]
      rfl
    exact (exportBundle_log (run_log hlog hone) hexport).1
  · exact hgrows'.subject_id ▸ h.writable.subject_id

/-- Its file is accepted and revived whatever its address list is. -/
theorem DeletedMemory.revived {bundle : Bundle} {w : Vault} {a : JsString} (h : DeletedMemory bundle w a) (declared : List Json) :
    verifyBundle reference referenceKeys (bundle.toJson.set (js "active_memory_addresses") (.arr declared)) = [] ∧
    ∃ r, reviveVault reference referenceEnv (bundle.toJson.set (js "active_memory_addresses") (.arr declared)) = .ok r ∧
      RevivedFrom reference w bundle declared r := by
  obtain ⟨v, hexport⟩ := h.exported
  obtain ⟨m, htracks⟩ := h.tracks
  obtain ⟨⟨e, hw⟩, hb⟩ := exportBundle_exports hexport
  have hfile := FileOf.edited bundle declared
  have hne : Reference.publicKey ≠ [] := by simp [Reference.publicKey, js, utf16]
  constructor
  · have hreads := verifierReads_edited hexport h.publicKey hne h.log.roots rfl fun key _ hkey => hfile.fields key hkey
    have hlast : w.receipts.getLast? = some e.receipt := by
      rw [hw]
      exact List.getLast?_concat
    have hcheckpoints : asArray (orElse ((bundle.toJson.set (js "active_memory_addresses") (.arr declared)).get (js "checkpoints"))
        (path (some (bundle.toJson.set (js "active_memory_addresses") (.arr declared))) ["passport", "checkpoints"])) = [] := by
      simp [path, Bundle.toJson, orElse, asArray]
    exact verifyBundle_reads hreads h.log (reference_signingKey _ _) hne hlast hcheckpoints
  · exact reviveVault_file referenceEnv hfile htracks hb h.canSign (by decide +kernel) h.subject_id h.signer h.portable

theorem revived_deletions_iff_deleted : ∃ b r, verifyBundle reference referenceKeys b = [] ∧
    reviveVault reference referenceEnv b = .ok r ∧ (DeletionsKept reference r ↔ DeclaredKept reference b) := by
  obtain ⟨bundle, w, addr, h⟩ := exists_deletedMemory
  obtain ⟨hverify, r, hrevive, -⟩ := h.revived []
  exact ⟨_, r, hverify, hrevive, (revived_deletions_iff reference referenceKeys referenceEnv _ r hverify hrevive).1⟩

/-- An edited address list passes the verifier and makes a deleted memory active again. -/
theorem deleted_memory_revived : ∃ b r addr, verifyBundle reference referenceKeys b = [] ∧
    reviveVault reference referenceEnv b = .ok r ∧ LastDeleted (asArray (b.get (js "receipts"))) addr ∧
    hasValue r.activeAddresses addr = true := by
  obtain ⟨bundle, w, addr, h⟩ := exists_deletedMemory
  obtain ⟨hverify, r, hrevive, hfrom⟩ := h.revived [.str addr]
  refine ⟨_, r, .str addr, hverify, hrevive, ?_, ?_⟩
  · rw [← (reviveVault_ok hrevive).1, hfrom.receipts]
    exact h.deleted
  · rw [hfrom.activeAddresses, hasValue_iff, mem_distinctValues]
    simp [sameValue]

end EnigmaMemory
