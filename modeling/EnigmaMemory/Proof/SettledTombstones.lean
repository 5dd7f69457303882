import EnigmaMemory.Proof.Filed
import EnigmaMemory.Proof.Reference
import EnigmaMemory.Spec.DriveHealth

/-!
# Unsettled tombstones

The health report calls a tombstone settled if a receipt named `delete` is about its address. A deletion leaves such a
receipt; an update leaves a receipt too, but named `update` and about the new address, so the tombstone of the old one
counts as unsettled.

* `settled_run_iff`: all vaults of a run report no unsettled tombstone exactly when every update of the run is of an
  address that a receipt named `delete` was about before, as only a recall under that name can leave it.
-/

namespace EnigmaMemory

open Json DriveHealth
open Relation (ReflTransGen)

variable {P : Platform} {v v' w : Vault}

/-! ## Receipts of deletions -/

/-- A receipt that the report reads as the deletion of an address. -/
structure Deletes (addr : JsString) (receipt : Json) : Prop where
  operation : receipt.get (js "operation") = some (.str (js "delete"))
  memory_addr : receipt.get (js "memory_addr") = some (.str addr)

theorem mem_deleteReceiptAddrs {receipts : List Json} {addr : JsString} (hne : addr ≠ []) :
    hasValue (deleteReceiptAddrs receipts) (.str addr) = true ↔ ∃ r ∈ receipts, Deletes addr r := by
  rw [hasValue_iff, deleteReceiptAddrs, List.mem_filterMap]
  constructor
  · rintro ⟨⟨r, hr, h⟩, -⟩
    split at h
    · rename_i hcond
      rw [Bool.and_eq_true, Json.isStr_iff] at hcond
      exact ⟨r, hr, hcond.1, h⟩
    · cases h
  · rintro ⟨r, hr, hop, haddr⟩
    refine ⟨⟨r, hr, ?_⟩, by simp [sameValue]⟩
    rw [hop, haddr, if_pos]
    simpa [Json.isStr, Json.truthy] using hne

/-- Every tombstone has the receipt of a deletion. -/
def Settled (v : Vault) : Prop :=
  ∀ a, v.tombstones.has a = true → hasValue (deleteReceiptAddrs v.receipts) (.str a) = true

/-- An update is of an address that is already in the receipt of a deletion. -/
def Call.Settles (v : Vault) : Call → Prop
  | .updateMemory _ args => ∀ addr, args.memory_addr = some addr →
      hasValue (deleteReceiptAddrs v.receipts) (.str addr) = true
  | _ => True

/-- Addresses and receipts that an import can read back. -/
structure Legible (v : Vault) : Prop where
  address : ∀ a, v.tombstones.has a = true → a ≠ []
  receipt : ∀ r ∈ v.receipts, r.isPlainRecord = true ∧ r.keys.Nodup

theorem Settled.mono (h : Settled v) (hl : Legible v) (ht : ∀ a, w.tombstones.has a = true → v.tombstones.has a = true)
    (hr : ∀ a, ∀ r ∈ v.receipts, Deletes a r → ∃ r' ∈ w.receipts, Deletes a r') : Settled w := by
  intro a ha
  have hne := hl.address a (ht a ha)
  obtain ⟨r, hmem, hdel⟩ := (mem_deleteReceiptAddrs hne).1 (h a (ht a ha))
  exact (mem_deleteReceiptAddrs hne).2 (hr a r hmem hdel)

/-! ## Calls -/

theorem steps_receipts (h : ReflTransGen (AnyStep P) v v') : v.receipts ⊆ v'.receipts := by
  induction h with
  | refl => exact fun r hr => hr
  | tail _ hstep ih =>
    obtain ⟨ch, f, hstep⟩ := hstep
    obtain ⟨r, hr, -⟩ := hstep.receipt
    rw [hr]
    exact fun x hx => List.mem_append_left _ (ih hx)

theorem steps_legible_receipts (h : ReflTransGen (AnyStep P) v v')
    (hv : ∀ r ∈ v.receipts, r.isPlainRecord = true ∧ r.keys.Nodup) : ∀ r ∈ v'.receipts, r.isPlainRecord = true ∧ r.keys.Nodup := by
  induction h with
  | refl => exact hv
  | @tail u w _ hstep ih =>
    obtain ⟨ch, f, hstep⟩ := hstep
    obtain ⟨env, e, he, rfl⟩ := hstep.appended
    obtain ⟨i, -, -, rfl⟩ := nextEntry_ok.1 he
    intro r hr
    have hr' : r ∈ u.receipts ++ [(i.body P (ch.apply u) f env).signed P i.signature] := by
      rw [← apply_receipts u ch]
      exact hr
    rcases List.mem_append.1 hr' with hr | hr
    · exact ih r hr
    · rw [List.mem_singleton.1 hr]
      exact ⟨rfl, nodup_signed _ _⟩

theorem call_legible {c : Call} (hl : Legible v) (h : stepCall P v c = some v') : Legible v' where
  receipt := steps_legible_receipts (call_anySteps h) hl.receipt
  address a ha := by
    obtain ⟨ch, hw, hs⟩ := call_writes h
    rw [hs.tombstones] at ha
    cases hw with
    | recallMemory | compileContextPack | exportBundle | remember => exact hl.address a ha
    | updateMemory first now hargs hne =>
      rw [Change.apply, OrdMap.has_set, Bool.or_eq_true, decide_eq_true_eq] at ha
      exact ha.elim (fun ha => ha ▸ hne) (hl.address a)
    | deleteMemory first now hargs hne =>
      have ha' := (OrdMap.has_set (m := v.tombstones)).symm.trans ha
      rw [Bool.or_eq_true, decide_eq_true_eq] at ha'
      exact ha'.elim (fun ha => ha ▸ hne) (hl.address a)

/-- A call that appends receipts and buries nothing. -/
theorem call_settled {c : Call} (hl : Legible v) (hs : Settled v) (h : stepCall P v c = some v')
    (ht : v'.tombstones = v.tombstones) : Settled v' :=
  hs.mono hl (fun _ ha => ht ▸ ha) fun _ r hr hdel => ⟨r, steps_receipts (call_anySteps h) hr, hdel⟩

/-- **One call.** -/
theorem call_settled_iff {c : Call} (hl : Legible v) (hs : Settled v) (h : stepCall P v c = some v') :
    Settled v' ↔ c.Settles v := by
  obtain ⟨ch, hw, hstore⟩ := call_writes h
  have ht := hstore.tombstones
  cases hw with
  | recallMemory | compileContextPack | exportBundle | remember => exact iff_of_true (call_settled hl hs h ht) trivial
  | @updateMemory env args old record content first now hargs hne =>
    obtain ⟨u, hexec⟩ := stepCall_eq_some.1 h
    obtain ⟨result, hresult⟩ := discard_ok.1 hexec
    obtain ⟨old', new, f, _, _, _, hstep, hargs', -⟩ := updateMemory_step hresult
    obtain ⟨r, hr, hop, -⟩ := hstep.receipt
    have hop' : f.operation = .str (js "update") := by
      cases hstep.legal with
      | supersede _ _ _ _ _ hop => exact hop
    -- the receipt of the update is about no deletion
    have hreceipts : ∀ a, a ≠ [] → (hasValue (deleteReceiptAddrs v'.receipts) (.str a) = true ↔
        hasValue (deleteReceiptAddrs v.receipts) (.str a) = true) := by
      intro a ha
      rw [mem_deleteReceiptAddrs ha, mem_deleteReceiptAddrs ha, hr]
      constructor
      · rintro ⟨x, hx, hdel⟩
        rcases List.mem_append.1 hx with hx | hx
        · exact ⟨x, hx, hdel⟩
        · have hboth := hdel.operation
          rw [List.mem_singleton.1 hx, hop, hop'] at hboth
          simp at hboth
      · rintro ⟨x, hx, hdel⟩
        exact ⟨x, List.mem_append_left _ hx, hdel⟩
    have hhas : ∀ a, v'.tombstones.has a = true ↔ a = old ∨ v.tombstones.has a = true := by
      intro a
      rw [ht, Change.apply, OrdMap.has_set, Bool.or_eq_true, decide_eq_true_eq]
    rw [Call.Settles]
    constructor
    · intro hs' addr haddr
      obtain rfl : old = addr := Option.some.inj (hargs.symm.trans haddr)
      exact (hreceipts old hne).1 (hs' old ((hhas old).2 (Or.inl rfl)))
    · intro hsettles a ha
      rcases (hhas a).1 ha with rfl | ha
      · exact (hreceipts a hne).2 (hsettles a hargs)
      · exact (hreceipts a (hl.address a ha)).2 (hs a ha)
  | @deleteMemory env args addr first now hargs hne =>
    obtain ⟨u, hexec⟩ := stepCall_eq_some.1 h
    obtain ⟨result, hresult⟩ := discard_ok.1 hexec
    obtain ⟨addr', f, _, _, hstep, hargs', -⟩ := deleteMemory_step hresult
    obtain rfl : addr = addr' := Option.some.inj (hargs.symm.trans hargs')
    obtain ⟨r, hr, hop, haddr⟩ := hstep.receipt
    refine iff_of_true (fun a ha => ?_) trivial
    have hhas : a = addr ∨ v.tombstones.has a = true := by
      have ha' := (OrdMap.has_set (m := v.tombstones)).symm.trans ((congrArg (·.has a) ht).symm.trans ha)
      rwa [Bool.or_eq_true, decide_eq_true_eq] at ha'
    rcases hhas with rfl | ha
    · refine (mem_deleteReceiptAddrs hne).2 ⟨r, by rw [hr]; exact List.mem_append_right _ (List.mem_singleton.2 rfl), ?_⟩
      cases hstep.legal with
      | retire _ _ hop' haddr' => exact ⟨by rw [hop, hop'], by rw [haddr, haddr']; rfl⟩
    · obtain ⟨x, hx, hdel⟩ := (mem_deleteReceiptAddrs (hl.address a ha)).1 (hs a ha)
      exact (mem_deleteReceiptAddrs (hl.address a ha)).2 ⟨x, by rw [hr]; exact List.mem_append_left _ hx, hdel⟩

/-! ## Transfers -/

theorem nodup_without {j : Json} {key : JsString} (h : j.keys.Nodup) : (j.without key).keys.Nodup := by
  cases j with
  | obj fs => exact h.sublist (List.filter_sublist.map _)
  | _ => exact List.nodup_nil

theorem nodup_spreadPublic {F : NumberFormat} {out : Json} {key : JsString} {value : Option Json} (h : out.keys.Nodup) :
    (spreadPublic F out key value).keys.Nodup := by
  cases value with
  | none => exact nodup_without h
  | some x => exact nodup_set h

/-- An import keeps what a legible receipt says of a deletion. -/
theorem importedReceipt_legible {r r' : Json} (hr : r.isPlainRecord = true ∧ r.keys.Nodup) (h : importedReceipt P r = .ok r') :
    (r'.isPlainRecord = true ∧ r'.keys.Nodup) ∧ ∀ a, Deletes a r → Deletes a r' := by
  have hplain : (sanitizePublicValue P.toNumberFormat r).isPlainRecord = true := by
    cases r with
    | obj fs =>
      rw [sanitizePublicValue]
      exact isPlainRecord_sanitizePublicFields fs _ rfl
    | _ => cases hr.1
  have hcopy : spreadCopy P.toNumberFormat (sanitizePublicValue P.toNumberFormat r) = publicRecord P.toNumberFormat r := by
    rw [publicRecord]
    cases hs : sanitizePublicValue P.toNumberFormat r with
    | obj fs => rfl
    | _ =>
      rw [hs] at hplain
      cases hplain
  have hr' : r' = spreadPublic P.toNumberFormat (spreadPublic P.toNumberFormat (publicRecord P.toNumberFormat r) (js "signer")
      (r.get (js "signer"))) (js "signature") (r.get (js "signature")) := by
    unfold importedReceipt at h
    rw [hcopy] at h
    split at h
    · cases h
    · exact (Except.ok.inj h).symm
  have hget : ∀ key s, isPublicField key = true → key ≠ js "signer" → key ≠ js "signature" →
      r.get key = some (.str s) → r'.get key = some (.str s) := by
    intro key s hk hsigner hsignature hs
    rw [hr', get_spreadPublic hsignature, get_spreadPublic hsigner, get_publicRecord hk hr.2, hs, map_sanitize_eq_str.2 rfl]
  refine ⟨⟨?_, ?_⟩, fun a hdel => ⟨?_, ?_⟩⟩
  · rw [hr']
    exact isPlainRecord_spreadPublic
  · rw [hr']
    exact nodup_spreadPublic (nodup_spreadPublic (nodup_publicRecord _ _))
  · exact hget _ _ (by decide) (by simp) (by simp) hdel.operation
  · exact hget _ _ (by decide) (by simp) (by simp) hdel.memory_addr

section Transfer

variable {env env' : Ambient} {args : ExportArgs} {args' : ImportArgs} {bundle : Bundle} {imported : Imported}

/-- The receipts after a transfer: those of the vault, as the import keeps them, behind them two more. -/
theorem transfer_receipts (hexport : exportBundle P env args v = .ok bundle v') (himport : importBundle P env' args' bundle = .ok imported) :
    ∃ restored e receipts, nextEntry P (env'.drop 3) restored (importEvent args' restored) = .ok e ∧
      v'.receipts.mapM (importedReceipt P) = .ok receipts ∧ imported.vault = pushEntry P restored e ∧
      restored.receipts = receipts := by
  obtain ⟨-, hb⟩ := exportBundle_exports hexport
  obtain ⟨secrets, restored, e, -, hrestored, he, rfl⟩ := importBundle_ok.1 himport
  obtain ⟨created, receipts, lifecycle, memories, -, hreceipts, -, -, rfl⟩ := restoreVault_ok.1 hrestored
  rw [hb.receipts] at hreceipts
  exact ⟨_, e, receipts, he, hreceipts, rfl, rfl⟩

theorem transfer_has (hf : Filed v) (hexport : exportBundle P env args v = .ok bundle v')
    (himport : importBundle P env' args' bundle = .ok imported) (a : JsString) :
    imported.vault.tombstones.has a = v.tombstones.has a := by
  have hop := (transfer_transferred hf hexport himport).operation a
  have hsome := congrArg Option.isSome hop
  rwa [Option.isSome_map, Option.isSome_map] at hsome

theorem exported_receipts (hexport : exportBundle P env args v = .ok bundle v') :
    stepCall P v (.exportBundle env args) = some v' := stepCall_eq_some.2 ⟨(), discard_ok.2 ⟨bundle, hexport⟩⟩

theorem transfer_legible (hf : Filed v) (hl : Legible v) (hexport : exportBundle P env args v = .ok bundle v')
    (himport : importBundle P env' args' bundle = .ok imported) : Legible imported.vault where
  address a ha := hl.address a (transfer_has hf hexport himport a ▸ ha)
  receipt r hr := by
    have hl' := call_legible hl (exported_receipts hexport)
    obtain ⟨restored, e, receipts, he, hreceipts, hv, hrs⟩ := transfer_receipts hexport himport
    obtain ⟨i, -, -, rfl⟩ := nextEntry_ok.1 he
    rw [hv] at hr
    rcases List.mem_append.1 hr with hr | hr
    · rw [hrs] at hr
      obtain ⟨x, hx, himp⟩ := Except.exists_of_mem_mapM hreceipts hr
      exact (importedReceipt_legible (hl'.receipt x hx) himp).1
    · rw [List.mem_singleton.1 hr]
      exact ⟨rfl, nodup_signed _ _⟩

theorem transfer_settled (hf : Filed v) (hl : Legible v) (hs : Settled v) (hexport : exportBundle P env args v = .ok bundle v')
    (himport : importBundle P env' args' bundle = .ok imported) : Settled imported.vault := by
  have hstep := exported_receipts hexport
  have hl' := call_legible hl hstep
  obtain ⟨restored, e, receipts, -, hreceipts, hv, hrs⟩ := transfer_receipts hexport himport
  refine hs.mono hl (fun a ha => transfer_has hf hexport himport a ▸ ha) fun a r hr hdel => ?_
  have hr' := steps_receipts (call_anySteps hstep) hr
  obtain ⟨x, hx, himp⟩ := Except.exists_of_mapM_mem hreceipts hr'
  refine ⟨x, ?_, (importedReceipt_legible (hl'.receipt r hr') himp).2 a hdel⟩
  rw [hv]
  exact List.mem_append_left _ (hrs ▸ hx)

end Transfer

/-! ## Operations -/

/-- What is asked of an operation. -/
def Operation.Settles (v : Vault) : Operation → Prop
  | .call c => c.Settles v
  | .transfer .. => True

theorem stepOperation_transfer {env env' : Ambient} {args : ExportArgs} {args' : ImportArgs}
    (h : stepOperation P v (.transfer env args env' args') = some w) : ∃ bundle v' imported,
      exportBundle P env args v = .ok bundle v' ∧ importBundle P env' args' bundle = .ok imported ∧ w = imported.vault := by
  rw [stepOperation] at h
  split at h
  · rename_i bundle v' hexport
    split at h
    · rename_i imported himport
      exact ⟨bundle, v', imported, hexport, himport, (Option.some.inj h).symm⟩
    · cases h
  · cases h

/-- What holds in every vault that operations lead to. -/
theorem operation_legible {o : Operation} (h : Filed v ∧ Legible v) (hstep : stepOperation P v o = some w) :
    Filed w ∧ Legible w := by
  cases o with
  | call c => exact ⟨stepCall_filed h.1 hstep, call_legible h.2 hstep⟩
  | transfer =>
    obtain ⟨bundle, v', imported, hexport, himport, rfl⟩ := stepOperation_transfer hstep
    exact ⟨transfer_filed h.1 (transfer_transferred h.1 hexport himport), transfer_legible h.1 h.2 hexport himport⟩

theorem operation_settled_iff {o : Operation} (hf : Filed v) (hl : Legible v) (hs : Settled v)
    (hstep : stepOperation P v o = some w) : Settled w ↔ o.Settles v := by
  cases o with
  | call c => exact call_settled_iff hl hs hstep
  | transfer =>
    obtain ⟨bundle, v', imported, hexport, himport, rfl⟩ := stepOperation_transfer hstep
    exact iff_of_true (transfer_settled hf hl hs hexport himport) trivial

theorem Created.legible {env : Ambient} {args : CreateArgs} (h : Created P env args v) : Legible v where
  address a ha := by
    rw [h.tombstones] at ha
    cases ha
  receipt r hr := by simp [h.receipts] at hr

theorem Created.settled {env : Ambient} {args : CreateArgs} (h : Created P env args v) : Settled v := by
  intro a ha
  rw [h.tombstones] at ha
  cases ha

/-! ## The report -/

theorem unsettledCount_eq_zero :
    unsettledCount (distinctValues (v.tombstones.keys.map .str)) (deleteReceiptAddrs v.receipts) = 0 ↔ Settled v := by
  rw [unsettledCount, List.countP_eq_zero]
  simp only [mem_distinctValues, List.mem_map, Bool.not_eq_true', Bool.not_eq_false, Settled, ← OrdMap.mem_keys]
  constructor
  · exact fun h a ha => h _ ⟨a, ha, rfl⟩
  · rintro h x ⟨a, ha, hx⟩
    exact hx ▸ h a ha

/-- The report about a vault, at any time at which one is made, counts no unsettled tombstone. -/
def ReportsSettled (P : Platform) (v : Vault) : Prop :=
  ∀ time now createdAt, nowIso P time (now.getD (.text defaultHealthNow)) = .ok createdAt →
    ∃ report, createMemoryDriveHealthReport P time { vault := some (.vault v), now } = .ok report ∧
      (report.metrics .tombstone_risk).observed.get (js "unsettled_tombstone_count") = some (.num 0)

/-- The report about a vault alone. -/
theorem createReport_vault {time : ℤ} {now : Option Now} {createdAt : JsString} (v : Vault)
    (h : nowIso P time (now.getD (.text defaultHealthNow)) = .ok createdAt) :
    ∃ report, createMemoryDriveHealthReport P time { vault := some (.vault v), now } = .ok report ∧
      (report.metrics .tombstone_risk).observed.get (js "unsettled_tombstone_count") =
        some (.num (unsettledCount (distinctValues (v.tombstones.keys.map .str)) (deleteReceiptAddrs v.receipts))) := by
  unfold createMemoryDriveHealthReport
  rw [h]
  exact ⟨_, rfl, rfl⟩

theorem reportsSettled_iff : ReportsSettled P v ↔ Settled v := by
  rw [← unsettledCount_eq_zero]
  constructor
  · intro h
    obtain ⟨report, hreport, hcount⟩ := h 0 (some .absent) _ rfl
    have hnow : nowIso P 0 ((some Now.absent).getD (.text defaultHealthNow)) = .ok _ := rfl
    obtain ⟨report', hreport', hcount'⟩ := createReport_vault v hnow
    cases hreport.symm.trans hreport'
    have hnum := Json.num.inj (Option.some.inj (hcount'.symm.trans hcount))
    exact_mod_cast hnum
  · intro hzero time now createdAt hnow
    obtain ⟨report, hreport, hcount⟩ := createReport_vault v hnow
    rw [hzero] at hcount
    exact ⟨report, hreport, hcount⟩

/-- **All vaults of a run report no unsettled tombstone exactly when each of its updates is of an address that the
receipt of a deletion names already.** -/
theorem settled_run_iff (P : Platform) (env : Ambient) (args : CreateArgs) (v₀ v : Vault) (operations : List Operation)
    (hcreate : createVault P env args = .ok v₀) (hrun : Run.run (stepOperation P) v₀ operations = some v) :
    (∀ l u, l <+: operations → Run.run (stepOperation P) v₀ l = some u → ReportsSettled P u) ↔
      Run.All (stepOperation P) (fun u o => o.Settles u) v₀ operations := by
  have hnew := createVault_created hcreate
  have hgood : Filed v₀ ∧ Legible v₀ := ⟨hnew.filed (createVault_quarantine hcreate), hnew.legible⟩
  have hstep : ∀ u o w, (Filed u ∧ Legible u) ∧ Settled u → stepOperation P u o = some w →
      ((Filed w ∧ Legible w) ∧ Settled w ↔ o.Settles u) := by
    intro u o w hu hw
    rw [and_iff_right (operation_legible hu.1 hw)]
    exact operation_settled_iff hu.1.1 hu.1.2 hu.2 hw
  rw [← Run.forall_prefix_iff hstep operations v₀ v ⟨hgood, hnew.settled⟩ hrun]
  constructor
  · intro h l u hl hu
    exact ⟨Run.run_invariant (fun _ _ _ h hw => operation_legible h hw) hgood hu, reportsSettled_iff.1 (h l u hl hu)⟩
  · intro h l u hl hu
    exact reportsSettled_iff.2 (h l u hl hu).2

theorem FirstMemory.run_operations {v₀ v v' : Vault} {addr : JsString} (h : FirstMemory v₀ v addr) {c : Call}
    (hc : stepCall reference v c = some v') : Run.run (stepOperation reference) v₀
      [.call (.remember referenceEnv { content := some tea }), .call c] = some v' := by
  rw [Run.run, stepOperation, h.remembered, Option.bind_some, Run.run, stepOperation, hc]
  rfl

theorem settled_run_delete : ∃ v₀ v addr, createVault reference referenceEnv {} = .ok v₀ ∧
    Run.run (stepOperation reference) v₀ [.call (.remember referenceEnv { content := some tea }),
      .call (.deleteMemory referenceEnv { memory_addr := some addr })] = some v ∧
    ((∀ l u, l <+: [.call (.remember referenceEnv { content := some tea }),
        .call (.deleteMemory referenceEnv { memory_addr := some addr })] →
        Run.run (stepOperation reference) v₀ l = some u → ReportsSettled reference u) ↔
      Run.All (stepOperation reference) (fun u o => o.Settles u) v₀ [.call (.remember referenceEnv { content := some tea }),
        .call (.deleteMemory referenceEnv { memory_addr := some addr })]) := by
  obtain ⟨v₀, v₁, addr, h⟩ := firstMemory
  obtain ⟨v, hv⟩ := h.delete
  have hrun := h.run_operations hv
  exact ⟨v₀, v, addr, h.created, hrun, settled_run_iff reference referenceEnv {} v₀ v _ h.created hrun⟩

/-- The address of an updated memory counts as unsettled. -/
theorem settled_run_update : ∃ v₀ v addr, createVault reference referenceEnv {} = .ok v₀ ∧
    Run.run (stepOperation reference) v₀ [.call (.remember referenceEnv { content := some tea }),
      .call (.updateMemory referenceEnv { memory_addr := some addr, content := some coffee })] = some v ∧
    ¬ ReportsSettled reference v := by
  obtain ⟨v₀, v₁, addr, h⟩ := firstMemory
  obtain ⟨v, hv⟩ := h.update coffee_ne_null
  have hrun := h.run_operations hv
  refine ⟨v₀, v, addr, h.created, hrun, fun hreports => ?_⟩
  have hnew := createVault_created h.created
  have hone : Filed v₁ ∧ Legible v₁ :=
    ⟨stepCall_filed (hnew.filed (createVault_quarantine h.created)) h.remembered, call_legible hnew.legible h.remembered⟩
  have hsettled : Settled v₁ := fun a ha => absurd ha (by simp [h.free a])
  -- the one receipt so far is that of `remember`
  have hsettles := (call_settled_iff hone.2 hsettled hv).1 (reportsSettled_iff.1 hreports) addr rfl
  obtain ⟨r, hr, hdel⟩ := (mem_deleteReceiptAddrs h.ne).1 hsettles
  obtain ⟨u, hexec⟩ := stepCall_eq_some.1 h.remembered
  obtain ⟨result, hresult⟩ := discard_ok.1 hexec
  obtain ⟨content, record, f, -, hstep, -⟩ := remember_step hresult
  obtain ⟨r', hr', hop, -⟩ := hstep.receipt
  rw [hr', hnew.receipts, List.nil_append, List.mem_singleton] at hr
  have hcreate : f.operation = .str (js "create") := by
    cases hstep.legal with
    | create _ _ _ hop => exact hop
  have hboth := hdel.operation
  rw [hr, hop, hcreate] at hboth
  simp at hboth

end EnigmaMemory
