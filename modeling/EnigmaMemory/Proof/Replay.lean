import EnigmaMemory.Lib.Run
import EnigmaMemory.Proof.VaultSteps

/-!
# The replay of receipts

Every address that a vault has ever stored a memory under is active, superseded or
deleted (`Fate`). The vault keeps this in its active set and its tombstones; an import
computes it again from the receipts. Both represent the same fates after every step that
is fresh and plain (`step_tracks`).

A step that is not lets the two fall apart: an update to a tombstoned address leaves it
active and tombstoned in the vault, where the replay removes the tombstone, and the
receipt of a recall named `delete` retires an address that the vault keeps.
-/

namespace EnigmaMemory

open Json
open Relation (ReflTransGen)

/-! ## Fates -/

inductive Fate where
  | active
  | superseded
  | deleted
  deriving DecidableEq

/-- The operation that the tombstone of an address names. -/
def Fate.operation : Fate → Option String
  | .active => none
  | .superseded => some "update"
  | .deleted => some "delete"

/-- The state of the record of an address. -/
def Fate.state : Fate → String
  | .active => "active"
  | .superseded => "superseded"
  | .deleted => "tombstoned"

/-- What has become of each address, if it was ever used. -/
abbrev Fates := JsString → Option Fate

def Fates.after (m : Fates) : Change → Fates
  | .note => m
  | .create addr _ => Function.update m addr (some .active)
  | .supersede old new _ _ _ => Function.update (Function.update m old (some .superseded)) new (some .active)
  | .retire addr _ _ => Function.update m addr (some .deleted)

/-- The fates that a set of active addresses and a map of tombstones stand for. -/
structure Represents (active : OrdSet JsString) (tombstones : OrdMap JsString Json) (m : Fates) : Prop where
  active : ∀ a, a ∈ active ↔ m a = some .active
  tombstones : ∀ a, (tombstones.get a).map (·.get (js "operation")) =
    ((m a).bind Fate.operation).map fun op => some (.str (js op))

namespace Represents

variable {A A' : OrdSet JsString} {T T' : OrdMap JsString Json} {m : Fates} {a old new : JsString} {t : Json}

theorem get_eq_none (h : Represents A T m) : T.get a = none ↔ (m a).bind Fate.operation = none := by
  rw [← Option.map_eq_none_iff (f := fun t => t.get (js "operation")), h.tombstones, Option.map_eq_none_iff]

theorem get_active (h : Represents A T m) (ha : m a = some .active) : T.get a = none := by
  rw [h.get_eq_none, ha]
  rfl

/-- An address is active or tombstoned, not both. -/
theorem disjoint (h : Represents A T m) (ha : a ∈ A) : T.has a = false :=
  OrdMap.has_eq_false.2 (h.get_active ((h.active a).1 ha))

theorem congr (h : Represents A T m) (hA : ∀ b, b ∈ A' ↔ b ∈ A) (hT : ∀ b, T'.get b = T.get b) : Represents A' T' m :=
  ⟨fun b => (hA b).trans (h.active b), fun b => by rw [hT, h.tombstones]⟩

theorem create (h : Represents A T m) (hfree : T.get a = none) :
    Represents (A.add a) T (Function.update m a (some .active)) := by
  refine ⟨fun b => ?_, fun b => ?_⟩
  · rw [OrdSet.mem_add, Function.update_apply, h.active]
    by_cases hb : b = a <;> simp [hb]
  · rw [Function.update_apply]
    by_cases hb : b = a
    · rw [if_pos hb, hb, hfree]
      rfl
    · rw [if_neg hb, h.tombstones]

theorem retire (h : Represents A T m) (ht : t.get (js "operation") = some (.str (js "delete"))) :
    Represents (A.delete a) (T.set a t) (Function.update m a (some .deleted)) := by
  refine ⟨fun b => ?_, fun b => ?_⟩
  · rw [OrdSet.mem_delete, Function.update_apply, h.active]
    by_cases hb : b = a <;> simp [hb]
  · rw [OrdMap.get_set, Function.update_apply]
    by_cases hb : b = a
    · rw [if_pos hb, if_pos hb, Option.map_some, ht]
      rfl
    · rw [if_neg hb, if_neg hb, h.tombstones]

theorem supersede (h : Represents A T m) (hne : old ≠ new) (hfree : T.get new = none)
    (ht : t.get (js "operation") = some (.str (js "update"))) :
    Represents ((A.delete old).add new) (T.set old t)
      (Function.update (Function.update m old (some .superseded)) new (some .active)) := by
  refine ⟨fun b => ?_, fun b => ?_⟩
  · rw [OrdSet.mem_add, OrdSet.mem_delete, Function.update_apply, Function.update_apply, h.active]
    by_cases hb : b = new
    · simp [hb]
    · by_cases hb' : b = old <;> simp [hb, hb']
  · rw [OrdMap.get_set, Function.update_apply, Function.update_apply]
    by_cases hb : b = new
    · subst hb
      rw [if_neg hne.symm, if_pos rfl, hfree]
      rfl
    · rw [if_neg hb]
      by_cases hb' : b = old
      · rw [if_pos hb', if_pos hb', Option.map_some, ht]
        rfl
      · rw [if_neg hb', if_neg hb', h.tombstones]

end Represents

/-! ## The replay of one event -/

variable {P : Platform} {v v' : Vault} {m : Fates} {ch : Change} {f : EventFields}

/-- What the replay reads from the receipt of an event. -/
structure ReplayReads (f : EventFields) (event : Json) : Prop where
  operation : event.get (js "operation") = some f.operation
  memory_addr : event.get (js "memory_addr") = orElse f.memory_addr none
  source_addr : event.get (js "source_addr") = orElse f.source_addr none

/-- **The replay of a receipt does what the step did.** -/
theorem replayEvent_represents {s : Lifecycle} {event : Json} (hv : Represents v.activeAddresses v.tombstones m)
    (hne : ∀ a, m a ≠ none → a ≠ []) (hs : Represents s.active s.tombstones m) (hlegal : ch.Legal v f)
    (hfresh : ch.Fresh v) (hplain : ch.Plain f) (hr : ReplayReads f event) :
    Represents (replayEvent s event).active (replayEvent s event).tombstones (m.after ch) := by
  -- the fate of a live address, in the replayed state too
  have hlive : ∀ a, Live v a → a ≠ [] ∧ a ∈ s.active ∧ s.tombstones.get a = none := by
    intro a ha
    have hm := (hv.active a).1 ha.active
    exact ⟨hne a (by simp [hm]), (hs.active a).2 hm, hs.get_active hm⟩
  have hfree : ∀ a, v.tombstones.has a = false → s.tombstones.get a = none := by
    intro a ha
    exact hs.get_eq_none.2 (hv.get_eq_none.1 (OrdMap.has_eq_false.1 ha))
  unfold replayEvent
  rw [hr.memory_addr, hr.operation, hr.source_addr]
  cases hlegal with
  | note hsource haddr =>
    rw [hsource]
    cases hma : f.memory_addr with
    | none => exact hs
    | some j =>
      obtain ⟨a, rfl, ha⟩ := haddr j hma
      obtain ⟨hane, hmem, hnone⟩ := hlive a ha
      -- an address that is active already
      have hsame : Represents (s.active.add a) (s.tombstones.delete a) m := by
        refine hs.congr (fun b => ?_) (fun b => ?_)
        · rw [OrdSet.mem_add]
          exact ⟨fun h => h.elim (fun h => h ▸ hmem) id, Or.inr⟩
        · rw [OrdMap.get_delete]
          split
          · rename_i hb
            rw [hb, hnone]
          · rfl
      have hdelete : Json.isStr (some f.operation) (js "delete") = false := by
        rw [← Bool.not_eq_true, Json.isStr_iff]
        exact fun h => hplain (Option.some.inj h)
      simp only [orElse, addrOf_str hane, hdelete, Bool.false_eq_true, if_false]
      split_ifs
      · exact hsame
      · exact hsame
      · exact hs
  | @create addr record hane hfree' hrecord hop hma hsource =>
    simp only [hma, hop, hsource, orElse, addrOf_str hane]
    rw [if_pos (by simp)]
    refine (hs.create (hfree addr hfree')).congr (fun b => Iff.rfl) (fun b => ?_)
    rw [OrdMap.get_delete]
    split
    · rename_i hb
      rw [hb, hfree addr hfree']
    · rfl
  | @supersede old new now record newRecord tombstone hold hnew hget hrecord htomb hop hma hsource =>
    obtain ⟨holdne, -, -⟩ := hlive old hold
    simp only [hma, hop, hsource, orElse, addrOf_str hnew, addrOf_str holdne]
    rw [if_neg (by simp), if_pos (by simp)]
    have hrep := hs.supersede hfresh.1 (hfree new hfresh.2)
      (t := replayedUpdate old new (event.get (js "timestamp"))) (by simp [replayedUpdate])
    refine hrep.congr (fun b => Iff.rfl) (fun b => ?_)
    rw [OrdMap.get_delete]
    split
    · rename_i hb
      rw [hb, OrdMap.get_set, if_neg hfresh.1.symm, hfree new hfresh.2]
    · rfl
  | @retire addr now tombstone haddr htomb hop hma hsource =>
    obtain ⟨hane, -, -⟩ := hlive addr haddr
    simp only [hma, hop, hsource, orElse, addrOf_str hane]
    rw [if_neg (by simp), if_neg (by simp), if_pos (by simp)]
    exact hs.retire (by simp [replayedDelete])

/-! ## Vaults -/

/-- A vault whose state has the given fates, and whose receipts replay to them. -/
structure Tracks (P : Platform) (v : Vault) (m : Fates) : Prop where
  live : Represents v.activeAddresses v.tombstones m
  ne : ∀ a, m a ≠ none → a ≠ []
  record : ∀ a r, v.memories.get a = some r → ∃ fate, m a = some fate ∧ IsRecord a fate.state r
  tombstone : ∀ a t, v.tombstones.get a = some t → ∃ op, IsTombstone a op t
  replay : ∃ s, deriveReceiptLifecycle v.receipts = .ok s ∧ Represents s.active s.tombstones m
  signed : ∀ r ∈ v.receipts, ∃ b signature, r = ReceiptBody.signed P b signature
  sequence : v.sequence = v.receipts.length

theorem Created.tracks {env : Ambient} {args : CreateArgs} (h : Created P env args v) : Tracks P v fun _ => none where
  live := by
    rw [h.activeAddresses, h.tombstones]
    exact ⟨fun a => by simp, fun a => rfl⟩
  ne a ha := absurd rfl ha
  record a r hr := by
    rw [h.memories] at hr
    cases hr
  tombstone a t ht := by
    rw [h.tombstones] at ht
    cases ht
  replay := by
    rw [h.receipts]
    exact ⟨_, rfl, fun a => by simp, fun a => rfl⟩
  signed r hr := by simp [h.receipts] at hr
  sequence := by rw [h.sequence, h.receipts]; rfl

theorem isRecord_retouch {a : JsString} {r : Json} {state : String} (h : IsRecord a state r) (state' : String)
    (now : JsString) : IsRecord a state' (retouch r state' now) where
  addr := by simp [retouch, h.addr]
  state := by simp [retouch]
  nodup := Json.nodup_set (Json.nodup_set h.nodup)

section Apply

variable (h : Tracks P v m) (hlegal : ch.Legal v f) (hfresh : ch.Fresh v)

include h hlegal hfresh

theorem apply_represents :
    Represents (ch.apply v).activeAddresses (ch.apply v).tombstones (m.after ch) := by
  cases hlegal with
  | note => exact h.live
  | create _ hfree => exact h.live.create (OrdMap.has_eq_false.1 hfree)
  | supersede _ _ _ _ htomb => exact h.live.supersede hfresh.1 (OrdMap.has_eq_false.1 hfresh.2) htomb.operation
  | retire _ htomb => exact h.live.retire htomb.operation

theorem apply_ne (a : JsString) (ha : m.after ch a ≠ none) : a ≠ [] := by
  cases hlegal with
  | note => exact h.ne a ha
  | @create addr record hne =>
    by_cases hb : a = addr
    · exact hb ▸ hne
    · rw [Fates.after, Function.update_of_ne hb] at ha
      exact h.ne a ha
  | @supersede old new now record newRecord tombstone hold hne =>
    by_cases hb : a = new
    · exact hb ▸ hne
    · rw [Fates.after, Function.update_of_ne hb] at ha
      by_cases hb' : a = old
      · subst hb'
        exact h.ne a (by simp [(h.live.active a).1 hold.active])
      · rw [Function.update_of_ne hb'] at ha
        exact h.ne a ha
  | @retire addr now tombstone haddr =>
    by_cases hb : a = addr
    · subst hb
      exact h.ne a (by simp [(h.live.active a).1 haddr.active])
    · rw [Fates.after, Function.update_of_ne hb] at ha
      exact h.ne a ha

theorem apply_record (a : JsString) (r : Json) (hr : (ch.apply v).memories.get a = some r) :
    ∃ fate, m.after ch a = some fate ∧ IsRecord a fate.state r := by
  cases hlegal with
  | note => exact h.record a r hr
  | @create addr record hne hfree hrecord =>
    rw [Change.apply, OrdMap.get_set] at hr
    by_cases hb : a = addr
    · rw [if_pos hb] at hr
      cases hr
      exact ⟨.active, by simp [Fates.after, hb], hb ▸ hrecord⟩
    · rw [if_neg hb] at hr
      rw [Fates.after, Function.update_of_ne hb]
      exact h.record a r hr
  | @supersede old new now record newRecord tombstone hold hne hget hrecord =>
    rw [Change.apply, OrdMap.get_set, OrdMap.get_set] at hr
    by_cases hb : a = new
    · rw [if_pos hb] at hr
      cases hr
      exact ⟨.active, by simp [Fates.after, hb], hb ▸ hrecord⟩
    · rw [if_neg hb] at hr
      rw [Fates.after, Function.update_of_ne hb]
      by_cases hb' : a = old
      · rw [if_pos hb'] at hr
        cases hr
        obtain ⟨fate, -, hold'⟩ := h.record old record hget
        exact ⟨.superseded, by simp [hb'], hb' ▸ isRecord_retouch hold' _ now⟩
      · rw [if_neg hb'] at hr
        rw [Function.update_of_ne hb']
        exact h.record a r hr
  | @retire addr now tombstone haddr =>
    by_cases hb : a = addr
    · subst hb
      cases hget : v.memories.get a with
      | none =>
        rw [hget] at hr
        exact absurd (hget.symm.trans hr) (by simp)
      | some record =>
        have hr' : (v.memories.set a (retouch record "tombstoned" now)).get a = some r := by
          rw [hget] at hr
          exact hr
        rw [OrdMap.get_set, if_pos rfl] at hr'
        cases hr'
        obtain ⟨fate, -, hold⟩ := h.record a record hget
        exact ⟨.deleted, by simp [Fates.after], isRecord_retouch hold _ now⟩
    · have hr' : v.memories.get a = some r := by
        cases hget : v.memories.get addr with
        | none =>
          rw [hget] at hr
          exact hr
        | some record =>
          rw [hget] at hr
          exact (by simp [hb] : (v.memories.set addr (retouch record "tombstoned" now)).get a = _).symm.trans hr
      rw [Fates.after, Function.update_of_ne hb]
      exact h.record a r hr'

omit hfresh in
theorem apply_tombstone (a : JsString) (t : Json) (ht : (ch.apply v).tombstones.get a = some t) :
    ∃ op, IsTombstone a op t := by
  -- a tombstone is kept, or it is the new one
  have hset : ∀ addr op tombstone, IsTombstone addr op tombstone → (v.tombstones.set addr tombstone).get a = some t →
      ∃ op, IsTombstone a op t := by
    intro addr op tombstone htomb hget
    rw [OrdMap.get_set] at hget
    split at hget
    · rename_i hb
      cases hget
      exact ⟨op, hb ▸ htomb⟩
    · exact h.tombstone a t hget
  cases hlegal with
  | note => exact h.tombstone a t ht
  | create => exact h.tombstone a t ht
  | supersede _ _ _ _ htomb => exact hset _ _ _ htomb ht
  | retire _ htomb => exact hset _ _ _ htomb ht

end Apply

/-- A receipt has no `event` of its own. -/
theorem receiptEvent_signed (b : ReceiptBody) (signature : JsString) :
    receiptEvent (b.signed P signature) = some (b.signed P signature) := by
  have hevent : (b.signed P signature).get (js "event") = none := by
    rw [get_signed, if_neg (by simp), get_unsigned, if_neg (by decide)]
  have hobj : ∃ fs, b.signed P signature = .obj fs := ⟨_, rfl⟩
  obtain ⟨fs, hfs⟩ := hobj
  rw [hfs] at hevent ⊢
  simp only [receiptEvent, hevent]

theorem replayReceipt_signed {s : Lifecycle} {b : ReceiptBody} {signature : JsString}
    (h : b.active_set_root = computeSetRoot (replayEvent s (b.signed P signature)).active.elems) :
    replayReceipt s (b.signed P signature) = .ok (replayEvent s (b.signed P signature)) := by
  simp only [replayReceipt, receiptEvent_signed, (reads_signed b signature).active_set_root]
  rw [if_pos h]

/-- The receipt of a step tells its operation and its address. -/
theorem Step.receipt (h : Step P v ch f v') : ∃ r, v'.receipts = v.receipts ++ [r] ∧
    r.get (js "operation") = some f.operation ∧ r.get (js "memory_addr") = orElse f.memory_addr none := by
  obtain ⟨env, e, he, rfl⟩ := h.appended
  obtain ⟨i, hi, -, rfl⟩ := nextEntry_ok.1 he
  have hreads := reads_signed (P := P) (i.body P (ch.apply v) f env) i.signature
  refine ⟨(i.body P (ch.apply v) f env).signed P i.signature, ?_, ?_, ?_⟩
  · rw [← apply_receipts v ch]
    rfl
  · rw [hreads.operation, hi.operation.1]
    rfl
  · rw [hreads.memory_addr]
    rfl

/-- **A fresh and plain step keeps the vault and the replay of its receipts together.** -/
theorem step_tracks (h : Tracks P v m) (hstep : Step P v ch f v') (hfresh : ch.Fresh v) (hplain : ch.Plain f) :
    Tracks P v' (m.after ch) := by
  obtain ⟨env, e, he, rfl⟩ := hstep.appended
  obtain ⟨i, hi, -, rfl⟩ := nextEntry_ok.1 he
  obtain ⟨s, hs, hrep⟩ := h.replay
  -- the receipt is made over a body that is not looked into any further
  obtain ⟨b, hb⟩ : ∃ b, b = i.body P (ch.apply v) f env := ⟨_, rfl⟩
  have hreads := reads_signed (P := P) b i.signature
  have hreceipts : (pushEntry P (ch.apply v) (i.entry P (ch.apply v) f env)).receipts =
      v.receipts ++ [b.signed P i.signature] := by
    rw [← apply_receipts v ch, hb]
    rfl
  have hlive := apply_represents h hstep.legal hfresh
  have hnext : Represents (replayEvent s (b.signed P i.signature)).active (replayEvent s (b.signed P i.signature)).tombstones
      (m.after ch) := replayEvent_represents h.live h.ne hrep hstep.legal hfresh hplain
    ⟨by rw [hreads.operation, hb, hi.operation.1]; rfl, by rw [hreads.memory_addr, hb]; rfl,
      by rw [hreads.source_addr, hb]; rfl⟩
  -- it carries the root of the active set after the change
  have hroot : b.active_set_root = computeSetRoot (replayEvent s (b.signed P i.signature)).active.elems := by
    have hactive : b.active_set_root = computeSetRoot (ch.apply v).activeAddresses.elems := by
      rw [hb]
      rfl
    rw [hactive]
    exact computeSetRoot_congr fun a => (hlive.active a).trans (hnext.active a).symm
  refine ⟨hlive, apply_ne h hstep.legal hfresh, apply_record h hstep.legal hfresh, apply_tombstone h hstep.legal,
    ⟨_, ?_, hnext⟩, ?_, ?_⟩
  · rw [hreceipts, deriveReceiptLifecycle, List.foldlM_append]
    refine Except.bind_eq_ok.2 ⟨s, hs, ?_⟩
    rw [List.foldlM_cons, replayReceipt_signed hroot]
    rfl
  · rw [hreceipts]
    intro r hr
    rcases List.mem_append.1 hr with hr | hr
    · exact h.signed r hr
    · exact ⟨_, _, List.mem_singleton.1 hr⟩
  · rw [hreceipts, List.length_append, List.length_singleton]
    change (ch.apply v).sequence + 1 = _
    rw [apply_sequence, h.sequence]
    push_cast
    rfl

theorem goodSteps_track (hsteps : ReflTransGen (GoodStep P) v v') (h : Tracks P v m) : ∃ m', Tracks P v' m' := by
  induction hsteps with
  | refl => exact ⟨m, h⟩
  | tail _ hstep ih =>
    obtain ⟨m', ih⟩ := ih
    obtain ⟨ch, f, hstep, hfresh, hplain⟩ := hstep
    exact ⟨_, step_tracks ih hstep hfresh hplain⟩

/-- **After a run of fresh and plain calls the receipts replay to the state of the vault.** -/
theorem run_tracks {calls : List Call} {v₀ : Vault} (h : ∃ m, Tracks P v₀ m)
    (hrun : Run.run (stepCall P) v₀ calls = some v)
    (hall : Run.All (stepCall P) (fun u c => c.Fresh P u ∧ c.Plain) v₀ calls) : ∃ m, Tracks P v m := by
  refine Run.run_induction (I := fun u => ∃ m, Tracks P u m) ?_ calls v₀ v h hall hrun
  rintro u c w ⟨m, hu⟩ ⟨hfresh, hplain⟩ hw
  exact goodSteps_track (call_goodSteps hw hfresh hplain) hu

end EnigmaMemory
