import EnigmaMemory.Proof.Reference
import EnigmaMemory.Proof.Settlement
import EnigmaMemory.Spec.Metering

/-!
# What an aggregate adds up

The groups of an aggregate belong to the names of a provider and a model, written one after the other with a zero
between them. Two pairs with the same writing share a group.

* `aggregate_groups_iff`: the groups are those of the pairs exactly if no two pairs are written alike and no count is
  lost to rounding.
* `exact_of_small`: counts whose sum is below 2^53 are not rounded.
-/

/-!
## What the scan lets pass

`Quiet` values pass wherever they stand.
-/

namespace EnigmaMemory

namespace SensitiveScan

open Json

variable {F : NumberFormat} {R : Rules}

def Rules.quietKey (R : Rules) (key : JsString) : Bool := !R.forbidsKey key

def Rules.quietString (R : Rules) (s : JsString) : Bool := !regexTest R.secretValueRe s

/-- A value that the scan lets pass. -/
inductive Quiet (R : Rules) : Json → Prop
  | null : Quiet R .null
  | bool (b : Bool) : Quiet R (.bool b)
  | num (q : ℚ) : Quiet R (.num q)
  | str {s : JsString} : R.quietString s = true → Quiet R (.str s)
  | arr {xs : List Json} : (∀ x ∈ xs, Quiet R x) → Quiet R (.arr xs)
  | obj {fs : List (JsString × Json)} : (∀ f ∈ fs, R.quietKey f.1 = true) → (∀ f ∈ fs, Quiet R f.2) → Quiet R (.obj fs)

theorem assertItems_quiet (xs : List Json) (h : ∀ x ∈ xs, ∀ path, assertNoSensitivePayload F R x path = .ok ()) :
    ∀ path index, assertItems F R xs path index = .ok () := by
  induction xs with
  | nil => exact fun _ _ => rfl
  | cons x xs ih =>
    intro path index
    rw [assertItems, h x List.mem_cons_self]
    exact ih (fun y hy => h y (List.mem_cons_of_mem _ hy)) path (index + 1)

/-- The scan of an object, under the names of its fields. -/
theorem assertFields_at (fs : List (JsString × Json)) (path : JsString) (hkeys : ∀ f ∈ fs, R.quietKey f.1 = true)
    (h : ∀ f ∈ fs, assertNoSensitivePayload F R f.2 (keyPath path f.1) = .ok ()) : assertFields F R fs path = .ok () := by
  induction fs with
  | nil => rfl
  | cons f fs ih =>
    obtain ⟨key, child⟩ := f
    have hkey := hkeys (key, child) List.mem_cons_self
    rw [Rules.quietKey, Bool.not_eq_true'] at hkey
    rw [assertFields, hkey, h (key, child) List.mem_cons_self]
    exact ih (fun g hg => hkeys g (List.mem_cons_of_mem _ hg)) fun g hg => h g (List.mem_cons_of_mem _ hg)

/-- **Quiet values pass.** -/
theorem Quiet.assert {value : Json} (h : Quiet R value) : ∀ path, assertNoSensitivePayload F R value path = .ok () := by
  induction h with
  | null | bool | num => exact fun _ => rfl
  | str hs =>
    intro path
    rw [Rules.quietString, Bool.not_eq_true'] at hs
    rw [assertNoSensitivePayload, hs, Bool.and_false]
    rfl
  | arr _ ih =>
    intro path
    rw [assertNoSensitivePayload]
    exact assertItems_quiet _ ih path 0
  | obj hkeys _ ih =>
    intro path
    rw [assertNoSensitivePayload]
    exact assertFields_at _ _ hkeys fun f hf => ih f hf _

/-- An object is quiet if its names and its values are. -/
theorem quiet_obj {names : List JsString} (hnames : names.all R.quietKey = true) {fs : List (JsString × Json)}
    (hfs : fs.map Prod.fst = names) (h : (fs.map Prod.snd).Forall (Quiet R)) : Quiet R (.obj fs) := by
  rw [List.forall_iff_forall_mem] at h
  subst hfs
  exact .obj (fun f hf => List.all_eq_true.1 hnames _ (List.mem_map_of_mem hf)) fun f hf => h _ (List.mem_map_of_mem hf)

/-- What the scan of settlements lets pass as a text, other scans for the same secrets do too. -/
theorem quiet_of_settlement (hre : R.secretValueRe = Settlement.secretValueRe) {s : JsString}
    (h : Settlement.Quiet (.str s)) : Quiet R (.str s) := by
  cases h with
  | str hs =>
    rw [Settlement.quietString, ← hre] at hs
    exact .str hs

end SensitiveScan

end EnigmaMemory

namespace EnigmaMemory

namespace Metering

open Json

variable {P : Platform} {asked : List UsageGroup → UsageGroup → Bool} {input : Json} {aggregate : UsageAggregate}

/-! ## Counts -/

inductive TokenField where
  | prompt
  | completion
  | memory_baseline
  | memory_optimized
  | memory_savings
  deriving DecidableEq

def TokenField.key : TokenField → String
  | prompt => "prompt_tokens"
  | completion => "completion_tokens"
  | memory_baseline => "memory_baseline_tokens"
  | memory_optimized => "memory_optimized_tokens"
  | memory_savings => "memory_savings_tokens"

def Totals.count (t : Totals) : TokenField → Total
  | .prompt => t.prompt_tokens
  | .completion => t.completion_tokens
  | .memory_baseline => t.memory_baseline_tokens
  | .memory_optimized => t.memory_optimized_tokens
  | .memory_savings => t.memory_savings_tokens

/-- The count of an event, if it is a number. -/
def countOf (f : TokenField) (event : Json) : ℚ :=
  match usageOf event f.key with
  | some (.num q) => q
  | _ => 0

/-- The counts of all events are integers. -/
def Integral (f : TokenField) (events : List Json) : Prop := ∀ e ∈ events, ∃ n : ℤ, usageOf e f.key = some (.num n)

def addDouble (sum : Numeric) (q : ℚ) : Numeric := sum.add nearestDouble (.finite q)

/-- The sum of some doubles, each added to the ones before. -/
def addDoubles (qs : List ℚ) : Numeric := qs.foldl addDouble (.finite 0)

/-- Nothing is lost when the numbers are added as doubles. -/
def Exact (qs : List ℚ) : Prop := addDoubles qs = .finite qs.sum

theorem count_addTotals (t : Totals) (e : Json) (f : TokenField) :
    (addTotals P nearestDouble t e).count f = (t.count f).plus P.toNumberFormat nearestDouble (usageOf e f.key) := by
  cases f <;> rfl

theorem Integral.count {f : TokenField} {events : List Json} (h : Integral f events) {e : Json} (he : e ∈ events) :
    usageOf e f.key = some (.num (countOf f e)) := by
  obtain ⟨n, hn⟩ := h e he
  rw [countOf, hn]

theorem Integral.subset {f : TokenField} {events part : List Json} (h : Integral f events) (hsub : part ⊆ events) :
    Integral f part :=
  fun e he => h e (hsub he)

/-- The totals of events with integers as counts. -/
theorem count_foldl {f : TokenField} (events : List Json) (h : Integral f events) : ∀ (t : Totals) (n : Numeric),
    t.count f = .number n → (events.foldl (addTotals P nearestDouble) t).count f =
      .number ((events.map (countOf f)).foldl addDouble n) := by
  induction events with
  | nil => exact fun t n ht => ht
  | cons e events ih =>
    intro t n ht
    have hcount := h.count List.mem_cons_self
    refine ih (fun e' he' => h e' (List.mem_cons_of_mem _ he')) _ _ ?_
    rw [count_addTotals, ht, hcount]
    rfl

theorem count_totals {f : TokenField} {events : List Json} (h : Integral f events) (currency : Option Json) :
    (events.foldl (addTotals P nearestDouble) (emptyTotals currency)).count f =
      .number (addDoubles (events.map (countOf f))) :=
  count_foldl events h _ _ (by cases f <;> rfl)

/-- Natural numbers are added exactly as long as their sum is below 2^53. -/
theorem exact_of_small (ns : List ℕ) (h : ns.sum < 2 ^ 53) : Exact (ns.map (Nat.cast : ℕ → ℚ)) := by
  suffices hadd : ∀ start : ℕ, start + ns.sum < 2 ^ 53 →
      (ns.map (Nat.cast : ℕ → ℚ)).foldl addDouble (.finite (start : ℚ)) =
        .finite ((start + ns.sum : ℕ) : ℚ) by
    have hzero := hadd 0 (by omega)
    rw [Nat.cast_zero, zero_add] at hzero
    rw [Exact, addDoubles, hzero]
    exact congrArg Numeric.finite (map_list_sum (Nat.castAddMonoidHom ℚ) ns)
  clear h
  induction ns with
  | nil => exact fun start _ => by simp
  | cons n ns ih =>
    intro start hstart
    rw [List.sum_cons] at hstart ⊢
    have hround : Double.round (((start + n : ℕ) : ℚ)) = ((start + n : ℕ) : ℚ) := Double.round_natCast (by omega)
    have hrange : Double.inRange ((start + n : ℕ) : ℚ) = true := by
      have hlt : ((start + n : ℕ) : ℚ) < 2 ^ 53 := by
        have hnat : start + n < 2 ^ 53 := by omega
        exact_mod_cast hnat
      rw [Double.inRange, decide_eq_true_eq, Nat.abs_cast]
      exact hlt.trans_le (pow_le_pow_right₀ one_le_two (by decide))
    have hnearest : addDouble (.finite start) n = .finite ((start + n : ℕ) : ℚ) := by
      rw [addDouble, Numeric.add, ← Nat.cast_add, nearestDouble, hround, if_pos hrange]
    rw [List.map_cons, List.foldl_cons, hnearest, ih (start + n) (by omega), Nat.add_assoc]

/-! ## Pairs -/

/-- The provider and the model of an event. -/
def pairOf (event : Json) : Option Json × Option Json := (event.get (js "provider"), event.get (js "model"))

def UsageGroup.pair (group : UsageGroup) : Option Json × Option Json := (group.provider, group.model)

open Classical in
/-- The events with a provider and a model. -/
noncomputable def eventsWith (events : List Json) (pair : Option Json × Option Json) : List Json :=
  events.filter fun e => pairOf e = pair

/-- A total as a number. -/
def valueOf : Total → ℚ
  | .number (.finite q) => q
  | _ => 0

/-- **The groups of an aggregate are those of the pairs**: there is one for each provider and model, with the number of
its events and the sums of their counts, which add up to those of all events. -/
structure GroupsExactly (events : List Json) (aggregate : UsageAggregate) : Prop where
  nodup : (aggregate.by_provider_model.map UsageGroup.pair).Nodup
  pairs : ∀ pair, pair ∈ aggregate.by_provider_model.map UsageGroup.pair ↔ pair ∈ events.map pairOf
  event_count : ∀ g ∈ aggregate.by_provider_model, g.event_count = (eventsWith events g.pair).length
  counts : ∀ f, Integral f events → ∀ g ∈ aggregate.by_provider_model,
    g.totals.count f = .number (.finite ((eventsWith events g.pair).map (countOf f)).sum)
  event_sum : (aggregate.by_provider_model.map UsageGroup.event_count).sum = aggregate.event_count
  count_sum : ∀ f, Integral f events → aggregate.totals.count f =
    .number (.finite (aggregate.by_provider_model.map fun g => valueOf (g.totals.count f)).sum)

/-- No two pairs are written alike. -/
def Separate (P : Platform) (events : List Json) : Prop :=
  ∀ e ∈ events, ∀ e' ∈ events, groupKey P e = groupKey P e' → pairOf e = pairOf e'

/-- No count is lost to rounding, neither for a pair nor for all events. -/
def Unrounded (events : List Json) : Prop :=
  ∀ f, Integral f events → Exact (events.map (countOf f)) ∧
    ∀ e ∈ events, Exact ((eventsWith events (pairOf e)).map (countOf f))

/-! ## Groups -/

theorem groupKey_pair {e e' : Json} (h : pairOf e = pairOf e') : groupKey P e = groupKey P e' := by
  obtain ⟨hprovider, hmodel⟩ := Prod.mk.inj h
  rw [groupKey, groupKey, hprovider, hmodel]

theorem add_foldl (events : List Json) : ∀ group : UsageGroup,
    events.foldl (UsageGroup.add P nearestDouble) group =
      { group with
        event_count := group.event_count + events.length
        totals := events.foldl (addTotals P nearestDouble) group.totals } := by
  induction events with
  | nil => exact fun group => rfl
  | cons e events ih =>
    intro group
    rw [List.foldl_cons, ih, List.foldl_cons, List.length_cons, UsageGroup.add, Nat.add_comm events.length, ← Nat.add_assoc]

/-- The group of a first event. -/
def groupOf (P : Platform) (currency : Option Json) (events : List Json) (first : Json) : UsageGroup where
  provider := first.get (js "provider")
  model := first.get (js "model")
  event_count := (Grouping.withKey (groupKey P) events (groupKey P first)).length
  totals := (Grouping.withKey (groupKey P) events (groupKey P first)).foldl (addTotals P nearestDouble) (emptyTotals currency)

theorem usageGroups_eq (currency : Option Json) (events : List Json) :
    usageGroups P nearestDouble currency events = (Grouping.firsts (groupKey P) events).map (groupOf P currency events) := by
  rw [usageGroups, Grouping.groups_eq, List.map_map]
  refine List.map_congr_left fun first _ => ?_
  rw [Function.comp_apply, add_foldl, openGroup, Nat.zero_add]
  rfl

theorem mem_firsts {events : List Json} {first : Json} (h : first ∈ Grouping.firsts (groupKey P) events) : first ∈ events :=
  (Grouping.firsts_sublist (groupKey P) events).subset h

/-- The events of a group are those of its pair, if no two pairs are written alike. -/
theorem withKey_eq {events : List Json} (h : Separate P events) {first : Json} (hfirst : first ∈ events) :
    Grouping.withKey (groupKey P) events (groupKey P first) = eventsWith events (pairOf first) := by
  classical
  refine List.filter_congr fun e he => decide_eq_decide.2 ⟨h e he first hfirst, groupKey_pair⟩

/-- The group of a pair has the sums of its events. -/
theorem groupOf_count {f : TokenField} {events : List Json} (h : Integral f events) (currency : Option Json) (first : Json) :
    (groupOf P currency events first).totals.count f =
      .number (addDoubles ((Grouping.withKey (groupKey P) events (groupKey P first)).map (countOf f))) :=
  count_totals (h.subset (List.filter_subset_self _)) currency

theorem GroupsExactly.congr {events : List Json} {a b : UsageAggregate} (h : GroupsExactly events a)
    (hperm : b.by_provider_model.Perm a.by_provider_model) (hcount : b.event_count = a.event_count) (htotals : b.totals = a.totals) :
    GroupsExactly events b where
  nodup := (hperm.map _).nodup_iff.2 h.nodup
  pairs pair := (hperm.map _).mem_iff.trans (h.pairs pair)
  event_count g hg := h.event_count g (hperm.mem_iff.1 hg)
  counts f hf g hg := h.counts f hf g (hperm.mem_iff.1 hg)
  event_sum := ((hperm.map _).sum_eq.trans h.event_sum).trans hcount.symm
  count_sum f hf := by rw [htotals, h.count_sum f hf, (hperm.map _).sum_eq]

/-! ## The groups of an aggregate -/

/-- What an aggregate is made of. -/
structure Aggregated (P : Platform) (events : List Json) (aggregate : UsageAggregate) (currency : Option Json) : Prop where
  event_count : aggregate.event_count = events.length
  totals : aggregate.totals = events.foldl (addTotals P nearestDouble) (emptyTotals currency)
  groups : aggregate.by_provider_model.Perm ((Grouping.firsts (groupKey P) events).map (groupOf P currency events))

theorem aggregateUsageEvents_ok (h : aggregateUsageEvents P nearestDouble asked input = .ok aggregate) :
    ∃ currency, Aggregated P (eventsOf (aggregateArgs input)) aggregate currency := by
  simp only [aggregateUsageEvents, Except.bind_eq_ok] at h
  obtain ⟨-, -, -, -, -, -, currency, -, -, -, tenantId, -, meterId, -, generatedAt, -, groups, hgroups, -, -, h⟩ := h
  cases Except.pure_eq_ok.1 h
  refine ⟨currency, rfl, rfl, ?_⟩
  unfold sortGroups at hgroups
  split at hgroups
  · cases hgroups
  · cases hgroups
    rw [← usageGroups_eq]
    exact List.perm_insertionSort _ _

variable {events : List Json} {currency : Option Json}

theorem Aggregated.pairs (h : Aggregated P events aggregate currency) :
    (aggregate.by_provider_model.map UsageGroup.pair).Perm ((Grouping.firsts (groupKey P) events).map pairOf) := by
  have hpairs := h.groups.map UsageGroup.pair
  rwa [List.map_map] at hpairs

theorem Aggregated.group (h : Aggregated P events aggregate currency) {g : UsageGroup} (hg : g ∈ aggregate.by_provider_model) :
    ∃ first ∈ Grouping.firsts (groupKey P) events, groupOf P currency events first = g :=
  List.mem_map.1 (h.groups.mem_iff.1 hg)

/-- If there is a group for each pair, no two pairs are written alike. -/
theorem Aggregated.separate (h : Aggregated P events aggregate currency)
    (hpairs : ∀ pair, pair ∈ events.map pairOf → pair ∈ aggregate.by_provider_model.map UsageGroup.pair) : Separate P events := by
  have hfirst : ∀ e ∈ events, ∃ first ∈ Grouping.firsts (groupKey P) events, pairOf first = pairOf e := by
    intro e he
    exact List.mem_map.1 (h.pairs.mem_iff.1 (hpairs _ (List.mem_map_of_mem he)))
  intro e he e' he' hkey
  obtain ⟨first, hmem, hpair⟩ := hfirst e he
  obtain ⟨first', hmem', hpair'⟩ := hfirst e' he'
  have hsame : first = first' := by
    refine List.inj_on_of_nodup_map (Grouping.nodup_firsts (groupKey P) events) hmem hmem' ?_
    rw [groupKey_pair hpair, groupKey_pair hpair', hkey]
  rw [← hpair, ← hpair', hsame]

/-- The sums of the pairs add up. -/
theorem Aggregated.sum_values (h : Aggregated P events aggregate currency) (hseparate : Separate P events) {f : TokenField}
    (hcount : ∀ g ∈ aggregate.by_provider_model,
      g.totals.count f = .number (.finite ((eventsWith events g.pair).map (countOf f)).sum)) :
    (aggregate.by_provider_model.map fun g => valueOf (g.totals.count f)).sum = (events.map (countOf f)).sum := by
  have hvalues : aggregate.by_provider_model.map (fun g => valueOf (g.totals.count f)) =
      aggregate.by_provider_model.map fun g => ((eventsWith events g.pair).map (countOf f)).sum :=
    List.map_congr_left fun g hg => by rw [hcount g hg]; rfl
  have hgroups : (Grouping.firsts (groupKey P) events).map
        (fun a => ((Grouping.withKey (groupKey P) events (groupKey P a)).map (countOf f)).sum) =
      (Grouping.firsts (groupKey P) events).map fun a => ((eventsWith events (pairOf a)).map (countOf f)).sum :=
    List.map_congr_left fun a ha => by rw [withKey_eq hseparate (mem_firsts ha)]
  rw [hvalues, (h.groups.map _).sum_eq, List.map_map, ← Grouping.sum_groups (groupKey P) (countOf f) events, hgroups]
  rfl

theorem Aggregated.exactly (h : Aggregated P events aggregate currency) (hseparate : Separate P events)
    (hunrounded : Unrounded events) : GroupsExactly events aggregate := by
  have hcount : ∀ f, Integral f events → ∀ g ∈ aggregate.by_provider_model,
      g.totals.count f = .number (.finite ((eventsWith events g.pair).map (countOf f)).sum) := by
    intro f hf g hg
    obtain ⟨first, hfirst, rfl⟩ := h.group hg
    rw [groupOf_count hf, withKey_eq hseparate (mem_firsts hfirst), (hunrounded f hf).2 first (mem_firsts hfirst)]
    rfl
  refine ⟨?_, fun pair => ?_, ?_, hcount, ?_, fun f hf => ?_⟩
  · refine h.pairs.nodup_iff.2 (List.Nodup.map_on (fun x hx y hy he => ?_) (List.Nodup.of_map _ (Grouping.nodup_firsts (groupKey P) events)))
    exact List.inj_on_of_nodup_map (Grouping.nodup_firsts (groupKey P) events) hx hy (groupKey_pair he)
  · rw [h.pairs.mem_iff, List.mem_map, List.mem_map]
    constructor
    · rintro ⟨first, hfirst, rfl⟩
      exact ⟨first, mem_firsts hfirst, rfl⟩
    · rintro ⟨e, he, rfl⟩
      obtain ⟨first, hfirst, hkey⟩ := List.mem_map.1 ((Grouping.mem_keys_firsts (groupKey P) _ _).2 (List.mem_map_of_mem he))
      exact ⟨first, hfirst, hseparate first (mem_firsts hfirst) e he hkey⟩
  · intro g hg
    obtain ⟨first, hfirst, rfl⟩ := h.group hg
    exact congrArg List.length (withKey_eq hseparate (mem_firsts hfirst))
  · have hsum := Grouping.sum_groups (groupKey P) (fun _ => 1) events
    rw [h.event_count, (h.groups.map _).sum_eq, List.map_map]
    simpa [Function.comp_def, groupOf] using hsum
  · rw [h.totals, count_totals hf, (hunrounded f hf).1, h.sum_values hseparate (hcount f hf)]

theorem Aggregated.unrounded (h : Aggregated P events aggregate currency) (hexactly : GroupsExactly events aggregate)
    (hseparate : Separate P events) : Unrounded events := by
  intro f hf
  have hpair : ∀ e ∈ events, Exact ((eventsWith events (pairOf e)).map (countOf f)) := by
    intro e he
    obtain ⟨g, hg, hge⟩ := List.mem_map.1 ((hexactly.pairs _).2 (List.mem_map_of_mem he))
    have hcount := hexactly.counts f hf g hg
    obtain ⟨first, hfirst, rfl⟩ := h.group hg
    rw [groupOf_count hf, withKey_eq hseparate (mem_firsts hfirst)] at hcount
    rw [← hge]
    exact Total.number.inj hcount
  refine ⟨?_, hpair⟩
  have hsum := hexactly.count_sum f hf
  rw [h.totals, count_totals hf, h.sum_values hseparate (hexactly.counts f hf)] at hsum
  exact Total.number.inj hsum

/-- **An aggregate groups by provider and model exactly if** no two pairs among the events are written alike and no
count is lost to rounding. -/
theorem aggregate_groups_iff (P : Platform) (asked : List UsageGroup → UsageGroup → Bool) (input : Json)
    (aggregate : UsageAggregate) (h : aggregateUsageEvents P nearestDouble asked input = .ok aggregate) :
    GroupsExactly (eventsOf (aggregateArgs input)) aggregate ↔
      Separate P (eventsOf (aggregateArgs input)) ∧ Unrounded (eventsOf (aggregateArgs input)) := by
  obtain ⟨currency, hagg⟩ := aggregateUsageEvents_ok h
  constructor
  · intro hexactly
    have hseparate := hagg.separate fun pair => (hexactly.pairs pair).2
    exact ⟨hseparate, hagg.unrounded hexactly hseparate⟩
  · rintro ⟨hseparate, hunrounded⟩
    exact hagg.exactly hseparate hunrounded

/-! ## Two pairs that are written alike -/

def sampleUsage : Json :=
  .obj [(js "prompt_tokens", .num 10), (js "completion_tokens", .num 5), (js "memory_baseline_tokens", .num 10),
    (js "memory_optimized_tokens", .num 8), (js "memory_savings_tokens", .num 2)]

def sampleCost : Json :=
  .obj [(js "currency", .str (js "USD")), (js "cost_before_memory", .num 3), (js "cost_after_memory", .num 2),
    (js "estimated_memory_credit", .num 1)]

def sampleEvent (provider model : JsString) : Json :=
  .obj [(js "schema", .str usageEventSchema), (js "tenant_id", .str (js "tenant-1")), (js "provider", .str provider),
    (js "model", .str model), (js "usage", sampleUsage), (js "estimated_cost", sampleCost),
    (js "event_hash", .str (Settlement.digest reference .null))]

/-- A zero at the end of the provider, and one at the start of the model. -/
def alikeEvents : List Json := [sampleEvent (js "a" ++ 0 :: js "b") (js "c"), sampleEvent (js "a") (js "b" ++ 0 :: js "c")]

theorem alike_keys : groupKey reference (sampleEvent (js "a" ++ 0 :: js "b") (js "c")) =
    groupKey reference (sampleEvent (js "a") (js "b" ++ 0 :: js "c")) := rfl

theorem alike_pairs : pairOf (sampleEvent (js "a" ++ 0 :: js "b") (js "c")) ≠ pairOf (sampleEvent (js "a") (js "b" ++ 0 :: js "c")) := by
  intro h
  have hprovider : js "a" ++ 0 :: js "b" = js "a" := Json.str.inj (Option.some.inj (Prod.mk.inj h).1)
  exact absurd hprovider (by decide)

def alikeInput : Json := .arr alikeEvents

/-- The names in an aggregate of the events. -/
def sampleNames : List JsString :=
  [js "schema", js "product_thesis", js "tenant_id", js "meter_id", js "generated_at", js "event_count", js "event_hashes",
    js "totals", js "by_provider_model", js "claim_boundary", js "aggregate_id", js "aggregate_hash", js "provider", js "model",
    js "usage", js "estimated_cost", js "event_hash", js "currency", js "prompt_tokens", js "completion_tokens",
    js "memory_baseline_tokens", js "memory_optimized_tokens", js "memory_savings_tokens", js "cost_before_memory",
    js "cost_after_memory", js "estimated_memory_credit"]

theorem sampleNames_quiet {names : List JsString} (h : names ⊆ sampleNames) : names.all scanRules.quietKey = true := by
  have hall : sampleNames.all scanRules.quietKey = true := by
    unfold sampleNames
    repeat rw [js_ofList]
    decide +kernel
  exact List.all_eq_true.2 fun key hkey => List.all_eq_true.1 hall key (h hkey)

theorem quiet_event {provider model : JsString} (hprovider : scanRules.quietString provider = true)
    (hmodel : scanRules.quietString model = true) : SensitiveScan.Quiet scanRules (sampleEvent provider model) := by
  have husage : SensitiveScan.Quiet scanRules sampleUsage :=
    SensitiveScan.quiet_obj (sampleNames_quiet (by simp [sampleNames])) rfl ⟨.num _, .num _, .num _, .num _, .num _⟩
  have hcost : SensitiveScan.Quiet scanRules sampleCost :=
    SensitiveScan.quiet_obj (sampleNames_quiet (by simp [sampleNames])) rfl ⟨.str (by decide), .num _, .num _, .num _⟩
  exact SensitiveScan.quiet_obj (sampleNames_quiet (by simp [sampleNames])) rfl ⟨.str (by decide), .str (by decide),
    .str hprovider, .str hmodel, husage, hcost, SensitiveScan.quiet_of_settlement rfl (Settlement.quiet_digest _)⟩

theorem quiet_alike : ∀ e ∈ alikeEvents, SensitiveScan.Quiet scanRules e := by
  simp only [alikeEvents, List.forall_mem_cons, List.not_mem_nil, false_implies, implies_true, and_true]
  exact ⟨quiet_event (by decide) (by decide), quiet_event (by decide) (by decide)⟩

/-- Totals in one currency, all of them numbers. -/
def Numbers (t : Totals) : Prop :=
  ∃ a b c d e f g h : Numeric, t = ⟨some (.str (js "USD")), .number a, .number b, .number c, .number d, .number e,
    .number f, .number g, .number h⟩

theorem Numbers.add {t : Totals} (h : Numbers t) (provider model : JsString) :
    Numbers (addTotals reference nearestDouble t (sampleEvent provider model)) := by
  obtain ⟨a, b, c, d, e, f, g, h, rfl⟩ := h
  exact ⟨_, _, _, _, _, _, _, _, rfl⟩

theorem Numbers.quiet {t : Totals} (h : Numbers t) : SensitiveScan.Quiet scanRules t.toJson := by
  have hnumber : ∀ n, SensitiveScan.Quiet scanRules (Total.number n).toJson := by
    intro n
    cases n with
    | finite q => exact .num q
    | nan | posInf | negInf => exact .null
  obtain ⟨a, b, c, d, e, f, g, h, rfl⟩ := h
  exact SensitiveScan.quiet_obj (sampleNames_quiet (List.drop_subset 17 sampleNames)) rfl ⟨.str (by decide), hnumber a,
    hnumber b, hnumber c, hnumber d, hnumber e, hnumber f, hnumber g, hnumber h⟩

/-- The totals of both events. -/
def alikeTotals : Totals := alikeEvents.foldl (addTotals reference nearestDouble) (emptyTotals (some (.str (js "USD"))))

theorem alike_numbers : Numbers alikeTotals :=
  (Numbers.add (Numbers.add ⟨_, _, _, _, _, _, _, _, rfl⟩ _ _) _ _)

/-- The group of both events. -/
def alikeGroup : UsageGroup where
  provider := some (.str (js "a" ++ 0 :: js "b"))
  model := some (.str (js "c"))
  event_count := 2
  totals := alikeTotals

theorem alike_groups : usageGroups reference nearestDouble (some (.str (js "USD"))) alikeEvents = [alikeGroup] := by
  simp only [usageGroups, alikeEvents, Grouping.groups, List.foldl_cons, List.foldl_nil, Grouping.enter, alike_keys, if_true]
  rfl

def alikeAggregate : UsageAggregate where
  tenant_id := js "tenant-1"
  meter_id := some (.str (js "aggregate"))
  generated_at := Settlement.epoch reference
  event_count := 2
  event_hashes := alikeEvents.map (·.get (js "event_hash"))
  totals := alikeTotals
  by_provider_model := [alikeGroup]

theorem quiet_group : SensitiveScan.Quiet scanRules alikeGroup.toJson := by
  have hnames : [js "provider", js "model", js "event_count", js "totals"].all scanRules.quietKey = true :=
    sampleNames_quiet (by simp [sampleNames])
  exact SensitiveScan.quiet_obj hnames rfl ⟨.str (by decide), .str (by decide), .num _, alike_numbers.quiet⟩

theorem quiet_boundary : SensitiveScan.Quiet scanRules claimBoundary := by
  refine .arr ?_
  simp only [List.forall_mem_cons, List.not_mem_nil, false_implies, implies_true, and_true]
  rw [js_ofList, js_ofList, js_ofList]
  exact ⟨.str (by decide +kernel), .str (by decide +kernel), .str (by decide +kernel)⟩

theorem quiet_aggregate : SensitiveScan.Quiet scanRules (alikeAggregate.toJson reference) := by
  have hthesis : scanRules.quietString productThesis = true := by
    rw [productThesis, js_ofList]
    decide +kernel
  have hhash : SensitiveScan.Quiet scanRules (.str (Settlement.digest reference .null)) :=
    SensitiveScan.quiet_of_settlement rfl (Settlement.quiet_digest _)
  refine SensitiveScan.quiet_obj (sampleNames_quiet (List.take_subset 12 sampleNames)) rfl ⟨.str (by decide), .str hthesis,
    .str (by decide), .str (by decide), .str (by decide), .num _, .arr ?_, alike_numbers.quiet, .arr ?_, quiet_boundary,
    SensitiveScan.quiet_of_settlement rfl (Settlement.quiet_idFrom (by decide) _),
    SensitiveScan.quiet_of_settlement rfl (Settlement.quiet_digest _)⟩
  · exact List.forall_mem_cons.2 ⟨hhash, List.forall_mem_cons.2 ⟨hhash, fun x hx => absurd hx List.not_mem_nil⟩⟩
  · exact List.forall_mem_cons.2 ⟨quiet_group, fun x hx => absurd hx List.not_mem_nil⟩

theorem alike_accepted : ∃ aggregate, aggregateUsageEvents reference nearestDouble (fun _ _ => true) alikeInput = .ok aggregate := by
  have hscan : ∀ e ∈ alikeEvents, ∀ path, assertNoSensitivePayload reference e path = .ok () :=
    fun e he => (quiet_alike e he).assert
  have hrequire : requireUsageEvents reference alikeEvents 0 = .ok () := by
    simp only [alikeEvents, List.forall_mem_cons] at hscan
    simp only [alikeEvents, requireUsageEvents, requireUsageEvent, hscan.1, hscan.2.1]
    rfl
  have hcurrency : Settlement.member ((alikeEvents.head?.getD .null).get (js "estimated_cost")) "currency" =
      .ok (some (.str (js "USD"))) := rfl
  have hcheck : checkEvents (some (.str (js "USD"))) alikeEvents 0 = .ok () := rfl
  have htenant : Settlement.requiredString (orElse (Settlement.option (aggregateArgs alikeInput) "tenant_id" "tenantId")
      (commonTenant alikeEvents)) "tenant_id" = .ok (js "tenant-1") := rfl
  have hmeter : Settlement.optionalString reference (Settlement.option (aggregateArgs alikeInput) "meter_id" "meterId")
      (some (.str (js "aggregate"))) = .ok (some (.str (js "aggregate"))) := rfl
  have hdate : Settlement.isoTimestamp reference (Settlement.option (aggregateArgs alikeInput) "generated_at" "generatedAt")
      "timestamp" (Settlement.epoch reference) = .ok (Settlement.epoch reference) := rfl
  have hsort : sortGroups reference nearestDouble (fun _ _ => true)
      (usageGroups reference nearestDouble (some (.str (js "USD"))) alikeEvents) = .ok [alikeGroup] := by
    rw [alike_groups]
    rfl
  have hquiet : assertNoSensitivePayload reference (alikeAggregate.toJson reference) (js "aggregate") = .ok () :=
    quiet_aggregate.assert _
  refine ⟨alikeAggregate, ?_⟩
  simp only [aggregateUsageEvents, Except.bind_eq_ok]
  exact ⟨(), rfl, (), hrequire, (), rfl, _, hcurrency, (), hcheck, _, htenant, _, hmeter, _, hdate, _, hsort, (), hquiet, rfl⟩

/-- The aggregate of the two events. -/
theorem aggregate_groups_iff_alike : ∃ aggregate,
    aggregateUsageEvents reference nearestDouble (fun _ _ => true) alikeInput = .ok aggregate ∧
      (GroupsExactly alikeEvents aggregate ↔ Separate reference alikeEvents ∧ Unrounded alikeEvents) := by
  obtain ⟨aggregate, h⟩ := alike_accepted
  exact ⟨aggregate, h, aggregate_groups_iff reference (fun _ _ => true) alikeInput aggregate h⟩

/-- Both events are in the group of the first. -/
theorem alike_merged : ¬∀ (P : Platform) (asked : List UsageGroup → UsageGroup → Bool) (input : Json) (aggregate : UsageAggregate),
    aggregateUsageEvents P nearestDouble asked input = .ok aggregate → GroupsExactly (eventsOf (aggregateArgs input)) aggregate := by
  intro hall
  obtain ⟨aggregate, h⟩ := alike_accepted
  obtain ⟨currency, hagg⟩ := aggregateUsageEvents_ok h
  have hpairs := (hall reference _ alikeInput aggregate h).pairs
  have hseparate : Separate reference alikeEvents := hagg.separate fun pair => (hpairs pair).2
  exact alike_pairs (hseparate _ (by simp [alikeEvents]) _ (by simp [alikeEvents]) alike_keys)

end Metering

end EnigmaMemory
