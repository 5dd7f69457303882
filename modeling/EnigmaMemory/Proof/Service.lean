import EnigmaMemory.Lib.Run
import EnigmaMemory.Spec.Service
import Mathlib.Data.List.Basic

/-!
# What the sidecar supervisor guarantees

* `One`: a watcher is in its `select!` exactly while the service says that it is running, so there is
  never a second child.
* `supervisor_obeys`: stops are final in every run in which nobody stops the service during the delay before
  a restart, and the restart limit holds in every run in which nobody starts it then.
-/

namespace EnigmaMemory.Service

open Run

variable {c : ServiceConfig} {s t : ServiceHandle} {p : Watcher → Bool}

/-! ## Counting watchers -/

theorem countP_set {l : List Watcher} {i : ℕ} {w : Watcher} (h : l[i]? = some w) (w' : Watcher) :
    (l.set i w').countP p + (if p w then 1 else 0) = l.countP p + if p w' then 1 else 0 := by
  induction l generalizing i with
  | nil => cases h
  | cons x l ih =>
    cases i with
    | zero =>
      cases Option.some.inj h
      rw [List.set_cons_zero, List.countP_cons, List.countP_cons]
      omega
    | succ i =>
      have hrest := ih (i := i) h
      rw [List.set_cons_succ, List.countP_cons, List.countP_cons]
      omega

theorem countP_signal (hp : ∀ w, p w.signal = p w) (tx : Option ℕ) (l : List Watcher) :
    (ServiceHandle.signal tx l).countP p = l.countP p := by
  cases tx with
  | none => rfl
  | some i =>
    induction l generalizing i with
    | nil => cases i <;> rfl
    | cons x l ih =>
      cases i with
      | zero =>
        change (x.signal :: l).countP p = _
        rw [List.countP_cons, List.countP_cons, hp]
      | succ i =>
        change (x :: l.modify i Watcher.signal).countP p = _
        rw [List.countP_cons, List.countP_cons]
        exact congrArg (· + _) (ih i)

theorem isWaiting_signal (w : Watcher) : w.signal.isWaiting = w.isWaiting := by
  cases w <;> rfl

theorem isSleeping_signal (w : Watcher) : w.signal.isSleeping = w.isSleeping := by
  cases w <;> rfl

theorem alive_isWaiting {w : Watcher} (h : w.alive = true) : w.isWaiting = true := by
  cases w with
  | waiting => rfl
  | sleeping => cases h
  | finished => cases h

theorem length_signal (tx : Option ℕ) (l : List Watcher) : (ServiceHandle.signal tx l).length = l.length := by
  cases tx with
  | none => rfl
  | some i => exact List.length_modify _ _ _

/-- The watchers in their `select!`. -/
def waiting (s : ServiceHandle) : ℕ := s.watchers.countP Watcher.isWaiting

/-- The watchers in their delay. -/
def sleeping (s : ServiceHandle) : ℕ := s.watchers.countP Watcher.isSleeping

/-- The children that are alive. -/
def children (s : ServiceHandle) : ℕ := s.watchers.countP Watcher.alive

theorem children_le_waiting (s : ServiceHandle) : children s ≤ waiting s :=
  List.countP_mono_left fun _ _ => alive_isWaiting

/-! ## What each step does -/

/-- A start that finds the service running does nothing, one whose spawn fails only forgets the stop, and any other adds a
watcher. -/
theorem start_cases (s : ServiceHandle) (spawned : Option ℕ) (now : ℕ) :
    (s.running = true ∧ s.start spawned now = s) ∨
    (s.running = false ∧ (s.start spawned now).restart_count = s.restart_count ∧
      sleeping (s.start spawned now) = sleeping s ∧
      (((s.start spawned now).running = false ∧ (s.start spawned now).watchers.length = s.watchers.length ∧
          waiting (s.start spawned now) = waiting s) ∨
        ((s.start spawned now).running = true ∧ (s.start spawned now).watchers.length = s.watchers.length + 1 ∧
          waiting (s.start spawned now) = waiting s + 1))) := by
  unfold ServiceHandle.start
  by_cases hrunning : s.running = true
  · exact .inl ⟨hrunning, if_pos hrunning⟩
  · have hidle : s.running = false := eq_false_of_ne_true hrunning
    refine .inr ⟨hidle, ?_⟩
    rw [if_neg hrunning]
    cases spawned with
    | none => exact ⟨rfl, rfl, .inl ⟨hidle, rfl, rfl⟩⟩
    | some pid =>
      refine ⟨rfl, ?_, .inr ⟨rfl, ?_, ?_⟩⟩
      · simp only [sleeping, List.countP_append, countP_signal isSleeping_signal]
        rfl
      · simp only [List.length_append, length_signal, List.length_singleton]
      · simp only [waiting, List.countP_append, countP_signal isWaiting_signal]
        rfl

theorem stop_facts (s : ServiceHandle) : s.stop.running = s.running ∧ s.stop.shutdown = true ∧
    s.stop.restart_count = s.restart_count ∧ s.stop.watchers.length = s.watchers.length ∧ waiting s.stop = waiting s ∧
    sleeping s.stop = sleeping s :=
  ⟨rfl, rfl, rfl, length_signal _ _, countP_signal isWaiting_signal _ _, countP_signal isSleeping_signal _ _⟩

theorem exit_facts {i : ℕ} (h : step c s (.exit i) = some t) : t.running = s.running ∧ t.shutdown = s.shutdown ∧
    t.restart_count = s.restart_count ∧ t.watchers.length = s.watchers.length ∧ waiting t = waiting s ∧
    sleeping t = sleeping s := by
  rw [step] at h
  split at h
  · rename_i stopped hi
    cases h
    have hwaiting := countP_set (p := Watcher.isWaiting) hi (.waiting false stopped)
    have hsleeping := countP_set (p := Watcher.isSleeping) hi (.waiting false stopped)
    exact ⟨rfl, rfl, rfl, List.length_set, Nat.add_right_cancel hwaiting, Nat.add_right_cancel hsleeping⟩
  · cases h

/-- A watcher that leaves its `select!` goes on to sleep only if there was no stop and restarts are left. -/
theorem poll_facts {i : ℕ} (h : step c s (.poll i) = some t) : t.running = false ∧ t.shutdown = s.shutdown ∧
    t.restart_count = s.restart_count ∧ t.watchers.length = s.watchers.length ∧ waiting t + 1 = waiting s ∧
    ((sleeping t = sleeping s) ∨
      (sleeping t = sleeping s + 1 ∧ s.shutdown = false ∧ s.restart_count < c.max_restarts)) := by
  rw [step] at h
  split at h
  · rename_i alive stopped hi
    split at h
    · cases h
      refine ⟨rfl, rfl, rfl, List.length_set, ?_, ?_⟩
      · have hwaiting := fun w' => countP_set (p := Watcher.isWaiting) hi w'
        unfold ServiceHandle.ended waiting
        split
        · exact hwaiting .finished
        · split
          · exact hwaiting .finished
          · exact hwaiting .sleeping
      · have hsleeping := fun w' => countP_set (p := Watcher.isSleeping) hi w'
        unfold ServiceHandle.ended sleeping
        split
        · exact .inl (hsleeping .finished)
        · rename_i hshutdown
          split
          · exact .inl (hsleeping .finished)
          · rename_i hlimit
            exact .inr ⟨hsleeping .sleeping, eq_false_of_ne_true hshutdown, Nat.lt_of_not_le hlimit⟩
    · cases h
  · cases h

/-- The end of a delay is a start with one more restart counted. -/
theorem wake_facts {i now : ℕ} {spawned : Option ℕ} (h : step c s (.wake i spawned now) = some t) : ∃ u : ServiceHandle,
    u.running = s.running ∧ u.restart_count = s.restart_count + 1 ∧ u.watchers.length = s.watchers.length ∧
    waiting u = waiting s ∧ sleeping u + 1 = sleeping s ∧ t = u.start spawned now := by
  rw [step] at h
  split at h
  · rename_i hi
    cases h
    exact ⟨{ s with restart_count := s.restart_count + 1, watchers := s.watchers.set i .finished }, rfl, rfl,
      List.length_set, countP_set (p := Watcher.isWaiting) hi .finished,
      countP_set (p := Watcher.isSleeping) hi .finished, rfl⟩
  · cases h

/-! ## One child -/

/-- A watcher is in its `select!` exactly while the service says that it is running, and no other is. -/
def One (s : ServiceHandle) : Prop := waiting s = if s.running then 1 else 0

theorem one_start (h : One s) (spawned : Option ℕ) (now : ℕ) : One (s.start spawned now) := by
  unfold One at h ⊢
  rcases start_cases s spawned now with ⟨-, heq⟩ | ⟨hidle, -, -, ⟨hrunning, -, hwaiting⟩ | ⟨hrunning, -, hwaiting⟩⟩
  · rw [heq, h]
  · rw [hwaiting, hrunning, h, hidle]
  · rw [hwaiting, hrunning, h, hidle]
    rfl

theorem one_step (s : ServiceHandle) (a : Action) (t : ServiceHandle) (h : One s) (hstep : step c s a = some t) : One t := by
  cases a with
  | start spawned now =>
    cases hstep
    exact one_start h spawned now
  | stop =>
    cases hstep
    obtain ⟨hrunning, -, -, -, hwaiting, -⟩ := stop_facts s
    rw [One, hwaiting, hrunning, h]
  | exit i =>
    obtain ⟨hrunning, -, -, -, hwaiting, -⟩ := exit_facts hstep
    rw [One, hwaiting, hrunning, h]
  | poll i =>
    obtain ⟨hrunning, -, -, -, hwaiting, -⟩ := poll_facts hstep
    rw [One, hrunning]
    unfold One at h
    split at h <;> simp <;> omega
  | wake i spawned now =>
    obtain ⟨u, hrunning, -, -, hwaiting, -, rfl⟩ := wake_facts hstep
    refine one_start ?_ spawned now
    rw [One, hwaiting, hrunning, h]

/-! ## Stops -/

/-- Nobody restarts the service any more. -/
structure Quiet (s : ServiceHandle) : Prop where
  shutdown : s.shutdown = true
  sleeping : sleeping s = 0

def Action.isStart : Action → Bool
  | start _ _ => true
  | _ => false

theorem quiet_step {a : Action} (h : Quiet s) (ha : a.isStart = false) (hstep : step c s a = some t) :
    Quiet t ∧ t.watchers.length = s.watchers.length := by
  cases a with
  | start spawned now => cases ha
  | stop =>
    cases hstep
    obtain ⟨-, hshutdown, -, hlength, -, hsleeping⟩ := stop_facts s
    exact ⟨⟨hshutdown, hsleeping.trans h.sleeping⟩, hlength⟩
  | exit i =>
    obtain ⟨-, hshutdown, -, hlength, -, hsleeping⟩ := exit_facts hstep
    exact ⟨⟨hshutdown.trans h.shutdown, hsleeping.trans h.sleeping⟩, hlength⟩
  | poll i =>
    obtain ⟨-, hshutdown, -, hlength, -, hsleeping | ⟨-, hrunning, -⟩⟩ := poll_facts hstep
    · exact ⟨⟨hshutdown.trans h.shutdown, hsleeping.trans h.sleeping⟩, hlength⟩
    · rw [h.shutdown] at hrunning
      cases hrunning
  | wake i spawned now =>
    obtain ⟨u, -, -, -, -, hsleeping, -⟩ := wake_facts hstep
    have hnone := h.sleeping
    omega

theorem quiet_run (actions : List Action) : ∀ {s t : ServiceHandle}, Quiet s → (∀ a ∈ actions, a.isStart = false) →
    run (step c) s actions = some t → t.watchers.length = s.watchers.length := by
  induction actions with
  | nil =>
    intro s t _ _ h
    cases h
    rfl
  | cons a rest ih =>
    intro s t hs hactions h
    obtain ⟨u, hu, h⟩ := Option.bind_eq_some_iff.1 h
    obtain ⟨ha, hrest⟩ := List.forall_mem_cons.1 hactions
    obtain ⟨hquiet, hlength⟩ := quiet_step hs ha hu
    exact (ih hquiet hrest h).trans hlength

/-- Nobody stops the service during a delay. -/
def StopsAwake (s : ServiceHandle) (a : Action) : Prop := a = .stop → sleeping s = 0

/-- Nobody starts the service during a delay. -/
def StartsAwake (s : ServiceHandle) (a : Action) : Prop := a.isStart = true → sleeping s = 0

/-- A stop that no start follows is final. -/
theorem stop_final {l m : List Action} (hall : All (step c) StopsAwake .new (l ++ .stop :: m))
    (hm : ∀ a ∈ m, a.isStart = false) (ht : run (step c) .new (l ++ [.stop]) = some t)
    (hs : run (step c) .new (l ++ .stop :: m) = some s) : s.watchers.length = t.watchers.length := by
  obtain ⟨u, hu, hut⟩ := exists_of_run_snoc ht
  have hawake : sleeping u = 0 := hall l .stop u ⟨m, by simp⟩ hu rfl
  cases hut
  obtain ⟨-, hshutdown, -, -, -, hsleeping⟩ := stop_facts u
  rw [run_append, hu] at hs
  exact quiet_run m ⟨hshutdown, hsleeping.trans hawake⟩ hm hs

/-! ## Restarts -/

/-- While a watcher is in its delay nothing runs and restarts are left. -/
structure Limited (c : ServiceConfig) (s : ServiceHandle) : Prop where
  one : One s
  count : s.restart_count + sleeping s ≤ c.max_restarts
  sleeping : sleeping s ≤ 1
  idle : Service.sleeping s = 1 → s.running = false

theorem one_pos (h : One s) (hwaiting : 0 < waiting s) : s.running = true := by
  by_contra hrunning
  rw [One, if_neg hrunning] at h
  omega

theorem limited_step {a : Action} (h : Limited c s) (ha : StartsAwake s a) (hstep : step c s a = some t) :
    Limited c t ∧ wakeSpawns s t a + s.restart_count ≤ t.restart_count := by
  have hone := one_step s a t h.one hstep
  have hcount := h.count
  have hsleeping := h.sleeping
  cases a with
  | start spawned now =>
    have hnone : Service.sleeping s = 0 := ha rfl
    cases hstep
    rcases start_cases s spawned now with ⟨-, heq⟩ | ⟨-, hcount', hsleeping', -⟩
    · rw [heq]
      exact ⟨h, by simp [wakeSpawns]⟩
    · exact ⟨⟨hone, by omega, by omega, fun _ => by omega⟩, by simp [wakeSpawns, hcount']⟩
  | stop =>
    cases hstep
    obtain ⟨hrunning, -, hcount', -, -, hsleeping'⟩ := stop_facts s
    exact ⟨⟨hone, by omega, by omega, fun hs => hrunning.trans (h.idle (hsleeping'.symm.trans hs))⟩,
      by simp [wakeSpawns, hcount']⟩
  | exit i =>
    obtain ⟨hrunning, -, hcount', -, -, hsleeping'⟩ := exit_facts hstep
    exact ⟨⟨hone, by omega, by omega, fun hs => hrunning.trans (h.idle (hsleeping'.symm.trans hs))⟩,
      by simp [wakeSpawns, hcount']⟩
  | poll i =>
    obtain ⟨hrunning, -, hcount', -, hwaiting, hsleeping'⟩ := poll_facts hstep
    -- the watcher was in its `select!`, so no other was in its delay
    have hawake : Service.sleeping s = 0 := by
      by_contra hne
      have hidle := h.idle (by omega)
      rw [one_pos h.one (by omega)] at hidle
      cases hidle
    refine ⟨⟨hone, ?_, ?_, fun _ => hrunning⟩, by simp [wakeSpawns, hcount']⟩
    · rcases hsleeping' with hs | ⟨hs, -, hlimit⟩ <;> omega
    · rcases hsleeping' with hs | ⟨hs, -, -⟩ <;> omega
  | wake i spawned now =>
    obtain ⟨u, -, hcount', hlength, -, hsleeping', rfl⟩ := wake_facts hstep
    change _ ∧ (u.start spawned now).watchers.length - s.watchers.length + s.restart_count ≤ _
    rcases start_cases u spawned now with ⟨-, heq⟩ | ⟨-, hcount'', hsleeping'', hends⟩
    · rw [heq] at hone ⊢
      exact ⟨⟨hone, by omega, by omega, fun _ => by omega⟩, by omega⟩
    · refine ⟨⟨hone, by omega, by omega, fun _ => by omega⟩, ?_⟩
      rcases hends with ⟨-, hlength', -⟩ | ⟨-, hlength', -⟩ <;> omega

/-- The children that watchers spawn are counted as restarts. -/
theorem limited_run (actions : List Action) : ∀ {s t : ServiceHandle}, Limited c s → All (step c) StartsAwake s actions →
    run (step c) s actions = some t → watcherSpawns c s actions + s.restart_count ≤ c.max_restarts := by
  induction actions with
  | nil =>
    intro s t hs _ _
    have hcount := hs.count
    rw [watcherSpawns]
    omega
  | cons a rest ih =>
    intro s t hs hall h
    obtain ⟨u, hu, h⟩ := Option.bind_eq_some_iff.1 h
    obtain ⟨ha, hrest⟩ := (all_cons hu).1 hall
    obtain ⟨hlimited, hspawns⟩ := limited_step hs ha hu
    have hlater := ih hlimited hrest h
    simp only [watcherSpawns, hu]
    omega

/-! ## Runs of the supervisor -/

theorem one_new : One .new := rfl

theorem limited_new : Limited c .new := ⟨one_new, Nat.zero_le _, Nat.zero_le _, fun _ => rfl⟩

/-- **The supervisor obeys.** In every run at most one child is alive, and only while the status says that the service is
running. If nobody stops it during a delay, a stop that no start follows is final; if nobody starts it during a delay,
watchers spawn at most `max_restarts` children. -/
theorem supervisor_obeys (c : ServiceConfig) (actions : List Action) (s : ServiceHandle)
    (h : run (step c) .new actions = some s) :
    children s ≤ 1 ∧ (∀ now, 0 < children s → (s.status now).running = true) ∧
    (All (step c) StopsAwake .new actions → ∀ l m t, actions = l ++ .stop :: m → (∀ a ∈ m, a.isStart = false) →
      run (step c) .new (l ++ [.stop]) = some t → s.watchers.length = t.watchers.length) ∧
    (All (step c) StartsAwake .new actions → watcherSpawns c .new actions ≤ c.max_restarts) := by
  have hone : One s := run_invariant one_step one_new h
  have hchildren := children_le_waiting s
  refine ⟨?_, fun _ halive => one_pos hone (by omega), ?_, fun hall => limited_run actions limited_new hall h⟩
  · unfold One at hone
    split at hone <;> omega
  · rintro hall l m t rfl hm ht
    exact stop_final hall hm ht h

/-- A service that is started, exits, restarts once and is stopped. -/
def quietRun : List Action := [.start (some 7) 0, .exit 0, .poll 0, .wake 0 (some 8) 3, .stop, .poll 1]

theorem supervisor_obeys_quiet : ∃ s, run (step ⟨5⟩) .new quietRun = some s ∧ children s ≤ 1 ∧ s.watchers.length = 2 ∧
    watcherSpawns ⟨5⟩ .new quietRun ≤ 5 := by
  obtain ⟨s, hs⟩ : ∃ s, run (step ⟨5⟩) .new quietRun = some s := ⟨_, rfl⟩
  obtain ⟨hchildren, -, hstop, hlimit⟩ := supervisor_obeys ⟨5⟩ quietRun s hs
  have hstops : All (step ⟨5⟩) StopsAwake .new quietRun :=
    (all_cons rfl).2 ⟨fun h => (nomatch h), (all_cons rfl).2 ⟨fun h => (nomatch h), (all_cons rfl).2 ⟨fun h => (nomatch h),
      (all_cons rfl).2 ⟨fun h => (nomatch h), (all_cons rfl).2 ⟨fun _ => rfl, (all_cons rfl).2 ⟨fun h => (nomatch h),
        All.nil _ _⟩⟩⟩⟩⟩⟩
  have hstarts : All (step ⟨5⟩) StartsAwake .new quietRun :=
    (all_cons rfl).2 ⟨fun _ => rfl, (all_cons rfl).2 ⟨fun h => (nomatch h), (all_cons rfl).2 ⟨fun h => (nomatch h),
      (all_cons rfl).2 ⟨fun h => (nomatch h), (all_cons rfl).2 ⟨fun h => (nomatch h), (all_cons rfl).2 ⟨fun h => (nomatch h),
        All.nil _ _⟩⟩⟩⟩⟩⟩
  exact ⟨s, hs, hchildren, hstop hstops [.start (some 7) 0, .exit 0, .poll 0, .wake 0 (some 8) 3] [.poll 1] _ rfl (by decide) rfl,
    hlimit hstarts⟩

/-- A service that is started again during the delay: both watchers restart it. -/
def overlappingRun : List Action :=
  [.start (some 7) 0, .exit 0, .poll 0, .start (some 8) 1, .exit 1, .poll 1, .wake 0 (some 9) 3, .exit 2, .poll 2,
    .wake 1 (some 10) 4]

/-- A child is spawned after a stop during the delay, and one more than the limit after a start during the delay. -/
theorem stop_and_limit_fail :
    (¬ ∀ c l m s t, (∀ a ∈ m, Action.isStart a = false) → run (step c) .new (l ++ [.stop]) = some t →
      run (step c) .new (l ++ .stop :: m) = some s → s.watchers.length = t.watchers.length) ∧
    ¬ ∀ c actions s, run (step c) .new actions = some s → watcherSpawns c .new actions ≤ c.max_restarts := by
  constructor
  · intro hfinal
    have hspawned := hfinal ⟨5⟩ [.start (some 7) 0, .exit 0, .poll 0] [.wake 0 (some 8) 3] _ _ (by decide) rfl rfl
    exact absurd hspawned (by decide)
  · intro hlimit
    exact absurd (hlimit ⟨1⟩ overlappingRun _ rfl) (by decide)

end EnigmaMemory.Service
