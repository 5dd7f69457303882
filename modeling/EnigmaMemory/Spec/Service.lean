import Mathlib.Data.Nat.Notation
import Mathlib.Tactic.TypeStar

/-!
# The sidecar service of the desktop application

`apps/desktop-tauri/src/commands/service.rs`: a `ServiceHandle` starts a child process and a watcher
that waits for the child to exit or for a message on the stop channel; after an exit the watcher
sleeps and starts the next child. What runs between two awaits is one step. The outcome of a spawn
and the clock come from outside; log lines are left out.
-/

namespace EnigmaMemory.Service

/-- What the supervisor reads from its configuration. -/
structure ServiceConfig where
  max_restarts : ℕ

/-- Where a watcher is: in its `select!`, with a child that is alive or not and a stop channel that is ready or not; in the
delay before a restart; or at its end. -/
inductive Watcher where
  | waiting (alive stopped : Bool)
  | sleeping
  | finished
  deriving DecidableEq, Repr

def Watcher.isWaiting : Watcher → Bool
  | waiting _ _ => true
  | _ => false

/-- The child of a watcher lives as long as it has not exited and has not been dropped. -/
def Watcher.alive : Watcher → Bool
  | waiting alive _ => alive
  | _ => false

def Watcher.isSleeping : Watcher → Bool
  | sleeping => true
  | _ => false

/-- The receiver of a channel is ready after a message, and after the sender has been dropped. -/
def Watcher.signal : Watcher → Watcher
  | waiting alive _ => waiting alive true
  | w => w

/-- `stop_tx` holds the sender of a channel, named by the watcher that listens. -/
structure ServiceHandle where
  running : Bool
  pid : ℕ
  started_at : ℕ
  restart_count : ℕ
  shutdown : Bool
  stop_tx : Option ℕ
  watchers : List Watcher
  deriving Repr

namespace ServiceHandle

def new : ServiceHandle := ⟨false, 0, 0, 0, false, none, []⟩

structure ServiceStatus where
  running : Bool
  pid : ℕ
  restarts : ℕ
  uptime_secs : ℕ

def status (s : ServiceHandle) (now : ℕ) : ServiceStatus :=
  ⟨s.running, s.pid, s.restart_count, if s.running ∧ 0 < s.started_at then (now - s.started_at) / 1000 else 0⟩

/-- The watchers after a sender has been used or dropped. -/
def signal (tx : Option ℕ) (watchers : List Watcher) : List Watcher :=
  match tx with
  | some i => watchers.modify i Watcher.signal
  | none => watchers

/-- `start`; `spawned` is the process identifier of the child, or none if it cannot be spawned. A sender that is replaced is
dropped. -/
def start (s : ServiceHandle) (spawned : Option ℕ) (now : ℕ) : ServiceHandle :=
  if s.running then s
  else
    match spawned with
    | none => { s with shutdown := false }
    | some pid =>
      { s with
        shutdown := false
        running := true
        pid := pid
        started_at := now
        stop_tx := some s.watchers.length
        watchers := signal s.stop_tx s.watchers ++ [.waiting true false] }

/-- `stop` up to its first await; what follows only reads `running`. -/
def stop (s : ServiceHandle) : ServiceHandle :=
  { s with shutdown := true, stop_tx := none, watchers := signal s.stop_tx s.watchers }

/-- The watcher after its `select!`; a child that still lives is dropped. -/
def ended (c : ServiceConfig) (s : ServiceHandle) (i : ℕ) : ServiceHandle :=
  { s with
    running := false
    pid := 0
    watchers := s.watchers.set i
      (if s.shutdown then .finished else if c.max_restarts ≤ s.restart_count then .finished else .sleeping) }

/-- The watcher after its delay. -/
def restart (s : ServiceHandle) (i : ℕ) (spawned : Option ℕ) (now : ℕ) : ServiceHandle :=
  start { s with restart_count := s.restart_count + 1, watchers := s.watchers.set i .finished } spawned now

end ServiceHandle

/-- What happens next: a call, the exit of a child, a watcher that leaves its `select!`, the end of a delay. -/
inductive Action where
  | start (spawned : Option ℕ) (now : ℕ)
  | stop
  | exit (i : ℕ)
  | poll (i : ℕ)
  | wake (i : ℕ) (spawned : Option ℕ) (now : ℕ)
  deriving DecidableEq, Repr

def step (c : ServiceConfig) (s : ServiceHandle) : Action → Option ServiceHandle
  | .start spawned now => some (s.start spawned now)
  | .stop => some s.stop
  | .exit i =>
    match s.watchers[i]? with
    | some (.waiting true stopped) => some { s with watchers := s.watchers.set i (.waiting false stopped) }
    | _ => none
  | .poll i =>
    match s.watchers[i]? with
    | some (.waiting alive stopped) => if stopped || !alive then some (s.ended c i) else none
    | _ => none
  | .wake i spawned now =>
    match s.watchers[i]? with
    | some .sleeping => some (s.restart i spawned now)
    | _ => none

/-- The children that a watcher spawns in a step. -/
def wakeSpawns (s t : ServiceHandle) : Action → ℕ
  | .wake _ _ _ => t.watchers.length - s.watchers.length
  | _ => 0

/-- The children that watchers spawn in a run. -/
def watcherSpawns (c : ServiceConfig) : ServiceHandle → List Action → ℕ
  | _, [] => 0
  | s, a :: rest =>
    match step c s a with
    | none => 0
    | some t => wakeSpawns s t a + watcherSpawns c t rest

end EnigmaMemory.Service
