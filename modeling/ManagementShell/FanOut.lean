import ManagementShell.Host
import ManagementShell.Layout
import ManagementShell.Record

/-
This file runs one session for each of several hosts, with workers that share the hosts and retry
failed sessions.
-/

namespace ManagementShell
open Text

/-- The session of one host with the arguments that it is started with. -/
structure Task where
  host : Text
  arguments : List Text
  deriving DecidableEq, Repr

namespace Task

/-- The host without its credentials. -/
def address (task : Task) : Text :=
  match Host.parse? task.host with
  | some host => host.name
  | none => task.host

def shown (task : Task) : Text :=
  match Host.parse? task.host with
  | some host => host.shown
  | none => task.host

/-- One task for each host; the options come before the items. -/
def ofHosts (hosts options : List Text) (items : Text → List Text) : List Task :=
  hosts.map fun host => ⟨host, options ++ items host⟩

/-- Numbers are aligned on the right of two columns. -/
def numberedLine (number : Nat) (task : Task) : Text :=
  let digits := ofNat number
  List.replicate (2 - digits.length) ' ' ++ digits ++ " - " ++ task.shown ++ "\n"

def listing (tasks : List Task) : Text :=
  if tasks = [] then "📝 No hosts to process\n"
  else "\n🎯 Target Hosts (" ++ ofNat tasks.length ++ ")\n" ++ Layout.rule ++ "\n" ++
    (tasks.mapIdx fun index task => numberedLine (index + 1) task).flatten ++ Layout.rule ++ "\n"

end Task

namespace FanOut

/-- Attempts are counted from zero in words of 32 bits. -/
abbrev Attempt := UInt32

/-- The delay after an attempt as it is shown, in seconds: a signed word of 32 bits. -/
def shownDelay (attempt : Attempt) : Int := ((1 : Int32) <<< attempt.toInt32).toInt

/-- The delay after an attempt as it is kept, in milliseconds: a word of 64 bits. -/
def delay (attempt : Attempt) : Nat := (1000 * ((1 : UInt64) <<< attempt.toUInt64)).toNat

/-- The greatest number of attempts as it is shown. -/
def shownTotal (retries : Attempt) : Nat := (retries + 1).toNat

def label (task : Task) : Text := "Host '" ++ task.shown ++ "'"

def retryRecord (retries attempt : Attempt) (task : Task) (reason : Text) : Record :=
  ⟨.warning, label task ++ " failed (attempt " ++ ofNat (attempt + 1).toNat ++ "/" ++
    ofNat (shownTotal retries) ++ "): " ++ reason ++ ", retrying in " ++
    ofInt (shownDelay attempt) ++ "s..."⟩

def failureRecord (retries : Attempt) (task : Task) (reason : Text) : Record :=
  ⟨.error, label task ++ " failed after " ++ ofNat (shownTotal retries) ++ " attempts: " ++
    reason⟩

inductive Worker where
  | idle
  | busy (index : Nat) (task : Task) (attempt : Attempt)
  | ended
  deriving DecidableEq, Repr

inductive Event where
  | attempted (index : Nat) (task : Task)
  | reported (record : Record)
  | waited (milliseconds : Nat)
  deriving DecidableEq, Repr

/-- An attempt at a task either succeeds or gives the reason of its failure. -/
structure Executor (ρ : Type) where
  attempt : Nat → Task → ρ → Option Text × ρ

/-- The tasks that wait are taken from the front by the workers. -/
structure Pool (ρ : Type) where
  waiting : List (Nat × Task)
  workers : List Worker
  world : ρ
  events : List Event
  finished : Nat

namespace Pool

variable {ρ : Type}

/-- There is at least one worker, and there are no more workers than tasks. -/
def workerCount (requested : Nat) (tasks : List Task) : Nat := max 1 (min requested tasks.length)

def startRecord (workers : Nat) (tasks : List Task) : Record :=
  ⟨.information, "Starting execution with " ++ ofNat workers ++ " workers for " ++
    ofNat tasks.length ++ " hosts"⟩

def start (requested : Nat) (tasks : List Task) (world : ρ) : Pool ρ :=
  let workers := workerCount requested tasks
  { waiting := tasks.mapIdx fun index task => (index, task)
    workers := List.replicate workers .idle
    world := world
    events := [.reported (startRecord workers tasks)]
    finished := 0 }

def setWorker (pool : Pool ρ) (number : Nat) (worker : Worker) : Pool ρ :=
  { pool with workers := pool.workers.set number worker }

/-- A worker takes the first task that waits, or it ends. -/
def takeTask (pool : Pool ρ) (number : Nat) : Pool ρ :=
  match pool.waiting with
  | [] => pool.setWorker number .ended
  | (index, task) :: rest =>
      ({ pool with waiting := rest } : Pool ρ).setWorker number (.busy index task 0)

/-- A worker attempts its task once. After a failure it waits and tries again, or it gives up. -/
def attempt (executor : Executor ρ) (retries : Attempt) (pool : Pool ρ) (number index : Nat)
    (task : Task) (count : Attempt) : Pool ρ :=
  let (failure, world) := executor.attempt index task pool.world
  let tried : List Event := [.attempted index task]
  match failure with
  | none => ({ pool with
      world := world, events := pool.events ++ tried, finished := pool.finished + 1 }
        : Pool ρ).setWorker number .idle
  | some reason =>
      if count < retries then
        ({ pool with
          world := world
          events := pool.events ++ tried ++
            [.reported (retryRecord retries count task reason), .waited (delay count)] }
          : Pool ρ).setWorker number (.busy index task (count + 1))
      else
        ({ pool with
          world := world
          events := pool.events ++ tried ++ [.reported (failureRecord retries task reason)]
          finished := pool.finished + 1 } : Pool ρ).setWorker number .idle

/-- The step of one worker; one that has ended does nothing. -/
def step (executor : Executor ρ) (retries : Attempt) (pool : Pool ρ) (number : Nat) : Pool ρ :=
  match pool.workers[number]? with
  | some .idle => pool.takeTask number
  | some (.busy index task count) => pool.attempt executor retries number index task count
  | some .ended | none => pool

/-- The workers may take their steps in any order. -/
def runSchedule (executor : Executor ρ) (retries : Attempt) (pool : Pool ρ)
    (schedule : List Nat) : Pool ρ :=
  schedule.foldl (step executor retries) pool

def hasEnded (pool : Pool ρ) : Bool := pool.workers.all (· == .ended)

/-- In this order the first worker that has not ended takes each step. -/
def runInOrder (executor : Executor ρ) (retries : Attempt) : Nat → Pool ρ → Pool ρ
  | 0, pool => pool
  | steps + 1, pool => match pool.workers.findIdx? (· != .ended) with
    | some number => runInOrder executor retries steps (pool.step executor retries number)
    | none => pool

/-- A number of steps after which all workers have ended. -/
def stepBound (retries : Attempt) (pool : Pool ρ) : Nat :=
  pool.waiting.length * (retries.toNat + 2) + pool.workers.length

end Pool

/-- All tasks are run; without tasks nothing happens. -/
def run {ρ : Type} (executor : Executor ρ) (requested : Nat) (retries : Attempt)
    (tasks : List Task) (world : ρ) : Pool ρ :=
  let pool := Pool.start requested tasks world
  if tasks = [] then { pool with events := [] }
  else pool.runInOrder executor retries (pool.stepBound retries)

end FanOut

end ManagementShell
