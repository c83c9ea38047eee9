import ManagementShell.FanOut
import Mathlib.Data.List.Basic
import Mathlib.Data.List.Count
import Mathlib.Data.List.Nodup
import Mathlib.Data.List.Perm.Basic

/-
This file says what a worker of a fan-out does in one step, and what every step keeps: each task
waits, is tried by the one worker that has taken it, or is settled.
-/

namespace ManagementShell.FanOut

variable {ρ : Type}

/-- What a worker does in one step; an attempt that fails gives its reason. -/
inductive Move where
  | takes (worker index : Nat)
  | attempts (worker index : Nat) (failure : Option Text)
  | ends (worker : Nat)
  deriving DecidableEq, Repr

namespace Move

def taker? (index : Nat) : Move → Option Nat
  | .takes worker taken => if taken = index then some worker else none
  | _ => none

def attempt? (index : Nat) : Move → Option (Nat × Option Text)
  | .attempts worker attempted failure =>
      if attempted = index then some (worker, failure) else none
  | _ => none

end Move

/-- The workers that have taken the task. -/
def takers (moves : List Move) (index : Nat) : List Nat := moves.filterMap (Move.taker? index)

/-- The attempts at a task, each with its worker and the reason of its failure. -/
def attemptsAt (moves : List Move) (index : Nat) : List (Nat × Option Text) :=
  moves.filterMap (Move.attempt? index)

section

variable (moves : List Move) (worker index other : Nat) (failure : Option Text)

@[simp] theorem takers_ends : takers (moves ++ [.ends worker]) other = takers moves other := by
  simp [takers, Move.taker?]

@[simp] theorem attemptsAt_ends :
    attemptsAt (moves ++ [.ends worker]) other = attemptsAt moves other := by
  simp [attemptsAt, Move.attempt?]

@[simp] theorem takers_takes : takers (moves ++ [.takes worker index]) other =
    takers moves other ++ if index = other then [worker] else [] := by
  split <;> simp_all [takers, Move.taker?]

@[simp] theorem attemptsAt_takes :
    attemptsAt (moves ++ [.takes worker index]) other = attemptsAt moves other := by
  simp [attemptsAt, Move.attempt?]

@[simp] theorem takers_attempts :
    takers (moves ++ [.attempts worker index failure]) other = takers moves other := by
  simp [takers, Move.taker?]

@[simp] theorem attemptsAt_attempts :
    attemptsAt (moves ++ [.attempts worker index failure]) other =
      attemptsAt moves other ++ if index = other then [(worker, failure)] else [] := by
  split <;> simp_all [attemptsAt, Move.attempt?]

end

namespace Pool

def move? (executor : Executor ρ) (pool : Pool ρ) (number : Nat) : Option Move :=
  match pool.workers[number]? with
  | some .idle => match pool.waiting with
    | [] => some (.ends number)
    | (index, _) :: _ => some (.takes number index)
  | some (.busy index task _) =>
      some (.attempts number index (executor.attempt index task pool.world).1)
  | some .ended | none => none

/-- What the workers do when they take their steps in the given order. -/
def moves (executor : Executor ρ) (retries : Attempt) (pool : Pool ρ) : List Nat → List Move
  | [] => []
  | number :: rest => (pool.move? executor number).toList ++
      moves executor retries (pool.step executor retries number) rest

end Pool

def Event.attempted? : Event → Option Nat
  | .attempted index _ => some index
  | .reported _ | .waited _ => none

/-- The number of attempts at a task that the pool has recorded. -/
def Pool.attemptCount (pool : Pool ρ) (index : Nat) : Nat :=
  (pool.events.filterMap Event.attempted?).count index

/-- One step of a worker: what it does, and the pool that it leaves. -/
inductive Pool.Change (retries : Attempt) (pool : Pool ρ) (number : Nat) :
    List Move → Pool ρ → Prop
  | rests : Change retries pool number [] pool
  | ends (idle : pool.workers[number]? = some .idle) (emptied : pool.waiting = []) :
      Change retries pool number [.ends number] (pool.setWorker number .ended)
  | takes {index : Nat} {task : Task} {rest : List (Nat × Task)}
      (idle : pool.workers[number]? = some .idle) (isFirst : pool.waiting = (index, task) :: rest) :
      Change retries pool number [.takes number index]
        (({ pool with waiting := rest } : Pool ρ).setWorker number (.busy index task 0))
  | retries {index : Nat} {task : Task} {count : Attempt} {reason : Text} {world : ρ}
      {added : List Event} (isBusy : pool.workers[number]? = some (.busy index task count))
      (less : count < retries) (isAdded : added.filterMap Event.attempted? = [index]) :
      Change retries pool number [.attempts number index (some reason)]
        (({ pool with world := world, events := pool.events ++ added } : Pool ρ).setWorker number
          (.busy index task (count + 1)))
  | finishes {index : Nat} {task : Task} {count : Attempt} {failure : Option Text} {world : ρ}
      {added : List Event} (isBusy : pool.workers[number]? = some (.busy index task count))
      (isLast : failure = none ∨ ¬count < retries)
      (isAdded : added.filterMap Event.attempted? = [index]) :
      Change retries pool number [.attempts number index failure]
        (({ pool with
          world := world, events := pool.events ++ added, finished := pool.finished + 1 }
            : Pool ρ).setWorker number .idle)

theorem Pool.step_change (executor : Executor ρ) (retries : Attempt) (pool : Pool ρ) (number : Nat) :
    Change retries pool number (pool.move? executor number).toList
      (pool.step executor retries number) := by
  unfold move? step
  rcases isAt : pool.workers[number]? with _ | _ | ⟨index, task, count⟩ | _
  · exact .rests
  · dsimp only
    unfold takeTask
    cases isWaiting : pool.waiting with
    | nil => exact .ends isAt isWaiting
    | cons first rest => exact .takes isAt isWaiting
  · dsimp only
    unfold attempt
    rcases executor.attempt index task pool.world with ⟨_ | reason, world⟩
    · exact .finishes isAt (.inl rfl) rfl
    · dsimp only
      split
      · rename_i less
        rw [List.append_assoc]
        exact .retries isAt less rfl
      · rename_i notLess
        rw [List.append_assoc]
        exact .finishes isAt (.inr notLess) rfl
  · exact .rests

def Worker.index? : Worker → Option Nat
  | .busy index _ _ => some index
  | .idle | .ended => none

/-- The indices of the tasks that workers are busy with. -/
def busy (workers : List Worker) : List Nat := workers.filterMap Worker.index?

theorem busy_at {workers : List Worker} {number : Nat} {worker : Worker}
    (isAt : workers[number]? = some worker) :
    (busy workers).Perm (worker.index?.toList ++ busy (workers.eraseIdx number)) := by
  obtain ⟨inside, rfl⟩ := List.getElem?_eq_some_iff.mp isAt
  have moved := (List.getElem_cons_eraseIdx_perm inside).symm.filterMap Worker.index?
  rw [List.filterMap_cons] at moved
  unfold busy
  cases index : workers[number].index? <;> simpa [index] using moved

theorem busy_set {workers : List Worker} {number : Nat} {old : Worker}
    (isAt : workers[number]? = some old) (new : Worker) :
    (busy (workers.set number new)).Perm
      (new.index?.toList ++ busy (workers.eraseIdx number)) := by
  obtain ⟨inside, rfl⟩ := List.getElem?_eq_some_iff.mp isAt
  have moved := (List.set_perm_cons_eraseIdx inside new).filterMap Worker.index?
  rw [List.filterMap_cons] at moved
  unfold busy
  cases index : new.index? <;> simpa [index] using moved

theorem busy_beside {workers : List Worker} {number other index : Nat} {task : Task}
    {count : Attempt} (isAt : workers[other]? = some (.busy index task count))
    (beside : other ≠ number) : index ∈ busy (workers.eraseIdx number) :=
  List.mem_filterMap.mpr ⟨_, List.mem_eraseIdx_iff_getElem?.mpr ⟨other, beside, isAt⟩, rfl⟩

/-- All attempts were made by the worker and have failed. -/
def Tried (worker : Nat) (attempts : List (Nat × Option Text)) : Prop :=
  ∀ attempt ∈ attempts, attempt.1 = worker ∧ attempt.2.isSome = true

theorem Tried.append_failure {worker : Nat} {attempts : List (Nat × Option Text)}
    (tried : Tried worker attempts) (reason : Text) :
    Tried worker (attempts ++ [(worker, some reason)]) := by
  intro attempt isAttempt
  rcases List.mem_append.mp isAttempt with before | last
  · exact tried attempt before
  · cases List.mem_singleton.mp last
    exact ⟨rfl, rfl⟩

/-- The last attempt was the first to succeed, or no other one was allowed. -/
def Settled (worker : Nat) (retries : Attempt) (attempts : List (Nat × Option Text)) : Prop :=
  ∃ failed last, attempts = failed ++ [(worker, last)] ∧ Tried worker failed ∧
    failed.length ≤ retries.toNat ∧ (last = none ∨ failed.length = retries.toNat)

/-- Every task waits, is tried by the one worker that has taken it, or is settled. -/
structure Kept (total : Nat) (retries : Attempt) (pool : Pool ρ) (moves : List Move)
    (done : List Nat) : Prop where
  conserved : (pool.waiting.map Prod.fst ++ busy pool.workers ++ done).Perm (List.range total)
  finished : pool.finished = done.length
  untouched : ∀ index ∈ pool.waiting.map Prod.fst,
    takers moves index = [] ∧ attemptsAt moves index = []
  trying : ∀ number index task count, pool.workers[number]? = some (.busy index task count) →
    takers moves index = [number] ∧ Tried number (attemptsAt moves index) ∧
      (attemptsAt moves index).length = count.toNat ∧ count ≤ retries
  settled : ∀ index ∈ done, ∃ number, takers moves index = [number] ∧
    Settled number retries (attemptsAt moves index)
  manned : pool.workers ≠ []
  emptied : .ended ∈ pool.workers → pool.waiting = []
  recorded : ∀ index, pool.attemptCount index = (attemptsAt moves index).length

theorem indices_mapIdx (tasks : List Task) :
    (tasks.mapIdx fun index task => (index, task)).map Prod.fst = List.range tasks.length := by
  apply List.ext_getElem
  · simp
  · simp

theorem start_kept (requested : Nat) (retries : Attempt) (tasks : List Task) (world : ρ) :
    Kept tasks.length retries (Pool.start requested tasks world) [] [] := by
  have idle {number : Nat} {worker : Worker}
      (isAt : (Pool.start requested tasks world).workers[number]? = some worker) :
      worker = .idle := List.eq_of_mem_replicate (List.mem_of_getElem? isAt)
  have noneBusy : busy (Pool.start requested tasks world).workers = [] := by
    simp [busy, Pool.start, Worker.index?]
  constructor
  · rw [noneBusy, List.append_nil, List.append_nil]
    exact List.Perm.of_eq (indices_mapIdx tasks)
  · rfl
  · exact fun _ _ => ⟨rfl, rfl⟩
  · intro number index task count isAt
    cases idle isAt
  · simp
  · intro nobody
    have workers : (Pool.start requested tasks world).workers.length =
        Pool.workerCount requested tasks := List.length_replicate
    rw [nobody, Pool.workerCount] at workers
    simp only [List.length_nil] at workers
    omega
  · intro isEnded
    cases List.eq_of_mem_replicate isEnded
  · exact fun _ => rfl

variable {total : Nat} {retries : Attempt} {pool : Pool ρ} {moves : List Move} {done : List Nat}

/-- No task is at two places. -/
theorem Kept.count_le (kept : Kept total retries pool moves done) (index : Nat) :
    (pool.waiting.map Prod.fst).count index + (busy pool.workers).count index +
      done.count index ≤ 1 := by
  have distinct := kept.conserved.nodup_iff.mpr List.nodup_range
  have once := List.nodup_iff_count_le_one.mp distinct index
  rwa [List.count_append, List.count_append] at once

/-- A task that is tried does not wait. -/
theorem Kept.ne_waiting (kept : Kept total retries pool moves done) {index other : Nat}
    (isBusy : index ∈ busy pool.workers) (waits : other ∈ pool.waiting.map Prod.fst) :
    index ≠ other := by
  rintro rfl
  have once := kept.count_le index
  have first := List.count_pos_iff.mpr isBusy
  have second := List.count_pos_iff.mpr waits
  omega

/-- A task that waits or is tried is not settled. -/
theorem Kept.ne_done (kept : Kept total retries pool moves done) {index other : Nat}
    (open' : index ∈ busy pool.workers ∨ index ∈ pool.waiting.map Prod.fst)
    (isDone : other ∈ done) : index ≠ other := by
  rintro rfl
  have once := kept.count_le index
  have last := List.count_pos_iff.mpr isDone
  rcases open' with isOpen | isOpen
  all_goals
    have first := List.count_pos_iff.mpr isOpen
    omega

/-- Two workers are busy with different tasks. -/
theorem Kept.ne_beside (kept : Kept total retries pool moves done) {number other index index' : Nat}
    {task task' : Task} {count count' : Attempt}
    (isBusy : pool.workers[number]? = some (.busy index task count)) (beside : other ≠ number)
    (isBusyToo : pool.workers[other]? = some (.busy index' task' count')) : index ≠ index' := by
  rintro rfl
  have once := kept.count_le index
  have parts := (busy_at isBusy).count_eq index
  have others := List.count_pos_iff.mpr (busy_beside isBusyToo beside)
  rw [List.count_append] at parts
  simp only [Worker.index?, Option.toList_some, List.count_singleton_self] at parts
  omega

theorem mem_busy {workers : List Worker} {number index : Nat} {task : Task} {count : Attempt}
    (isBusy : workers[number]? = some (.busy index task count)) : index ∈ busy workers :=
  List.mem_filterMap.mpr ⟨_, List.mem_of_getElem? isBusy, rfl⟩

theorem set_cases {workers : List Worker} {number other : Nat} {new worker : Worker}
    (isAt : (workers.set number new)[other]? = some worker) :
    (other = number ∧ worker = new) ∨ (other ≠ number ∧ workers[other]? = some worker) := by
  rw [List.getElem?_set] at isAt
  split at isAt
  · rename_i same
    split at isAt
    · exact .inl ⟨same.symm, (Option.some.inj isAt).symm⟩
    · cases isAt
  · rename_i differs
    exact .inr ⟨Ne.symm differs, isAt⟩

theorem ended_of_set {workers : List Worker} {number : Nat} {new : Worker}
    (isEnded : .ended ∈ workers.set number new) (other : new ≠ .ended) : .ended ∈ workers := by
  rcases List.mem_or_eq_of_mem_set isEnded with before | same
  · exact before
  · exact absurd same.symm other

theorem Kept.recorded_append (kept : Kept total retries pool moves done) {added : List Event}
    {index : Nat} (isAdded : added.filterMap Event.attempted? = [index]) (worker : Nat)
    (failure : Option Text) (other : Nat) :
    ((pool.events ++ added).filterMap Event.attempted?).count other =
      (attemptsAt (moves ++ [.attempts worker index failure]) other).length := by
  have before : (pool.events.filterMap Event.attempted?).count other =
      (attemptsAt moves other).length := kept.recorded other
  rw [List.filterMap_append, isAdded, List.count_append, before, attemptsAt_attempts]
  split <;> simp_all

theorem Kept.ending (kept : Kept total retries pool moves done) {number : Nat}
    (idle : pool.workers[number]? = some .idle) (emptied : pool.waiting = []) :
    Kept total retries (pool.setWorker number .ended) (moves ++ [.ends number]) done where
  conserved := by
    have same := (busy_set idle .ended).trans (busy_at idle).symm
    exact ((same.append_left _).append_right _).trans kept.conserved
  finished := kept.finished
  untouched index waits := by
    simpa using kept.untouched index waits
  trying other index task count isBusy := by
    rcases set_cases isBusy with ⟨-, same⟩ | ⟨-, before⟩
    · cases same
    · simpa using kept.trying other index task count before
  settled index isDone := by simpa using kept.settled index isDone
  manned := by simpa [Pool.setWorker] using kept.manned
  emptied _ := emptied
  recorded index := by
    rw [attemptsAt_ends]
    exact kept.recorded index

theorem Kept.taking (kept : Kept total retries pool moves done) {number index : Nat} {task : Task}
    {rest : List (Nat × Task)} (idle : pool.workers[number]? = some .idle)
    (isFirst : pool.waiting = (index, task) :: rest) :
    Kept total retries (({ pool with waiting := rest } : Pool ρ).setWorker number
      (.busy index task 0)) (moves ++ [.takes number index]) done := by
  have waits : index ∈ pool.waiting.map Prod.fst := by simp [isFirst]
  have fresh := kept.untouched index waits
  constructor
  case conserved =>
    rw [List.perm_iff_count]
    intro other
    have whole := kept.conserved.count_eq other
    have before := (busy_at idle).count_eq other
    have later := (busy_set idle (.busy index task 0)).count_eq other
    simp only [isFirst, List.map_cons, List.count_append, List.count_cons, Worker.index?,
      Option.toList_some, Option.toList_none, List.count_nil, Pool.setWorker] at *
    omega
  case finished => exact kept.finished
  case untouched =>
    intro other waitsOn
    have differs : index ≠ other := by
      rintro rfl
      have once := kept.count_le index
      have again := List.count_pos_iff.mpr waitsOn
      simp only [isFirst, List.map_cons, List.count_cons_self, Pool.setWorker] at once again
      omega
    have before := kept.untouched other (by
      rw [isFirst]
      exact List.mem_cons_of_mem _ waitsOn)
    simpa [differs] using before
  case trying =>
    intro other index' task' count isBusy
    rcases set_cases isBusy with ⟨rfl, same⟩ | ⟨-, before⟩
    · cases same
      simp [fresh, Tried]
    · have differs := (kept.ne_waiting (mem_busy before) waits).symm
      simpa [differs] using kept.trying other index' task' count before
  case settled =>
    intro other isDone
    have differs := kept.ne_done (.inr waits) isDone
    simpa [differs] using kept.settled other isDone
  case manned => simpa [Pool.setWorker] using kept.manned
  case emptied =>
    intro isEnded
    have emptied := kept.emptied (ended_of_set isEnded (by simp))
    rw [isFirst] at emptied
    cases emptied
  case recorded =>
    intro other
    rw [attemptsAt_takes]
    exact kept.recorded other

theorem toNat_succ {count retries : Attempt} (less : count < retries) :
    (count + 1).toNat = count.toNat + 1 := by
  have bound := retries.toNat_lt
  rw [UInt32.lt_iff_toNat_lt] at less
  rw [UInt32.toNat_add, UInt32.toNat_one]
  omega

theorem Kept.retrying (kept : Kept total retries pool moves done) {number index : Nat} {task : Task}
    {count : Attempt} {reason : Text} {world : ρ} {added : List Event}
    (isBusy : pool.workers[number]? = some (.busy index task count)) (less : count < retries)
    (isAdded : added.filterMap Event.attempted? = [index]) :
    Kept total retries (({ pool with world := world, events := pool.events ++ added }
      : Pool ρ).setWorker number (.busy index task (count + 1)))
      (moves ++ [.attempts number index (some reason)]) done := by
  have trying := kept.trying number index task count isBusy
  constructor
  case conserved =>
    have same := (busy_set isBusy (.busy index task (count + 1))).trans (busy_at isBusy).symm
    exact ((same.append_left _).append_right _).trans kept.conserved
  case finished => exact kept.finished
  case untouched =>
    intro other waits
    have differs := kept.ne_waiting (mem_busy isBusy) waits
    simpa [differs] using kept.untouched other waits
  case trying =>
    intro other index' task' count' isBusyOn
    rcases set_cases isBusyOn with ⟨rfl, same⟩ | ⟨beside, before⟩
    · cases same
      obtain ⟨isTaker, tried, length, -⟩ := trying
      have succ := toNat_succ less
      refine ⟨by simpa using isTaker, ?_, by simp [length, succ], ?_⟩
      · rw [attemptsAt_attempts, if_pos rfl]
        exact tried.append_failure reason
      · rw [UInt32.le_iff_toNat_le, succ]
        exact UInt32.lt_iff_toNat_lt.mp less
    · have differs := kept.ne_beside isBusy beside before
      simpa [differs] using kept.trying other index' task' count' before
  case settled =>
    intro other isDone
    have differs := kept.ne_done (.inl (mem_busy isBusy)) isDone
    simpa [differs] using kept.settled other isDone
  case manned => simpa [Pool.setWorker] using kept.manned
  case emptied => exact fun isEnded => kept.emptied (ended_of_set isEnded (by simp))
  case recorded => exact kept.recorded_append isAdded number (some reason)

theorem Kept.finishing (kept : Kept total retries pool moves done) {number index : Nat}
    {task : Task} {count : Attempt} {failure : Option Text} {world : ρ} {added : List Event}
    (isBusy : pool.workers[number]? = some (.busy index task count))
    (isLast : failure = none ∨ ¬count < retries)
    (isAdded : added.filterMap Event.attempted? = [index]) :
    Kept total retries (({ pool with
        world := world, events := pool.events ++ added, finished := pool.finished + 1 }
      : Pool ρ).setWorker number .idle) (moves ++ [.attempts number index failure])
      (index :: done) := by
  obtain ⟨isTaker, tried, length, atMost⟩ := kept.trying number index task count isBusy
  constructor
  case conserved =>
    rw [List.perm_iff_count]
    intro other
    have whole := kept.conserved.count_eq other
    have before := (busy_at isBusy).count_eq other
    have later := (busy_set isBusy .idle).count_eq other
    simp only [List.count_append, List.count_cons, Worker.index?, Option.toList_some,
      Option.toList_none, List.count_nil, Pool.setWorker] at *
    omega
  case finished => simp [Pool.setWorker, kept.finished]
  case untouched =>
    intro other waits
    have differs := kept.ne_waiting (mem_busy isBusy) waits
    simpa [differs] using kept.untouched other waits
  case trying =>
    intro other index' task' count' isBusyOn
    rcases set_cases isBusyOn with ⟨-, same⟩ | ⟨beside, before⟩
    · cases same
    · have differs := kept.ne_beside isBusy beside before
      simpa [differs] using kept.trying other index' task' count' before
  case settled =>
    intro other isDone
    rcases List.mem_cons.mp isDone with rfl | before
    · refine ⟨number, by simpa using isTaker, attemptsAt moves other, failure, by simp, tried, ?_, ?_⟩
      · rw [length]
        exact UInt32.le_iff_toNat_le.mp atMost
      · rw [length]
        refine isLast.imp_right fun notLess => ?_
        rw [UInt32.lt_iff_toNat_lt] at notLess
        rw [UInt32.le_iff_toNat_le] at atMost
        omega
    · have differs := kept.ne_done (.inl (mem_busy isBusy)) before
      simpa [differs] using kept.settled other before
  case manned => simpa [Pool.setWorker] using kept.manned
  case emptied => exact fun isEnded => kept.emptied (ended_of_set isEnded (by simp))
  case recorded => exact kept.recorded_append isAdded number failure

/-- What is kept by every step of a worker. -/
theorem Kept.step (kept : Kept total retries pool moves done) {number : Nat} {made : List Move}
    {after : Pool ρ} (change : pool.Change retries number made after) :
    ∃ settled, Kept total retries after (moves ++ made) settled := by
  cases change with
  | rests => exact ⟨done, by simpa using kept⟩
  | ends idle emptied => exact ⟨done, kept.ending idle emptied⟩
  | takes idle isFirst => exact ⟨done, kept.taking idle isFirst⟩
  | retries isBusy less isAdded => exact ⟨done, kept.retrying isBusy less isAdded⟩
  | finishes isBusy isLast isAdded => exact ⟨_, kept.finishing isBusy isLast isAdded⟩

/-- What is kept by every run, in whichever order the workers take their steps. -/
theorem Kept.run (executor : Executor ρ) (kept : Kept total retries pool moves done)
    (schedule : List Nat) :
    ∃ settled, Kept total retries (pool.runSchedule executor retries schedule)
      (moves ++ pool.moves executor retries schedule) settled := by
  induction schedule generalizing pool moves done with
  | nil => exact ⟨done, by simpa [Pool.moves, Pool.runSchedule] using kept⟩
  | cons number rest inductionHypothesis =>
      obtain ⟨settled, after⟩ := kept.step (pool.step_change executor retries number)
      have later := inductionHypothesis after
      rwa [List.append_assoc] at later

end ManagementShell.FanOut
