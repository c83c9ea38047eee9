import ManagementShell.Proofs.FanOut.Step
import Mathlib.Algebra.GroupWithZero.Nat
import Mathlib.Algebra.Order.BigOperators.Group.List
import Mathlib.Algebra.Order.Group.Nat

/-
This file shows that the workers of a fan-out all end, and that they have then handled every task
exactly once, in whichever order they have taken their steps.
-/

namespace ManagementShell.FanOut

variable {ρ : Type} {total : Nat} {retries : Attempt} {pool : Pool ρ} {moves : List Move}
  {done : List Nat}

/-- When all workers have ended, no task waits and none is tried. -/
theorem Kept.all_done (kept : Kept total retries pool moves done) (ended : pool.hasEnded = true) :
    done.Perm (List.range total) := by
  have allEnded := List.all_eq_true.mp ended
  simp only [beq_iff_eq] at allEnded
  have noneWaits : pool.waiting = [] := by
    obtain ⟨worker, others, isWorkers⟩ := List.exists_cons_of_ne_nil kept.manned
    have member : worker ∈ pool.workers := by simp [isWorkers]
    exact kept.emptied (allEnded worker member ▸ member)
  have noneBusy : busy pool.workers = [] := by
    rw [busy, List.filterMap_eq_nil_iff]
    intro worker member
    rw [allEnded worker member]
    rfl
  simpa [noneWaits, noneBusy] using kept.conserved

/-- The position of the first success in a row of results, counted from one. -/
def IsFirstSuccess (results : Nat → Option Text) (position : Nat) : Prop :=
  0 < position ∧ results (position - 1) = none ∧
    ∀ count, count + 1 < position → (results count).isSome = true

/-- The attempts at each task, in their order, have had the results. -/
def Follows (results : Nat → Nat → Option Text) (moves : List Move) : Prop :=
  ∀ index count attempt, (attemptsAt moves index)[count]? = some attempt →
    attempt.2 = results index count

theorem Settled.length_eq {worker : Nat} {attempts : List (Nat × Option Text)}
    {results : Nat → Option Text} (settled : Settled worker retries attempts)
    (follows : ∀ count attempt, attempts[count]? = some attempt → attempt.2 = results count) :
    (∀ position, IsFirstSuccess results position →
        attempts.length = min position (retries.toNat + 1)) ∧
      ((∀ count, (results count).isSome = true) → attempts.length = retries.toNat + 1) := by
  obtain ⟨failed, last, rfl, tried, atMost, isLast⟩ := settled
  have ofLast : results failed.length = last :=
    (follows failed.length (worker, last) (by simp)).symm
  have ofFailed (count : Nat) (inside : count < failed.length) : (results count).isSome = true := by
    rw [← follows count failed[count] (by rw [List.getElem?_append_left inside]; simp [inside])]
    exact (tried _ (List.getElem_mem inside)).2
  rw [List.length_append, List.length_singleton]
  constructor
  · rintro position ⟨positive, success, before⟩
    have late : failed.length < position := by
      by_contra early
      have failure := ofFailed (position - 1) (by omega)
      rw [success] at failure
      cases failure
    rcases isLast with rfl | exhausted
    · have first : ¬failed.length + 1 < position := by
        intro later
        have failure := before failed.length later
        rw [ofLast] at failure
        cases failure
      omega
    · omega
  · intro never
    rcases isLast with rfl | exhausted
    · have failure := never failed.length
      rw [ofLast] at failure
      cases failure
    · omega

theorem Settled.worker {worker : Nat} {attempts : List (Nat × Option Text)}
    (settled : Settled worker retries attempts) : ∀ attempt ∈ attempts, attempt.1 = worker := by
  obtain ⟨failed, last, rfl, tried, -, -⟩ := settled
  intro attempt isAttempt
  rcases List.mem_append.mp isAttempt with before | isLast
  · exact (tried attempt before).1
  · rw [List.mem_singleton.mp isLast]

/-- Nothing comes after a success. -/
theorem Settled.success_last {worker other : Nat} {attempts before after : List (Nat × Option Text)}
    (settled : Settled worker retries attempts)
    (split : attempts = before ++ (other, none) :: after) : after = [] := by
  obtain ⟨failed, last, rfl, tried, -, -⟩ := settled
  by_contra nonempty
  have shorter := congrArg List.dropLast split
  rw [List.dropLast_concat, List.dropLast_append_of_ne_nil (by simp),
    List.dropLast_cons_of_ne_nil nonempty] at shorter
  have failure := (tried (other, none) (by simp [shorter])).2
  cases failure

/-- Each of the tasks has been handled once, by one worker and with as many attempts as its results
ask for, and the progress counts them all. -/
structure ExactlyOnce (results : Nat → Nat → Option Text) (retries : Attempt) (total : Nat)
    (moves : List Move) (pool : Pool ρ) : Prop where
  progress : pool.finished = total
  oneWorker : ∀ index < total, ∃ worker, takers moves index = [worker] ∧
    ∀ attempt ∈ attemptsAt moves index, attempt.1 = worker
  firstSuccess : ∀ index < total, ∀ position, IsFirstSuccess (results index) position →
    pool.attemptCount index = min position (retries.toNat + 1)
  neverSucceeds : ∀ index < total, (∀ count, (results index count).isSome = true) →
    pool.attemptCount index = retries.toNat + 1
  successLast : ∀ index < total, ∀ before after worker,
    moves = before ++ .attempts worker index none :: after → attemptsAt after index = []

theorem Kept.exactlyOnce {results : Nat → Nat → Option Text}
    (kept : Kept total retries pool moves done) (follows : Follows results moves)
    (ended : pool.hasEnded = true) : ExactlyOnce results retries total moves pool := by
  have all := kept.all_done ended
  have isSettled (index : Nat) (inside : index < total) :=
    kept.settled index (all.mem_iff.mpr (List.mem_range.mpr inside))
  constructor
  case progress => rw [kept.finished, all.length_eq, List.length_range]
  case oneWorker =>
    intro index inside
    obtain ⟨worker, isTaker, settled⟩ := isSettled index inside
    exact ⟨worker, isTaker, settled.worker⟩
  case firstSuccess =>
    intro index inside position isFirst
    obtain ⟨worker, -, settled⟩ := isSettled index inside
    rw [kept.recorded]
    exact (settled.length_eq (follows index)).1 position isFirst
  case neverSucceeds =>
    intro index inside never
    obtain ⟨worker, -, settled⟩ := isSettled index inside
    rw [kept.recorded]
    exact (settled.length_eq (follows index)).2 never
  case successLast =>
    rintro index inside before after other rfl
    obtain ⟨worker, -, settled⟩ := isSettled index inside
    have split : attemptsAt (before ++ .attempts other index none :: after) index =
        attemptsAt before index ++ (other, none) :: attemptsAt after index := by
      simp [attemptsAt, Move.attempt?]
    exact settled.success_last split

/-- The number of steps that a worker has left at most, without further tasks. -/
def Worker.stepsLeft (retries : Attempt) : Worker → Nat
  | .idle => 1
  | .busy _ _ count => retries.toNat - count.toNat + 2
  | .ended => 0

/-- The number of steps after which all workers have ended. -/
def Pool.stepsLeft (retries : Attempt) (pool : Pool ρ) : Nat :=
  pool.waiting.length * (retries.toNat + 2) + (pool.workers.map (Worker.stepsLeft retries)).sum

theorem sum_set {workers : List Worker} {number : Nat} {old : Worker}
    (isAt : workers[number]? = some old) (new : Worker) (steps : Worker → Nat) :
    ((workers.set number new).map steps).sum + steps old = (workers.map steps).sum + steps new := by
  obtain ⟨inside, rfl⟩ := List.getElem?_eq_some_iff.mp isAt
  have after := ((List.set_perm_cons_eraseIdx inside new).map steps).sum_nat
  have before := ((List.getElem_cons_eraseIdx_perm inside).map steps).sum_nat
  simp only [List.map_cons, List.sum_cons] at after before
  omega

theorem Pool.Change.stepsLeft_lt {number : Nat} {made : List Move} {after : Pool ρ}
    (change : pool.Change retries number made after) (moved : made ≠ []) :
    after.stepsLeft retries < pool.stepsLeft retries := by
  cases change with
  | rests => exact absurd rfl moved
  | ends idle emptied =>
      have sum := sum_set idle .ended (Worker.stepsLeft retries)
      simp only [Worker.stepsLeft, Pool.stepsLeft, Pool.setWorker] at *
      omega
  | @takes index task rest idle isFirst =>
      have sum := sum_set idle (.busy index task 0) (Worker.stepsLeft retries)
      simp only [Worker.stepsLeft, Pool.stepsLeft, Pool.setWorker, isFirst, List.length_cons,
        Nat.succ_mul, UInt32.toNat_zero] at *
      omega
  | @retries index task count reason world added isBusy less isAdded =>
      have sum := sum_set isBusy (.busy index task (count + 1)) (Worker.stepsLeft retries)
      have succ := toNat_succ less
      have below := UInt32.lt_iff_toNat_lt.mp less
      simp only [Worker.stepsLeft, Pool.stepsLeft, Pool.setWorker, succ] at *
      omega
  | finishes isBusy isLast isAdded =>
      have sum := sum_set isBusy .idle (Worker.stepsLeft retries)
      simp only [Worker.stepsLeft, Pool.stepsLeft, Pool.setWorker] at *
      omega

theorem moved_of_not_ended (executor : Executor ρ) {number : Nat} {worker : Worker}
    (isAt : pool.workers[number]? = some worker) (notEnded : worker ≠ .ended) :
    (pool.move? executor number).toList ≠ [] := by
  unfold Pool.move?
  rw [isAt]
  cases worker with
  | idle => cases pool.waiting <;> simp
  | busy index task count => simp
  | ended => exact absurd rfl notEnded

/-- With enough steps all workers end, also when only those move that have not ended. -/
theorem runInOrder_hasEnded (executor : Executor ρ) (retries : Attempt) (steps : Nat)
    (pool : Pool ρ) (enough : pool.stepsLeft retries ≤ steps) :
    (pool.runInOrder executor retries steps).hasEnded = true := by
  induction steps generalizing pool with
  | zero =>
      rw [Pool.runInOrder, Pool.hasEnded, List.all_eq_true]
      intro worker member
      have none : worker.stepsLeft retries ≤ (pool.workers.map (Worker.stepsLeft retries)).sum :=
        List.le_sum_of_mem (List.mem_map_of_mem member)
      unfold Pool.stepsLeft at enough
      cases worker with
      | idle | busy =>
          simp only [Worker.stepsLeft] at none
          omega
      | ended => rfl
  | succ steps inductionHypothesis =>
      rw [Pool.runInOrder]
      split
      · rename_i number found
        obtain ⟨inside, notEnded, -⟩ := List.findIdx?_eq_some_iff_getElem.mp found
        have isAt : pool.workers[number]? = some pool.workers[number] :=
          List.getElem?_eq_getElem inside
        have moved := moved_of_not_ended executor isAt (by simpa using notEnded)
        have fewer := (pool.step_change executor retries number).stepsLeft_lt moved
        exact inductionHypothesis _ (by omega)
      · rename_i noneFound
        rw [Pool.hasEnded, List.all_eq_true]
        simpa using List.findIdx?_eq_none_iff.mp noneFound

theorem runInOrder_runSchedule (executor : Executor ρ) (retries : Attempt) (steps : Nat)
    (pool : Pool ρ) :
    ∃ schedule, pool.runInOrder executor retries steps =
      pool.runSchedule executor retries schedule := by
  induction steps generalizing pool with
  | zero => exact ⟨[], rfl⟩
  | succ steps inductionHypothesis =>
      rw [Pool.runInOrder]
      split
      · rename_i number found
        obtain ⟨schedule, same⟩ := inductionHypothesis (pool.step executor retries number)
        exact ⟨number :: schedule, same⟩
      · exact ⟨[], rfl⟩

/-- The executor that has the results of a table; it counts the attempts at each task. -/
def Executor.ofResults (results : Nat → Nat → Option Text) : Executor (Nat → Nat) where
  attempt index _ counts := (results index (counts index),
    fun other => if other = index then counts other + 1 else counts other)

theorem Follows.ends {results : Nat → Nat → Option Text} (follows : Follows results moves)
    (worker : Nat) : Follows results (moves ++ [.ends worker]) := by
  intro index count attempt isAt
  rw [attemptsAt_ends] at isAt
  exact follows index count attempt isAt

theorem Follows.takes {results : Nat → Nat → Option Text} (follows : Follows results moves)
    (worker taken : Nat) : Follows results (moves ++ [.takes worker taken]) := by
  intro index count attempt isAt
  rw [attemptsAt_takes] at isAt
  exact follows index count attempt isAt

theorem Follows.attempts {results : Nat → Nat → Option Text} (follows : Follows results moves)
    (worker attempted : Nat) :
    Follows results (moves ++ [.attempts worker attempted
      (results attempted (attemptsAt moves attempted).length)]) := by
  intro index count attempt isAt
  rw [attemptsAt_attempts] at isAt
  split at isAt
  · rename_i same
    subst same
    rw [List.getElem?_append] at isAt
    split at isAt
    · exact follows attempted count attempt isAt
    · rename_i late
      rw [List.getElem?_singleton] at isAt
      split at isAt
      · rename_i first
        have isCount : count = (attemptsAt moves attempted).length := by omega
        cases isAt
        rw [isCount]
      · cases isAt
  · rw [List.append_nil] at isAt
    exact follows index count attempt isAt

theorem ofResults_step {results : Nat → Nat → Option Text} (retries : Attempt)
    {pool : Pool (Nat → Nat)} (follows : Follows results moves)
    (counted : ∀ index, pool.world index = (attemptsAt moves index).length) (number : Nat) :
    Follows results (moves ++ (pool.move? (.ofResults results) number).toList) ∧
      ∀ index, (pool.step (.ofResults results) retries number).world index =
        (attemptsAt (moves ++ (pool.move? (.ofResults results) number).toList) index).length := by
  unfold Pool.move? Pool.step
  rcases pool.workers[number]? with _ | _ | ⟨index, task, count⟩ | _
  · simpa using ⟨follows, counted⟩
  · dsimp only
    unfold Pool.takeTask
    cases pool.waiting with
    | nil =>
        refine ⟨follows.ends number, fun index => ?_⟩
        rw [Option.toList_some, attemptsAt_ends]
        exact counted index
    | cons first rest =>
        refine ⟨follows.takes number first.1, fun index => ?_⟩
        rw [Option.toList_some, attemptsAt_takes]
        exact counted index
  · dsimp only
    have made : (Executor.ofResults results).attempt index task pool.world =
        (results index (attemptsAt moves index).length,
          fun other => if other = index then pool.world other + 1 else pool.world other) := by
      rw [← counted index]
      rfl
    rw [made, Option.toList_some]
    refine ⟨follows.attempts number index, fun other => ?_⟩
    have world : (pool.attempt (.ofResults results) retries number index task count).world other =
        if other = index then pool.world other + 1 else pool.world other := by
      unfold Pool.attempt
      rw [made]
      dsimp only
      split
      · rfl
      · split <;> rfl
    rw [world, attemptsAt_attempts, counted other]
    by_cases same : index = other
    · simp [same]
    · simp [same, Ne.symm same]
  · simpa using ⟨follows, counted⟩

/-- Every table of results is followed, in every order of steps, by an executor that has them. -/
theorem ofResults_follows (results : Nat → Nat → Option Text) (requested : Nat)
    (retries : Attempt) (tasks : List Task) (schedule : List Nat) :
    Follows results ((Pool.start requested tasks fun _ => 0).moves (.ofResults results) retries
      schedule) := by
  have run (pool : Pool (Nat → Nat)) (moves : List Move) (follows : Follows results moves)
      (counted : ∀ index, pool.world index = (attemptsAt moves index).length) :
      Follows results (moves ++ pool.moves (.ofResults results) retries schedule) := by
    induction schedule generalizing pool moves with
    | nil => simpa [Pool.moves] using follows
    | cons number rest inductionHypothesis =>
        have step := ofResults_step retries follows counted number
        have later := inductionHypothesis _ _ step.1 step.2
        rwa [List.append_assoc] at later
  refine run (Pool.start requested tasks fun _ => 0) [] ?_ fun _ => rfl
  intro index count attempt isAt
  cases isAt

/-- However the workers have moved so far, they can go on until all have ended. And in whichever
order they move, when all have ended each task has been handled exactly once. -/
theorem runSchedule_exactlyOnce (executor : Executor ρ) (requested : Nat) (retries : Attempt)
    (tasks : List Task) (world : ρ) (schedule : List Nat) (results : Nat → Nat → Option Text)
    (follows : Follows results
      ((Pool.start requested tasks world).moves executor retries schedule)) :
    (∃ more, ((Pool.start requested tasks world).runSchedule executor retries
      (schedule ++ more)).hasEnded = true) ∧
    (((Pool.start requested tasks world).runSchedule executor retries schedule).hasEnded = true →
      ExactlyOnce results retries tasks.length
        ((Pool.start requested tasks world).moves executor retries schedule)
        ((Pool.start requested tasks world).runSchedule executor retries schedule)) := by
  constructor
  · have ended := runInOrder_hasEnded executor retries _
      ((Pool.start requested tasks world).runSchedule executor retries schedule) (Nat.le_refl _)
    obtain ⟨more, same⟩ := runInOrder_runSchedule executor retries _
      ((Pool.start requested tasks world).runSchedule executor retries schedule)
    rw [same] at ended
    refine ⟨more, ?_⟩
    rwa [Pool.runSchedule, List.foldl_append]
  · intro ended
    obtain ⟨done, kept⟩ := (start_kept requested retries tasks world).run executor schedule
    exact kept.exactlyOnce follows ended

/-- Two workers share three tasks with one retry: the first task fails at first, the last always. -/
def flaky : Nat → Nat → Option Text
  | 0, 0 => some "busy"
  | 2, _ => some "down"
  | _, _ => none

def flakyStart : Pool (Nat → Nat) :=
  Pool.start 2 [⟨"a", []⟩, ⟨"b", []⟩, ⟨"c", []⟩] fun _ => 0

/-- The second worker takes the first task and ends while the first worker still tries the last. -/
def flakySchedule : List Nat := [1, 0, 0, 1, 0, 1, 1, 0, 1, 0, 0]

theorem runSchedule_exactlyOnce_flaky :
    Follows flaky (flakyStart.moves (.ofResults flaky) 1 flakySchedule) ∧
      (flakyStart.runSchedule (.ofResults flaky) 1 flakySchedule).hasEnded = true ∧
      ExactlyOnce flaky 1 3 (flakyStart.moves (.ofResults flaky) 1 flakySchedule)
        (flakyStart.runSchedule (.ofResults flaky) 1 flakySchedule) := by
  have follows := ofResults_follows flaky 2 1 [⟨"a", []⟩, ⟨"b", []⟩, ⟨"c", []⟩] flakySchedule
  have ended : (flakyStart.runSchedule (.ofResults flaky) 1 flakySchedule).hasEnded = true := by
    decide
  exact ⟨follows, ended,
    (runSchedule_exactlyOnce (.ofResults flaky) 2 1 _ _ flakySchedule flaky follows).2 ended⟩

end ManagementShell.FanOut
