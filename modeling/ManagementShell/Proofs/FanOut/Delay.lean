import ManagementShell.Proofs.FanOut.Step
import Mathlib.Algebra.Group.Int.Defs
import Mathlib.Algebra.GroupWithZero.Nat

/-
This file shows what the warning of a failed attempt says and how long the worker then waits: the
number of the attempt is always right, and the total and the delays are as far as their words go.
-/

namespace ManagementShell.FanOut
open Text

variable {ρ : Type} {total : Nat} {retries : Attempt} {pool : Pool ρ} {moves : List Move}
  {done : List Nat}

/-- The warning after a failed attempt that another one follows. -/
def warning (attempt total : Nat) (seconds : Int) (task : Task) (reason : Text) : Record :=
  ⟨.warning, label task ++ " failed (attempt " ++ ofNat attempt ++ "/" ++ ofNat total ++ "): " ++
    reason ++ ", retrying in " ++ ofInt seconds ++ "s..."⟩

/-- A shift takes its distance from the last five bits, also when these are read as a signed word. -/
theorem toNat_smod_width (count : BitVec 32) : (count.smod 32#32).toNat = count.toNat % 32 := by
  have unsigned : count.toInt % 32 = ((count.toNat % 32 : Nat) : Int) := by
    rw [BitVec.toInt_eq_toNat_cond]
    split
    · rfl
    · omega
  have signed : (count.smod 32#32).toInt = ((count.toNat % 32 : Nat) : Int) := by
    rw [BitVec.toInt_smod, Int.fmod_eq_emod_of_nonneg _ (by decide), ← unsigned]
    rfl
  have small : count.toNat % 32 < 32 := Nat.mod_lt _ (by decide)
  generalize count.toNat % 32 = distance at signed small
  have bound := (count.smod 32#32).isLt
  rw [BitVec.toInt_eq_toNat_cond] at signed
  split at signed
  · omega
  · omega

theorem shownDelay_eq (count : Attempt) :
    shownDelay count = ((2 ^ (count.toNat % 32) : Nat) : Int).bmod (2 ^ 32) := by
  have distance : (count.toInt32.toBitVec.smod 32).toNat = count.toNat % 32 :=
    toNat_smod_width count.toBitVec
  have one : (Int32.toBitVec 1).toNat = 1 := by decide
  rw [shownDelay, ← Int32.toInt_toBitVec, Int32.toBitVec_shiftLeft, BitVec.toInt_eq_toNat_bmod,
    BitVec.shiftLeft_eq', distance, BitVec.toNat_shiftLeft, Nat.shiftLeft_eq, one, Nat.one_mul,
    Int.natCast_emod, Int.emod_bmod]

theorem delay_eq (count : Attempt) : delay count = 1000 * 2 ^ (count.toNat % 64) % 2 ^ 64 := by
  simp [delay, UInt64.toNat_shiftLeft, UInt64.toNat_mul, Nat.shiftLeft_eq]

theorem shownTotal_eq (retries : Attempt) : shownTotal retries = (retries.toNat + 1) % 2 ^ 32 := by
  rw [shownTotal, UInt32.toNat_add, UInt32.toNat_one]

/-- The seconds are shown in a signed word of 32 bits. -/
theorem shown_exact_iff (failed : Nat) :
    ((2 ^ (failed % 32) : Nat) : Int).bmod (2 ^ 32) = (2 ^ failed : Nat) ↔ failed < 31 := by
  constructor
  · intro same
    by_contra late
    have least : 2 ^ 31 ≤ 2 ^ failed := Nat.pow_le_pow_right (by decide) (by omega)
    have greatest : ((2 ^ (failed % 32) : Nat) : Int).bmod (2 ^ 32) < ((2 ^ 32 : Nat) + 1) / 2 :=
      Int.bmod_lt (by decide)
    omega
  · intro early
    have small : 2 ^ failed ≤ 2 ^ 30 := Nat.pow_le_pow_right (by decide) (by omega)
    have positive : 0 < 2 ^ failed := Nat.two_pow_pos failed
    rw [Nat.mod_eq_of_lt (show failed < 32 by omega)]
    exact Int.bmod_eq_of_le (by omega) (by omega)

/-- The milliseconds are kept in a word of 64 bits. -/
theorem delay_exact_iff (failed : Nat) :
    1000 * 2 ^ (failed % 64) % 2 ^ 64 = 1000 * 2 ^ failed ↔ failed < 55 := by
  constructor
  · intro same
    by_contra late
    have least : 2 ^ 55 ≤ 2 ^ failed := Nat.pow_le_pow_right (by decide) (by omega)
    have greatest : 1000 * 2 ^ (failed % 64) % 2 ^ 64 < 2 ^ 64 := Nat.mod_lt _ (by decide)
    rw [same] at greatest
    clear same
    omega
  · intro early
    have greatest : 2 ^ failed ≤ 2 ^ 54 := Nat.pow_le_pow_right (by decide) (by omega)
    rw [Nat.mod_eq_of_lt (show failed < 64 by omega)]
    exact Nat.mod_eq_of_lt (by omega)

theorem retryRecord_eq {retries count : Attempt} (less : count < retries) (task : Task)
    (reason : Text) : retryRecord retries count task reason =
      warning (count.toNat + 1) ((retries.toNat + 1) % 2 ^ 32)
        (((2 ^ (count.toNat % 32) : Nat) : Int).bmod (2 ^ 32)) task reason := by
  rw [retryRecord, toNat_succ less, shownTotal_eq, shownDelay_eq]
  rfl

/-- The events of one step: none, or the attempt of a busy worker with what is reported of it. -/
inductive Pool.Tries (retries : Attempt) (pool : Pool ρ) : List Event → Prop
  | nothing : Tries retries pool []
  | tries {number index : Nat} {task : Task} {count : Attempt} {reported : List Event}
      (isBusy : pool.workers[number]? = some (.busy index task count))
      (isReported : reported = [] ∨ ∃ reason,
        (reported = [.reported (failureRecord retries task reason)]) ∨
        (count < retries ∧
          reported = [.reported (retryRecord retries count task reason), .waited (delay count)])) :
      Tries retries pool (.attempted index task :: reported)

theorem Pool.step_tries (executor : Executor ρ) (retries : Attempt) (pool : Pool ρ)
    (number : Nat) : ∃ added, (pool.step executor retries number).events = pool.events ++ added ∧
      pool.Tries retries added := by
  unfold step
  rcases isAt : pool.workers[number]? with _ | _ | ⟨index, task, count⟩ | _
  · exact ⟨[], by simp, .nothing⟩
  · refine ⟨[], ?_, .nothing⟩
    dsimp only
    unfold takeTask
    cases pool.waiting <;> simp [setWorker]
  · dsimp only
    unfold attempt
    rcases executor.attempt index task pool.world with ⟨_ | reason, world⟩
    · exact ⟨[.attempted index task], rfl, .tries isAt (.inl rfl)⟩
    · dsimp only
      split
      · rename_i less
        exact ⟨_, List.append_assoc _ _ _, .tries isAt (.inr ⟨reason, .inr ⟨less, rfl⟩⟩)⟩
      · exact ⟨_, List.append_assoc _ _ _, .tries isAt (.inr ⟨reason, .inl rfl⟩)⟩
  · exact ⟨[], by simp, .nothing⟩

/-- The record between the events is the warning of the attempt before it, with all attempts at the
task so far counted, and the delay comes next. -/
def Warned (retries : Attempt) (before : List Event) (record : Record) (after : List Event) : Prop :=
  ∃ earlier index task reason later, ∃ count : Attempt, count < retries ∧
    before = earlier ++ [.attempted index task] ∧
    (before.filterMap Event.attempted?).count index = count.toNat + 1 ∧
    record = retryRecord retries count task reason ∧ after = .waited (delay count) :: later

/-- Every warning among the events is that of an attempt. -/
def AllWarned (retries : Attempt) (events : List Event) : Prop :=
  ∀ before record after, events = before ++ .reported record :: after →
    record.level = .warning → Warned retries before record after

/-- The events of a step begin with the attempt; only the second one can be a warning. -/
theorem Pool.Tries.warned (kept : Kept total retries pool moves done) {first after : List Event}
    {record : Record} (tries : pool.Tries retries (first ++ .reported record :: after))
    (isWarning : record.level = .warning) :
    Warned retries (pool.events ++ first) record after := by
  generalize isAdded : first ++ .reported record :: after = added at tries
  cases tries with
  | nothing => simp at isAdded
  | @tries number index task count reported isBusy isReported =>
      cases first with
      | nil => cases isAdded
      | cons event first =>
          obtain ⟨rfl, isRest⟩ := List.cons.inj isAdded
          obtain ⟨-, -, length, -⟩ := kept.trying number index task count isBusy
          have counted : ((pool.events ++ [Event.attempted index task]).filterMap
              Event.attempted?).count index = count.toNat + 1 := by
            have before : (pool.events.filterMap Event.attempted?).count index = count.toNat :=
              (kept.recorded index).trans length
            rw [List.filterMap_append, List.count_append, before]
            simp [Event.attempted?]
          rcases isReported with rfl | ⟨reason, rfl | ⟨less, rfl⟩⟩
          · simp at isRest
          · cases first with
            | nil =>
                obtain ⟨isRecord, -⟩ := List.cons.inj isRest
                cases isRecord
                cases isWarning
            | cons => simp at isRest
          · cases first with
            | nil =>
                obtain ⟨isRecord, rfl⟩ := List.cons.inj isRest
                cases isRecord
                exact ⟨pool.events, index, task, reason, [], count, less, rfl, counted, rfl, rfl⟩
            | cons second first =>
                obtain ⟨-, isLast⟩ := List.cons.inj isRest
                cases first with
                | nil => cases isLast
                | cons => simp at isLast

/-- What is said of the warnings so far is kept by every step. -/
theorem AllWarned.step (kept : Kept total retries pool moves done)
    (warned : AllWarned retries pool.events) (executor : Executor ρ) (number : Nat) :
    AllWarned retries (pool.step executor retries number).events := by
  obtain ⟨added, isEvents, tries⟩ := pool.step_tries executor retries number
  rw [isEvents]
  intro before record after split isWarning
  rcases List.append_eq_append_iff.mp split with ⟨first, rfl, rfl⟩ | ⟨last, isBefore, isLast⟩
  · exact tries.warned kept isWarning
  · cases last with
    | nil =>
        have isAdded : [] ++ .reported record :: after = added := isLast
        rw [← isAdded] at tries
        rw [List.append_nil] at isBefore
        have now := tries.warned kept isWarning
        rwa [List.append_nil, isBefore] at now
    | cons event last =>
        obtain ⟨rfl, rfl⟩ := List.cons.inj isLast
        obtain ⟨earlier, index, task, reason, later, count, less, isTried, counted, isRecord, rfl⟩ :=
          warned before record last isBefore isWarning
        exact ⟨earlier, index, task, reason, later ++ added, count, less, isTried, counted,
          isRecord, rfl⟩

theorem AllWarned.run (executor : Executor ρ) (kept : Kept total retries pool moves done)
    (warned : AllWarned retries pool.events) (schedule : List Nat) :
    AllWarned retries (pool.runSchedule executor retries schedule).events := by
  induction schedule generalizing pool moves done with
  | nil => exact warned
  | cons number rest inductionHypothesis =>
      obtain ⟨settled, after⟩ := kept.step (pool.step_change executor retries number)
      exact inductionHypothesis after (warned.step kept executor number)

/-- At the start only the number of workers is reported. -/
theorem start_allWarned (requested : Nat) (retries : Attempt) (tasks : List Task) (world : ρ) :
    AllWarned retries (Pool.start requested tasks world).events := by
  intro before record after split isWarning
  cases before with
  | nil =>
      obtain ⟨isRecord, -⟩ := List.cons.inj split
      cases isRecord
      cases isWarning
  | cons event before =>
      obtain ⟨-, isLast⟩ := List.cons.inj split
      simp at isLast

/-- The warning directly follows a failed attempt at its task, of which there is another one to come,
and says how many there were so far. The greatest number of attempts and the delays, which double
with every attempt, are what words of 32 and 64 bits hold: the number is right except for the greatest
number of retries, the seconds that are shown up to the thirty-first attempt, and the milliseconds
that the worker waits up to the fifty-fifth. -/
def Announced (retries : Attempt) (before : List Event) (record : Record) (after : List Event) :
    Prop :=
  ∃ earlier index task reason later failed total seconds milliseconds,
    before = earlier ++ [.attempted index task] ∧
    (before.filterMap Event.attempted?).count index = failed + 1 ∧ failed < retries.toNat ∧
    record = warning (failed + 1) total seconds task reason ∧
    after = .waited milliseconds :: later ∧
    total = (retries.toNat + 1) % 2 ^ 32 ∧
    seconds = ((2 ^ (failed % 32) : Nat) : Int).bmod (2 ^ 32) ∧
    milliseconds = 1000 * 2 ^ (failed % 64) % 2 ^ 64 ∧
    (total = retries.toNat + 1 ↔ retries.toNat + 1 < 2 ^ 32) ∧
    (seconds = (2 ^ failed : Nat) ↔ failed < 31) ∧
    (milliseconds = 1000 * 2 ^ failed ↔ failed < 55)

theorem Warned.announced {before after : List Event} {record : Record}
    (warned : Warned retries before record after) : Announced retries before record after := by
  obtain ⟨earlier, index, task, reason, later, count, less, isTried, counted, isRecord, isAfter⟩ :=
    warned
  rw [retryRecord_eq less] at isRecord
  rw [delay_eq] at isAfter
  exact ⟨earlier, index, task, reason, later, count.toNat, _, _, _, isTried, counted,
    UInt32.lt_iff_toNat_lt.mp less, isRecord, isAfter, rfl, rfl, rfl,
    Nat.mod_eq_iff_lt (by decide), shown_exact_iff _, delay_exact_iff _⟩

/-- However the workers move, each warning announces another attempt as it should, as far as the
words go. -/
theorem runSchedule_announced (executor : Executor ρ) (requested : Nat) (retries : Attempt)
    (tasks : List Task) (world : ρ) (schedule : List Nat) {before after : List Event}
    {record : Record} (isEvents : ((Pool.start requested tasks world).runSchedule executor retries
      schedule).events = before ++ .reported record :: after)
    (isWarning : record.level = .warning) : Announced retries before record after := by
  have kept := start_kept requested retries tasks world
  have warned := (start_allWarned requested retries tasks world).run executor kept schedule
  exact (warned before record after isEvents isWarning).announced

/-- Every attempt fails. -/
def downExecutor : Executor Unit where
  attempt _ _ world := (some "down", world)

/-- The second warning of a worker with two retries, which it waits two seconds after. -/
theorem runSchedule_announced_second :
    let start : Pool Unit := Pool.start 1 [⟨"a", []⟩] ()
    let first : Event := .reported (warning 1 3 1 ⟨"a", []⟩ "down")
    let before : List Event := [.reported (Pool.startRecord 1 [⟨"a", []⟩]), .attempted 0 ⟨"a", []⟩,
      first, .waited 1000, .attempted 0 ⟨"a", []⟩]
    let record := warning 2 3 2 ⟨"a", []⟩ "down"
    (start.runSchedule downExecutor 2 [0, 0, 0]).events =
        before ++ .reported record :: [.waited 2000] ∧
      record.level = .warning ∧ Announced 2 before record [.waited 2000] := by
  intro start first before record
  have isEvents : (start.runSchedule downExecutor 2 [0, 0, 0]).events =
      before ++ .reported record :: [.waited 2000] := by
    decide
  exact ⟨isEvents, rfl, runSchedule_announced downExecutor 1 2 _ _ _ isEvents rfl⟩

/-- After the thirty-second attempt the delay is shown as a negative number of seconds. -/
theorem warning_of_long_delay :
    let events := (run downExecutor 1 32 [⟨"a", []⟩] ()).events
    .reported (warning 32 33 (-2147483648) ⟨"a", []⟩ "down") ∈ events ∧
      .reported (warning 32 33 (2 ^ 31) ⟨"a", []⟩ "down") ∉ events := by
  decide

end ManagementShell.FanOut
