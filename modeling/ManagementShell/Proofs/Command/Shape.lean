import ManagementShell.Command.Reader
import ManagementShell.Proofs.Outcome

/-
This file shows which shape the command of a line has: a method call names its method, and none of
its operators is a call, a poll or a return from a gosub. So a line does nothing after a return.
-/

namespace ManagementShell

namespace Command
open Text

mutual

/-- A return is among the commands that may run. -/
@[simp] def mayReturn : Command → Bool
  | .leave => true
  | .context _ inner | .conditional _ inner => inner.mayReturn
  | .invoke _ _ operators => anyMayReturn operators
  | _ => false

@[simp] def anyMayReturn : List Command → Bool
  | [] => false
  | first :: rest => first.mayReturn || anyMayReturn rest

end

/-- A return runs only where nothing runs after it. -/
@[simp] def returnIsLast : Command → Bool
  | .context _ inner | .conditional _ inner => inner.returnIsLast
  | .invoke _ _ operators => !anyMayReturn operators
  | _ => true

/-- What an operator of a method call can be: neither a call or a poll nor a return. -/
@[simp] def isOperation : Command → Bool
  | .context _ inner | .conditional _ inner => inner.isOperation
  | .leave | .poll _ _ | .invoke _ _ _ => false
  | _ => true

/-- A method call names its method, and its operators are operations. -/
@[simp] def isWellFormed : Command → Bool
  | .context _ inner | .conditional _ inner => inner.isWellFormed
  | .invoke words _ operators => !words.isEmpty && operators.all isOperation
  | _ => true

def GivesOperation (outcome : Except LineFault Command) : Prop :=
  Gives outcome (fun command => command.isOperation = true) fun _ => True

def GivesWellFormed (outcome : Except LineFault Command) : Prop :=
  Gives outcome (fun command => command.isWellFormed = true) fun _ => True

theorem returnIsLast_of_not_mayReturn {command : Command} (never : command.mayReturn = false) :
    command.returnIsLast = true := by
  induction command using Command.returnIsLast.induct with
  | case1 look inner inductionHypothesis =>
      rw [mayReturn] at never
      exact inductionHypothesis never
  | case2 condition inner inductionHypothesis =>
      rw [mayReturn] at never
      exact inductionHypothesis never
  | case3 words condition operators =>
      rw [mayReturn] at never
      simp [returnIsLast, never]
  | case4 command noContext noConditional noInvoke => simp [returnIsLast]

theorem isWellFormed_of_isOperation {command : Command} (operation : command.isOperation = true) :
    command.isWellFormed = true := by
  induction command using Command.isWellFormed.induct with
  | case1 look inner inductionHypothesis =>
      rw [isOperation] at operation
      exact inductionHypothesis operation
  | case2 condition inner inductionHypothesis =>
      rw [isOperation] at operation
      exact inductionHypothesis operation
  | case3 words condition operators => cases operation
  | case4 command noContext noConditional noInvoke => simp [isWellFormed]

theorem words_of_isWellFormed {words : List Text} {condition : Option Text}
    {operators : List Command}
    (wellFormed : (Command.invoke words condition operators).isWellFormed = true) : words ≠ [] := by
  rw [isWellFormed, Bool.and_eq_true, Bool.not_eq_true', List.isEmpty_eq_false_iff] at wellFormed
  exact wellFormed.1

theorem operations_of_isWellFormed {words : List Text} {condition : Option Text}
    {operators : List Command}
    (wellFormed : (Command.invoke words condition operators).isWellFormed = true) :
    ∀ command ∈ operators, command.isOperation = true := by
  rw [isWellFormed, Bool.and_eq_true, List.all_eq_true] at wellFormed
  exact wellFormed.2

theorem operators_of_isWellFormed {words : List Text} {condition : Option Text}
    {operators : List Command}
    (wellFormed : (Command.invoke words condition operators).isWellFormed = true) :
    ∀ command ∈ operators, command.isWellFormed = true := fun command member =>
  isWellFormed_of_isOperation (operations_of_isWellFormed wellFormed command member)

theorem mayReturn_of_isOperation {command : Command} (operation : command.isOperation = true) :
    command.mayReturn = false := by
  induction command using Command.isOperation.induct with
  | case1 look inner inductionHypothesis =>
      rw [isOperation] at operation
      exact inductionHypothesis operation
  | case2 condition inner inductionHypothesis =>
      rw [isOperation] at operation
      exact inductionHypothesis operation
  | case3 => cases operation
  | case4 condition words => cases operation
  | case5 words condition operators => cases operation
  | case6 command noContext noConditional noLeave noPoll noInvoke => simp [mayReturn]

theorem anyMayReturn_of_isOperation {commands : List Command}
    (operations : commands.all isOperation = true) : anyMayReturn commands = false := by
  induction commands with
  | nil => rfl
  | cons first rest inductionHypothesis =>
      rw [List.all_cons, Bool.and_eq_true] at operations
      rw [anyMayReturn, mayReturn_of_isOperation operations.1, inductionHypothesis operations.2]
      rfl

theorem returnIsLast_of_isWellFormed {command : Command}
    (wellFormed : command.isWellFormed = true) : command.returnIsLast = true := by
  induction command using Command.returnIsLast.induct with
  | case1 look inner inductionHypothesis =>
      rw [isWellFormed] at wellFormed
      exact inductionHypothesis wellFormed
  | case2 condition inner inductionHypothesis =>
      rw [isWellFormed] at wellFormed
      exact inductionHypothesis wellFormed
  | case3 words condition operators =>
      rw [isWellFormed, Bool.and_eq_true] at wellFormed
      rw [returnIsLast, anyMayReturn_of_isOperation wellFormed.2]
      rfl
  | case4 command noContext noConditional noInvoke => simp [returnIsLast]

theorem findShorthand_isOperation (rest : Text) : GivesOperation (findShorthand rest) := by
  simp only [GivesOperation, findShorthand]
  grind [Gives, isOperation]

theorem setShorthand_isOperation (word : Text) : GivesOperation (setShorthand word) := by
  simp only [GivesOperation, setShorthand]
  grind [Gives, isOperation]

theorem shorthand_isOperation (isScript : Text → Bool) (word : Text) :
    Gives (shorthand? isScript word)
      (fun found => ∀ command ∈ found, command.isOperation = true) fun _ => True := by
  have finds (rest : Text) : Gives ((findShorthand rest).map some)
      (fun found => ∀ command ∈ found, command.isOperation = true) fun _ => True := by
    simpa [GivesOperation] using findShorthand_isOperation rest
  have sets : Gives ((setShorthand word).map some)
      (fun found => ∀ command ∈ found, command.isOperation = true) fun _ => True := by
    simpa [GivesOperation] using setShorthand_isOperation word
  unfold shorthand?
  split
  · simp [isOperation]
  · split <;> first | exact finds _ | exact sets | skip
    all_goals try split
    all_goals simp [isOperation]

theorem around_isOperation (wrapper : Wrapper) (inner : Command) :
    (wrapper.around inner).isOperation = inner.isOperation := by
  cases wrapper <;> simp [Wrapper.around, isOperation]

theorem wrapped_isOperation (waiting : List Wrapper) (leaf : Command) :
    (waiting.foldl (fun inner wrapper => wrapper.around inner) leaf).isOperation =
      leaf.isOperation := by
  induction waiting generalizing leaf with
  | nil => rfl
  | cons wrapper rest inductionHypothesis =>
      rw [List.foldl_cons, inductionHypothesis, around_isOperation]

theorem operatorCommand_isOperation (isScript : Text → Bool) (operator : Text) :
    GivesOperation (operatorCommand isScript operator) := by
  have read := shorthand_isOperation isScript operator
  unfold operatorCommand
  cases found : shorthand? isScript operator with
  | error fault => trivial
  | ok command =>
      rw [found] at read
      cases command with
      | none => trivial
      | some command => exact read command rfl

theorem operators_areOperations (isScript : Text → Bool) (waiting : List Wrapper)
    (condition : Option Text) (words : List Text) :
    Gives (operators isScript waiting condition words)
      (fun read => read.2.all isOperation = true) fun _ => True := by
  induction words generalizing waiting condition with
  | nil =>
      cases waiting with
      | nil => simp [operators]
      | cons wrapper rest => simp [operators]
  | cons operator rest inductionHypothesis =>
      unfold operators
      split
      · split
        · simp
        · exact inductionHypothesis _ _
      · split
        · exact inductionHypothesis _ _
        · split
          · simp
          · rename_i leaf leafRead
            have leafIs := gives_of_eq_ok leafRead (operatorCommand_isOperation _ _)
            simp only [gives_map, List.all_cons, wrapped_isOperation, leafIs, Bool.true_and]
            exact inductionHypothesis _ _

theorem methodCall_isWellFormed (isScript : Text → Bool) (words : List Text) :
    GivesWellFormed (methodCall isScript words) := by
  have read := operators_areOperations isScript [] none (words.filter isOperator)
  simp only [GivesWellFormed, methodCall]
  split
  · simp
  · cases found : operators isScript [] none (words.filter isOperator) with
    | error fault => simp
    | ok commands => simp [isWellFormed, gives_of_eq_ok found read, *]

theorem setKeyword_isWellFormed (text : Text) : GivesWellFormed (setKeyword text) := by
  simp only [GivesWellFormed, setKeyword]
  grind [Gives, isWellFormed]

theorem checkCount_gives (usage : Usage) (words : List Text) (least : Nat) (most : Option Nat) :
    Gives (checkCount usage words least most) (fun _ => True) fun _ => True := by
  cases checkCount usage words least most <;> trivial

section

variable {inner : Text → Except LineFault Command}
  (innerWellFormed : ∀ text, GivesWellFormed (inner text))
include innerWellFormed

theorem longShorthand_isWellFormed (text : Text) (words : List Text) :
    Gives (longShorthand? inner text words)
      (fun found => ∀ command ∈ found, command.isWellFormed = true) fun _ => True := by
  have inside (wrapper : Wrapper) (tail : Text) :
      Gives ((inner tail).map fun command => some (wrapper.around command))
        (fun found => ∀ command ∈ found, command.isWellFormed = true) fun _ => True := by
    cases wrapper <;>
      simpa [GivesWellFormed, Wrapper.around, isWellFormed] using innerWellFormed tail
  unfold longShorthand?
  split
  · simp
  · exact inside (.conditional _) _
  · grind [Gives, isWellFormed]
  · simp [isWellFormed]
  · exact inside (.context _) _
  · simp [isWellFormed]
  · simp

theorem keywordCommand_isWellFormed (isScript : Text → Bool) (text : Text) (words : List Text) :
    GivesWellFormed (keywordCommand isScript inner text words) := by
  have inside (tail : Text) : Gives (inner tail) (fun command => command.isWellFormed = true)
      fun _ => True := innerWellFormed tail
  have sets := setKeyword_isWellFormed text
  have calls := methodCall_isWellFormed isScript words
  simp only [GivesWellFormed] at sets calls
  unfold GivesWellFormed keywordCommand
  simp only [gives_ite, gives_bind, gives_pure, isWellFormed, checkCount_gives, inside, sets, calls,
    implies_true, true_and, and_true]
  intros
  constructor
  · intro _
    split <;> simp [isWellFormed]
  · intro _ _
    split
    · simp [isWellFormed]
    · split <;> simp [isWellFormed]
    · simp

end

/-- The induction is on the number of commands that may be around other ones. -/
theorem readNested_isWellFormed (isScript : Text → Bool) (depth : Nat) (typed : Text) :
    GivesWellFormed (readNested isScript depth typed) := by
  induction depth generalizing typed with
  | zero => trivial
  | succ depth inductionHypothesis =>
      simp only [readNested]
      split
      · trivial
      · rfl
      · rename_i word _
        split
        · trivial
        · rename_i command found
          exact isWellFormed_of_isOperation
            (gives_of_eq_ok found (shorthand_isOperation isScript word) command rfl)
        · exact keywordCommand_isWellFormed inductionHypothesis _ _ _
      · split
        · trivial
        · rename_i command found
          exact gives_of_eq_ok found (longShorthand_isWellFormed inductionHypothesis _ _)
            command rfl
        · exact keywordCommand_isWellFormed inductionHypothesis _ _ _

end Command

theorem Line.read_isWellFormed (isScript : Text → Bool) (text : Text) :
    Gives (Line.read isScript text) (fun line => line.command.isWellFormed = true)
      fun _ => True := by
  have reads (rest : Text) (ignoresFailure : Bool) :
      Gives ((Command.read isScript rest).map fun command => Line.mk ignoresFailure command)
        (fun line => line.command.isWellFormed = true) fun _ => True := by
    rw [gives_map]
    exact Command.readNested_isWellFormed isScript _ rest
  unfold Line.read
  split
  · rfl
  · rfl
  · rfl
  · exact reads _ _
  · exact reads _ _

/-- Whatever a line does, it does nothing after a return. -/
theorem Line.read_lastReturn (isScript : Text → Bool) (text : Text) :
    Gives (Line.read isScript text) (fun line => line.command.returnIsLast = true)
      fun _ => True :=
  (Line.read_isWellFormed isScript text).weaken
    (fun _ => Command.returnIsLast_of_isWellFormed) fun _ => id

end ManagementShell
