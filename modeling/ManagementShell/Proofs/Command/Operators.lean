import ManagementShell.Command.Reader
import ManagementShell.Proofs.Text.Cut
import ManagementShell.Proofs.Outcome

/-
This file shows which commands the operators behind a method call are: each command is spelled with
the words of its wrappers and the word of its innermost command, and the operators are what the
commands are spelled with, with at most one poll condition among them.
-/

namespace ManagementShell

namespace Command
open Text

/-- The command is around another one. -/
def isNested : Command → Bool
  | .context _ _ | .conditional _ _ => true
  | _ => false

/-- The command inside of all those that are around another one. -/
def innermost : Command → Command
  | .context _ inner | .conditional _ inner => inner.innermost
  | command => command

/-- The word that is read as the command when it stands alone. -/
def shortWord : Command → Text
  | .batch path => path
  | .count name => '+' :: name
  | .find look name _ =>
      match name with
      | some name => '/' :: (name ++ '=' :: look)
      | none => '/' :: look
  | .findAll field name => '/' :: '*' :: (name ++ '=' :: field)
  | .gosub target => '>' :: '>' :: target
  | .goto target => '>' :: target
  | .report fields _ => '<' :: '<' :: fields
  | .print text => '<' :: text
  | .listVariables => "$"
  | .assign name value => name ++ '=' :: value
  | .evaluate name expression => name ++ ':' :: '=' :: expression
  | .unset name => '~' :: name
  | _ => []

/-- The words that spell an operator: one for each command around another one, then one for the
innermost command. -/
def operatorWords : Command → List Text
  | .context look inner => (Wrapper.context look).word :: inner.operatorWords
  | .conditional condition inner => (Wrapper.conditional condition).word :: inner.operatorWords
  | command => [command.shortWord]

/-- The command is what is read of its words behind a method call: its innermost command is what the
word of that is read as alone. A word with the mark of a poll condition can only be the path of a
script, behind the word of a wrapper. -/
structure IsTrailing (isScript : Text → Bool) (command : Command) : Prop where
  leaf : shorthand? isScript command.innermost.shortWord = .ok (some command.innermost)
  bare : Wrapper.read? command.innermost.shortWord = none
  polled : command.innermost.shortWord.head? = some '\x7b' → command.isNested = true ∧
    command.innermost = .batch command.innermost.shortWord ∧
    isScript command.innermost.shortWord = true

/-- The command is read of the word and of no other one. -/
def Spells (word : Text) (command : Command) : Prop :=
  command.shortWord = word ∧ command.isNested = false

theorem findShorthand_spells (rest : Text) :
    Gives (findShorthand rest) (Spells ('/' :: rest)) fun _ => True := by
  unfold findShorthand
  by_cases all : rest.head? = some '*'
  · obtain ⟨target, rfl⟩ := List.head?_eq_some_iff.mp all
    simp only [all, if_true, List.tail_cons]
    split
    · split
      · rename_i name field isCut
        obtain ⟨rfl, -⟩ := (cut?_eq_some '=').mp isCut
        split
        · exact ⟨rfl, rfl⟩
        · trivial
      · trivial
    · simp
  · simp only [all, if_false, false_or]
    split
    · split
      · rename_i name field isCut
        obtain ⟨rfl, -⟩ := (cut?_eq_some '=').mp isCut
        split
        · exact ⟨rfl, rfl⟩
        · trivial
      · trivial
    · split
      · trivial
      · exact ⟨rfl, rfl⟩

theorem setShorthand_spells (word : Text) :
    Gives (setShorthand word) (Spells word) fun _ => True := by
  unfold setShorthand
  split
  · trivial
  · rename_i left value isCut
    obtain ⟨rfl, -⟩ := (cut?_eq_some '=').mp isCut
    by_cases evaluates : left.getLast? = some ':'
    · obtain ⟨name, rfl⟩ := List.getLast?_eq_some_iff.mp evaluates
      simp only [evaluates, if_true, List.dropLast_concat]
      split
      · trivial
      · exact ⟨by simp [shortWord], rfl⟩
    · simp only [evaluates, if_false]
      split
      · trivial
      · exact ⟨rfl, rfl⟩

/-- A command that a word is read as by itself is spelled with the word. -/
theorem shorthand_spells (isScript : Text → Bool) (word : Text) :
    Gives (shorthand? isScript word) (fun found => ∀ command ∈ found, Spells word command)
      fun _ => True := by
  have found {outcome : Except LineFault Command} (spells : Gives outcome (Spells word) fun _ => True) :
      Gives (outcome.map some) (fun found => ∀ command ∈ found, Spells word command)
        fun _ => True := by
    simpa using spells
  unfold shorthand?
  split
  · simp [Spells, shortWord, isNested]
  · split
    · simp [Spells, shortWord, isNested]
    · trivial
    · exact found (findShorthand_spells _)
    · simp [Spells, shortWord, isNested]
    · simp [Spells, shortWord, isNested]
    · simp [Spells, shortWord, isNested]
    · simp [Spells, shortWord, isNested]
    · simp [Spells, shortWord, isNested]
    · exact found (setShorthand_spells _)
    · split
      · simp [Spells, shortWord, isNested]
      · trivial
    · trivial
    · trivial
    · simp

theorem Wrapper.read?_eq_some {word : Text} {wrapper : Wrapper} :
    Wrapper.read? word = some wrapper ↔ word = wrapper.word := by
  constructor
  · intro wraps
    unfold Wrapper.read? at wraps
    split at wraps
    · cases wraps
      rfl
    · cases wraps
      rfl
    · cases wraps
  · rintro rfl
    cases wrapper <;> rfl

/-- The wrappers, the innermost of them first, around a command. -/
def wrapAll (waiting : List Wrapper) (leaf : Command) : Command :=
  waiting.foldl (fun inner wrapper => wrapper.around inner) leaf

@[simp] theorem operatorWords_around (wrapper : Wrapper) (inner : Command) :
    (wrapper.around inner).operatorWords = wrapper.word :: inner.operatorWords := by
  cases wrapper <;> simp [Wrapper.around, operatorWords]

@[simp] theorem innermost_around (wrapper : Wrapper) (inner : Command) :
    (wrapper.around inner).innermost = inner.innermost := by
  cases wrapper <;> simp [Wrapper.around, innermost]

@[simp] theorem isNested_around (wrapper : Wrapper) (inner : Command) :
    (wrapper.around inner).isNested = true := by
  cases wrapper <;> rfl

theorem operatorWords_of_not_nested {command : Command} (single : command.isNested = false) :
    command.operatorWords = [command.shortWord] := by
  cases command with
  | context | conditional => cases single
  | _ => simp [operatorWords]

theorem innermost_of_not_nested {command : Command} (single : command.isNested = false) :
    command.innermost = command := by
  cases command with
  | context | conditional => cases single
  | _ => simp [innermost]

theorem operatorWords_wrapAll (waiting : List Wrapper) (leaf : Command) :
    (wrapAll waiting leaf).operatorWords = waiting.reverse.map Wrapper.word ++ leaf.operatorWords := by
  induction waiting generalizing leaf with
  | nil => rfl
  | cons wrapper waiting inductionHypothesis =>
      have step := inductionHypothesis (wrapper.around leaf)
      simpa [wrapAll] using step

theorem innermost_wrapAll (waiting : List Wrapper) (leaf : Command) :
    (wrapAll waiting leaf).innermost = leaf.innermost := by
  induction waiting generalizing leaf with
  | nil => rfl
  | cons wrapper waiting inductionHypothesis =>
      have step := inductionHypothesis (wrapper.around leaf)
      simpa [wrapAll] using step

theorem isNested_wrapAll {waiting : List Wrapper} {leaf : Command}
    (nested : waiting ≠ [] ∨ leaf.isNested = true) : (wrapAll waiting leaf).isNested = true := by
  induction waiting generalizing leaf with
  | nil => exact nested.resolve_left (by simp)
  | cons wrapper waiting inductionHypothesis =>
      exact inductionHypothesis (.inr (isNested_around wrapper leaf))

section

variable {isScript : Text → Bool} {waiting : List Wrapper} {condition : Option Text}

/-- By itself, a word with the mark of a poll condition is only read as the path of a script. -/
theorem shorthand_polled {word : Text} {leaf : Command}
    (reads : shorthand? isScript word = .ok (some leaf)) (isHead : word.head? = some '\x7b') :
    leaf = .batch word ∧ isScript word = true := by
  obtain ⟨polled, rfl⟩ := List.head?_eq_some_iff.mp isHead
  unfold shorthand? at reads
  split at reads
  · rename_i script
    cases reads
    exact ⟨rfl, script.2⟩
  · cases reads

/-- Behind the words of wrappers, a word that is none of them gives an operator with the wrappers
around it, unless it is a poll condition. -/
theorem isTrailing_wrapAll {word : Text} {leaf : Command}
    (reads : shorthand? isScript word = .ok (some leaf)) (bare : Wrapper.read? word = none)
    (unpolled : waiting = [] → word.head? ≠ some '\x7b') :
    IsTrailing isScript (wrapAll waiting leaf) ∧
      (wrapAll waiting leaf).operatorWords = waiting.reverse.map Wrapper.word ++ [word] := by
  obtain ⟨rfl, single⟩ := gives_of_eq_ok reads (shorthand_spells isScript word) leaf rfl
  refine ⟨⟨?_, ?_, fun isHead => ?_⟩, ?_⟩
  · rwa [innermost_wrapAll, innermost_of_not_nested single]
  · rwa [innermost_wrapAll, innermost_of_not_nested single]
  · rw [innermost_wrapAll, innermost_of_not_nested single] at isHead ⊢
    exact ⟨isNested_wrapAll (.inl fun none => unpolled none isHead),
      shorthand_polled reads isHead⟩
  · rw [operatorWords_wrapAll, operatorWords_of_not_nested single]

/-- What the reader of the operators does with a word: it takes the poll condition, adds a wrapper,
or ends an operator with the wrappers that wait. -/
theorem operators_cons {operator : Text} {rest : List Text} {read : Option Text × List Command}
    (reads : operators isScript waiting condition (operator :: rest) = .ok read) :
    (∃ polled, operator = '\x7b' :: polled ∧ waiting = [] ∧ condition = none ∧
      operators isScript [] (some polled) rest = .ok read) ∨
    (∃ wrapper : Wrapper, operator = wrapper.word ∧
      operators isScript (wrapper :: waiting) condition rest = .ok read) ∨
    (∃ command commands, read = (read.1, command :: commands) ∧ IsTrailing isScript command ∧
      command.operatorWords = waiting.reverse.map Wrapper.word ++ [operator] ∧
      operators isScript [] condition rest = .ok (read.1, commands)) := by
  unfold operators at reads
  split at reads
  · rename_i polled
    split at reads
    · cases reads
    · rename_i unset
      exact .inl ⟨polled, rfl, rfl, by simpa using unset, reads⟩
  · rename_i notPolled
    split at reads
    · rename_i wrapper wraps
      exact .inr (.inl ⟨wrapper, Wrapper.read?_eq_some.mp wraps, reads⟩)
    · rename_i bare
      split at reads
      · cases reads
      · rename_i leaf isLeaf
        obtain ⟨⟨polled, commands⟩, isRest, rfl⟩ := map_eq_ok.mp reads
        have alone : shorthand? isScript operator = .ok (some leaf) := by
          unfold operatorCommand at isLeaf
          split at isLeaf
          · cases isLeaf
          · cases isLeaf
            assumption
          · cases isLeaf
        have unpolled (none : waiting = []) : operator.head? ≠ some '\x7b' := by
          intro isHead
          obtain ⟨polled, rfl⟩ := List.head?_eq_some_iff.mp isHead
          exact notPolled polled none rfl
        obtain ⟨trailing, spelled⟩ := isTrailing_wrapAll alone bare unpolled
        exact .inr (.inr ⟨_, commands, rfl, trailing, spelled, isRest⟩)

/-- With a poll condition, the words that are read are those that the commands are spelled with. -/
theorem operators_polled {polled : Text} {words : List Text} {read : Option Text × List Command}
    (reads : operators isScript waiting (some polled) words = .ok read) :
    read.1 = some polled ∧ waiting.reverse.map Wrapper.word ++ words = read.2.flatMap operatorWords ∧
      ∀ command ∈ read.2, IsTrailing isScript command := by
  induction words generalizing waiting read with
  | nil =>
      cases waiting with
      | nil =>
          cases reads
          exact ⟨rfl, rfl, nofun⟩
      | cons => cases reads
  | cons operator rest inductionHypothesis =>
      rcases operators_cons reads with ⟨_, _, _, isNone, _⟩ | ⟨wrapper, rfl, later⟩ |
        ⟨command, commands, isRead, trailing, spelled, later⟩
      · cases isNone
      · simpa using inductionHypothesis later
      · obtain ⟨kept, spelledLater, trailingLater⟩ := inductionHypothesis later
        rw [isRead]
        refine ⟨kept, ?_, List.forall_mem_cons.mpr ⟨trailing, trailingLater⟩⟩
        have isRest : rest = commands.flatMap operatorWords := spelledLater
        rw [List.flatMap_cons, spelled, isRest, List.append_assoc, List.singleton_append]

/-- Without a poll condition so far, one of the words may give it. -/
theorem operators_unpolled {words : List Text} {read : Option Text × List Command}
    (reads : operators isScript waiting none words = .ok read) :
    ∃ earlier later, read.2 = earlier ++ later ∧
      waiting.reverse.map Wrapper.word ++ words = earlier.flatMap operatorWords ++
        ((read.1.map ('\x7b' :: ·)).toList ++ later.flatMap operatorWords) ∧
      ∀ command ∈ read.2, IsTrailing isScript command := by
  induction words generalizing waiting read with
  | nil =>
      cases waiting with
      | nil =>
          cases reads
          exact ⟨[], [], rfl, rfl, nofun⟩
      | cons => cases reads
  | cons operator rest inductionHypothesis =>
      rcases operators_cons reads with ⟨polled, rfl, rfl, -, later⟩ | ⟨wrapper, rfl, later⟩ |
        ⟨command, commands, isRead, trailing, spelled, later⟩
      · obtain ⟨isPolled, spelled, trailing⟩ := operators_polled later
        have isRest : rest = read.2.flatMap operatorWords := spelled
        exact ⟨[], read.2, rfl, by rw [isPolled, isRest]; rfl, trailing⟩
      · simpa using inductionHypothesis later
      · obtain ⟨earlier, others, areCommands, spelledLater, trailingLater⟩ :=
          inductionHypothesis later
        have areRest : commands = earlier ++ others := areCommands
        have isRest : rest = earlier.flatMap operatorWords ++
            ((read.1.map ('\x7b' :: ·)).toList ++ others.flatMap operatorWords) := spelledLater
        rw [isRead]
        refine ⟨command :: earlier, others, by rw [areRest]; rfl, ?_,
          List.forall_mem_cons.mpr ⟨trailing, trailingLater⟩⟩
        simp [spelled, isRest]

theorem operators_wrapper (wrapper : Wrapper) (rest : List Text) :
    operators isScript waiting condition (wrapper.word :: rest) =
      operators isScript (wrapper :: waiting) condition rest := by
  cases wrapper <;> cases waiting <;> rfl

theorem operators_leaf {word : Text} {leaf : Command}
    (reads : shorthand? isScript word = .ok (some leaf)) (bare : Wrapper.read? word = none)
    (unpolled : waiting = [] → word.head? ≠ some '\x7b') (rest : List Text) :
    operators isScript waiting condition (word :: rest) =
      (operators isScript [] condition rest).map fun read =>
        (read.1, wrapAll waiting leaf :: read.2) := by
  rw [operators]
  · simp only [bare, operatorCommand, reads]
    rfl
  · rintro polled none rfl
    exact unpolled none rfl

/-- The words of an operator are read as the operator, with the wrappers that wait around it. -/
theorem operators_operatorWords {command : Command}
    (leaf : shorthand? isScript command.innermost.shortWord = .ok (some command.innermost))
    (bare : Wrapper.read? command.innermost.shortWord = none)
    (unpolled : waiting = [] → command.isNested = false → command.shortWord.head? ≠ some '\x7b')
    (rest : List Text) :
    operators isScript waiting condition (command.operatorWords ++ rest) =
      (operators isScript [] condition rest).map fun read =>
        (read.1, wrapAll waiting command :: read.2) := by
  induction command using operatorWords.induct generalizing waiting with
  | case1 look inner inductionHypothesis =>
      rw [innermost] at leaf bare
      rw [operatorWords, List.cons_append, operators_wrapper]
      exact inductionHypothesis leaf bare nofun
  | case2 condition inner inductionHypothesis =>
      rw [innermost] at leaf bare
      rw [operatorWords, List.cons_append, operators_wrapper]
      exact inductionHypothesis leaf bare nofun
  | case3 command noContext noConditional =>
      have single : command.isNested = false := by
        unfold isNested
        split
        · exact absurd rfl (noContext _ _)
        · exact absurd rfl (noConditional _ _)
        · rfl
      rw [innermost_of_not_nested single] at leaf bare
      rw [operatorWords_of_not_nested single]
      exact operators_leaf leaf bare (fun none => unpolled none single) rest

theorem operators_flatMap {commands : List Command}
    (trailing : ∀ command ∈ commands, IsTrailing isScript command) (rest : List Text) :
    operators isScript [] condition (commands.flatMap operatorWords ++ rest) =
      (operators isScript [] condition rest).map fun read => (read.1, commands ++ read.2) := by
  induction commands with
  | nil =>
      rw [List.flatMap_nil, List.nil_append]
      cases operators isScript [] condition rest <;> rfl
  | cons command commands inductionHypothesis =>
      rw [List.forall_mem_cons] at trailing
      obtain ⟨⟨leaf, bare, polled⟩, trailingLater⟩ := trailing
      have unpolled (single : command.isNested = false) : command.shortWord.head? ≠ some '\x7b' := by
        intro isHead
        rw [innermost_of_not_nested single] at polled
        rw [(polled isHead).1] at single
        cases single
      rw [List.flatMap_cons, List.append_assoc,
        operators_operatorWords leaf bare (fun _ => unpolled), inductionHypothesis trailingLater]
      cases operators isScript [] condition rest <;> rfl

/-- The operators are read as the commands that they spell, with the poll condition between them. -/
theorem operators_eq_ok {words : List Text} {polled : Option Text} {commands : List Command} :
    operators isScript [] none words = .ok (polled, commands) ↔
      ∃ earlier later, commands = earlier ++ later ∧
        words = earlier.flatMap operatorWords ++
          ((polled.map ('\x7b' :: ·)).toList ++ later.flatMap operatorWords) ∧
        ∀ command ∈ commands, IsTrailing isScript command := by
  constructor
  · exact operators_unpolled
  · rintro ⟨earlier, later, rfl, rfl, trailing⟩
    rw [List.forall_mem_append] at trailing
    have last (condition : Option Text) :
        operators isScript [] condition (later.flatMap operatorWords) = .ok (condition, later) := by
      have ends : operators isScript [] condition (later.flatMap operatorWords ++ []) =
          (operators isScript [] condition []).map fun read => (read.1, later ++ read.2) :=
        operators_flatMap trailing.2 []
      simpa [operators, Except.map] using ends
    rw [operators_flatMap trailing.1]
    cases polled with
    | none =>
        rw [Option.map_none, Option.toList_none, List.nil_append, last]
        rfl
    | some polled =>
        have polls (rest : List Text) : operators isScript [] none (('\x7b' :: polled) :: rest) =
            operators isScript [] (some polled) rest := rfl
        rw [Option.map_some, Option.toList_some, List.singleton_append, polls, last]
        rfl

end

/-- A line is a method call exactly if its words without those of the operators, of which there is
one at least, are its call, and its operators, with at most one poll condition between them, are
spelled by its commands in their order. -/
theorem methodCall_eq_ok (isScript : Text → Bool) (words : List Text) (command : Command) :
    methodCall isScript words = .ok command ↔
      ∃ call condition earlier later,
        command = .invoke call condition (earlier ++ later) ∧ call ≠ [] ∧
        call = words.filter (fun word => !isOperator word) ∧
        words.filter isOperator = earlier.flatMap operatorWords ++
          ((condition.map ('\x7b' :: ·)).toList ++ later.flatMap operatorWords) ∧
        ∀ operation ∈ earlier ++ later, IsTrailing isScript operation := by
  unfold methodCall
  constructor
  · intro reads
    dsimp only at reads
    split at reads
    · cases reads
    · rename_i given
      split at reads
      · cases reads
      · rename_i condition commands isRead
        cases reads
        obtain ⟨earlier, later, rfl, spelled, trailing⟩ := operators_eq_ok.mp isRead
        exact ⟨_, condition, earlier, later, rfl, given, rfl, spelled, trailing⟩
  · rintro ⟨call, condition, earlier, later, rfl, given, rfl, spelled, trailing⟩
    have isRead := operators_eq_ok.mpr ⟨earlier, later, rfl, spelled, trailing⟩
    simp only [if_neg given, isRead]

/-- Behind a wrapper, a word with the mark of a poll condition is the path of a script, so that a call
can have no poll condition although it has just one such word. -/
theorem methodCall_unpolled :
    ¬∀ (isScript : Text → Bool) (words call : List Text) (condition : Option Text)
      (commands : List Command),
      methodCall isScript words = .ok (.invoke call condition commands) →
        ∀ polled, words.filter (fun word => word.head? = some '\x7b') = ['\x7b' :: polled] →
          condition = some polled := by
  intro always
  have polled := always (fun path => path = ("\x7bx.win" : Text))
    ["M", "?c", "\x7bx.win", "+$n"] ["M"] none
    [.conditional "c" (.batch "\x7bx.win"), .count "$n"] rfl "x.win" rfl
  cases polled

end Command

end ManagementShell
