import ManagementShell.Command
import ManagementShell.Command.Fault
import ManagementShell.Text.Blank
import ManagementShell.Text.Quoting

/-
This file reads lines: keyword commands, their shorthands, and method calls with operators.
-/

namespace ManagementShell

namespace Command
open Text

/-- The operators that a shorthand, or a word after a method call, begins with. -/
def isOperator (word : Text) : Bool :=
  match word.head? with
  | some first => first ∈ ("+/>?<\x7b" : Text)
  | none => false

/-- The shorthands `/name`, `/name=value`, `/$variable=name` and `/*$variable=name`. -/
def findShorthand (rest : Text) : Except LineFault Command :=
  let all := rest.head? = some '*'
  let target := if all then rest.tail else rest
  match target with
  | '$' :: assignment =>
      match cut? assignment "=" with
      | some (name, field) =>
          if name ≠ [] ∧ field ≠ [] then
            .ok (if all then .findAll field ('$' :: name) else .find field (some ('$' :: name)) none)
          else .error (.findAssignment (if all then .findAll else .find) target)
      | none => .error (.findAssignment (if all then .findAll else .find) target)
  | _ => if all ∨ target = [] then .error .findForm else .ok (.find target none none)

/-- The shorthands `$variable=value` and `$variable:=expression`. -/
def setShorthand (word : Text) : Except LineFault Command :=
  match cut? word "=" with
  | none => .error (.setForm word)
  | some (left, value) =>
      let evaluates := left.getLast? = some ':'
      let name := if evaluates then left.dropLast else left
      if name.length < 2 ∨ value = [] then .error (.setForm word)
      else .ok (if evaluates then .evaluate name value else .assign name value)

/-- A word that is a command by itself; a script file is run, other words may be methods. -/
def shorthand? (isScript : Text → Bool) (word : Text) : Except LineFault (Option Command) :=
  if endsWith word ".win" ∧ isScript word then .ok (some (.batch word))
  else match word with
    | '+' :: name => .ok (some (.count name))
    | '/' :: '/' :: _ => .error .contextAlone
    | '/' :: rest => (findShorthand rest).map some
    | '>' :: '>' :: target => .ok (some (.gosub target))
    | '>' :: target => .ok (some (.goto target))
    | '<' :: '<' :: fields => .ok (some (.report fields none))
    | '<' :: text => .ok (some (.print text))
    | ['$'] => .ok (some .listVariables)
    | '$' :: _ => (setShorthand word).map some
    | '~' :: name =>
        if name.head? = some '$' then .ok (some (.unset name)) else .error (.unsetForm word)
    | '\x7b' :: _ => .error (.operatorAlone .poll word)
    | '?' :: _ => .error (.operatorAlone .conditional word)
    | _ => .ok none

/-- The text after the first words, as it was typed; words that were quoted are quoted anew. -/
def remainder (all : List Text) : List Text → Text → Text
  | [], text => text
  | word :: skipped, text =>
      match after? text word with
      | some (next :: rest) =>
          if isBlank next then remainder all skipped (trimStart (next :: rest)) else unwords all
      | _ => unwords all

/-- The remainder of a text that splits into the given words, without the first `count`. -/
def tail (text : Text) (words : List Text) (count : Nat) : Text :=
  remainder (words.drop count) (words.take count) (trimStart text)

/-- The text after the first space. -/
def afterSpace? (text : Text) : Option Text := (cut? text " ").map Prod.snd

def checkCount (usage : Usage) (words : List Text) (least : Nat) (most : Option Nat) :
    Except LineFault Unit :=
  let given := words.length - 1
  if least ≤ given ∧ most.all (given ≤ ·) then .ok ()
  else .error (.wrongCount usage (words.headD []) least most given)

/-- One pair of quotes around the whole value is dropped. -/
def unquoted (value : Text) : Text :=
  if 2 ≤ value.length ∧ (value.head? = some '"' ∨ value.head? = some '\'') ∧
      value.getLast? = value.head? then value.tail.dropLast
  else value

def setKeyword (text : Text) : Except LineFault Command :=
  let rest := trim ((afterSpace? text).getD [])
  if rest = [] then .ok .listVariables
  else match cut? rest " " with
    | none => .error .setValue
    | some (first, value) =>
        if toLower first = "/a" then
          match cut? (trim value) " " with
          | none => .error .setExpression
          | some (name, expression) => .ok (.evaluate name (trim expression))
        else .ok (.assign first (unquoted (trim value)))

/-- An operator that takes the next operator as its inner command. -/
inductive Wrapper where
  | conditional (condition : Text)
  | context (look : Text)
  deriving DecidableEq, Repr

namespace Wrapper

def read? : Text → Option Wrapper
  | '?' :: condition => some (.conditional condition)
  | '/' :: '/' :: look => some (.context look)
  | _ => none

def word : Wrapper → Text
  | .conditional condition => '?' :: condition
  | .context look => '/' :: '/' :: look

def usage : Wrapper → Usage
  | .conditional _ => .conditional
  | .context _ => .context

def around : Wrapper → Command → Command
  | .conditional condition, inner => .conditional condition inner
  | .context look, inner => .context look inner

end Wrapper

/-- The command of an operator that takes no inner command. -/
def operatorCommand (isScript : Text → Bool) (operator : Text) : Except LineFault Command :=
  match shorthand? isScript operator with
  | .error fault => .error fault
  | .ok (some command) => .ok command
  | .ok none => .error (.unknownOperator operator)

/-- The poll condition and the commands of the operators; the wrappers that were read last, the
innermost first, wait for their inner command. -/
def operators (isScript : Text → Bool) (waiting : List Wrapper) (condition : Option Text) :
    List Text → Except LineFault (Option Text × List Command)
  | [] => match waiting with
    | [] => .ok (condition, [])
    | wrapper :: _ => .error (.wrapperAlone wrapper.usage wrapper.word)
  | operator :: rest =>
      match waiting, operator with
      | [], '\x7b' :: polled =>
          if condition.isSome then .error .secondCondition
          else operators isScript [] (some polled) rest
      | _, _ => match Wrapper.read? operator with
        | some wrapper => operators isScript (wrapper :: waiting) condition rest
        | none => match operatorCommand isScript operator with
          | .error fault => .error fault
          | .ok leaf =>
              let command := waiting.foldl (fun inner wrapper => wrapper.around inner) leaf
              (operators isScript [] condition rest).map fun read => (read.1, command :: read.2)

/-- The words of a method call are those that are no operators. -/
def methodCall (isScript : Text → Bool) (words : List Text) : Except LineFault Command :=
  let call := words.filter fun word => !isOperator word
  if call = [] then .error .noMethod
  else match operators isScript [] none (words.filter isOperator) with
    | .error fault => .error fault
    | .ok (condition, commands) => .ok (.invoke call condition commands)

/-- The shorthands that are followed by further words; `inner` reads a text as a command. -/
def longShorthand? (inner : Text → Except LineFault Command) (text : Text) (words : List Text) :
    Except LineFault (Option Command) :=
  match words with
  | ('$' :: _) :: _ => .error .setSpaces
  | ('?' :: condition) :: _ =>
      (inner (tail text words 1)).map fun command => some (.conditional condition command)
  | ('<' :: '<' :: fields) :: others => match others with
    | [second] => match after? second "//" with
      | some filter =>
          if '=' ∈ filter then .ok (some (.report fields (some filter)))
          else .error .reportOperator
      | none => .error .reportOperator
    | _ => .error .reportOperator
  | ('<' :: _) :: _ => .ok (some (.print text.tail))
  | ('/' :: '/' :: look) :: _ =>
      (inner (tail text words 1)).map fun command => some (.context look command)
  | ('\x7b' :: condition) :: rest => .ok (some (.poll condition rest))
  | _ => .ok none

/-- The commands that are spelled with a keyword; any other first word is a method name. -/
def keywordCommand (isScript : Text → Bool) (inner : Text → Except LineFault Command)
    (text : Text) (words : List Text) : Except LineFault Command := do
  let keyword := toLower (words.headD [])
  let argument := fun index => words.getD index []
  let counted := fun usage least most => checkCount usage words least most
  if keyword = "quit" ∨ keyword = "exit" then return .quit
  else if keyword = "clear" then return .clear
  else if keyword = "return" then return .leave
  else if keyword = "batch" then
    counted .batch 1 (some 1)
    return .batch (argument 1)
  else if keyword = "context" then
    counted .context 2 none
    return .context (argument 1) (← inner (tail text words 2))
  else if keyword = "count" then
    counted .count 1 (some 1)
    return .count (argument 1)
  else if keyword = "find" then
    counted .find 1 (some 3)
    return .find (argument 1) words[2]? words[3]?
  else if keyword = "findall" then
    counted .findAll 2 (some 2)
    return .findAll (argument 1) (argument 2)
  else if keyword = "gosub" then
    counted .jump 1 (some 1)
    return .gosub (argument 1)
  else if keyword = "goto" then
    counted .jump 1 (some 1)
    return .goto (argument 1)
  else if keyword = "if" then
    counted .conditional 2 none
    return .conditional (argument 1) (← inner (tail text words 2))
  else if keyword = "log" then
    counted .log 0 (some 2)
    return .log words[1]? words[2]?
  else if keyword = "print" then
    match afterSpace? text with
    | some rest => return .print rest
    | none => throw .printText
  else if keyword = "report" then
    match words with
    | [_, fields] => return .report fields none
    | [_, fields, joint, filter] =>
        if toLower joint = "where" ∧ '=' ∈ filter then return .report fields (some filter)
        else throw .reportKeyword
    | _ => throw .reportKeyword
  else if keyword = "set" then setKeyword text
  else if keyword = "sleep" then
    counted .sleep 1 (some 1)
    return .sleep (argument 1)
  else if keyword = "unset" then
    counted .unset 1 (some 1)
    return .unset (argument 1)
  else if keyword = "until" then
    counted .poll 2 none
    return .poll (argument 1) (words.drop 2)
  else methodCall isScript words

/-- A command with at most the given number of commands around inner commands. -/
def readNested (isScript : Text → Bool) : Nat → Text → Except LineFault Command
  | 0, _ => .error .tooDeep
  | depth + 1, typed =>
      let text := trim typed
      match words? text with
      | none => .error (.openQuote text)
      | some [] => .ok .nothing
      | some [word] => match shorthand? isScript word with
        | .error fault => .error fault
        | .ok (some command) => .ok command
        | .ok none => keywordCommand isScript (readNested isScript depth) text [word]
      | some words => match longShorthand? (readNested isScript depth) text words with
        | .error fault => .error fault
        | .ok (some command) => .ok command
        | .ok none => keywordCommand isScript (readNested isScript depth) text words

/-- Every command around another one takes at least one character, so the length bounds the depth. -/
def read (isScript : Text → Bool) (text : Text) : Except LineFault Command :=
  readNested isScript (text.length + 1) text

end Command

namespace Line
open Text

/-- A line that begins with a number sign is a comment, with a colon a label; a hyphen in front of
a command marks that its failure is ignored. -/
def read (isScript : Text → Bool) (line : Text) : Except LineFault Line :=
  match trim line with
  | [] => .ok ⟨false, .nothing⟩
  | '#' :: _ => .ok ⟨false, .nothing⟩
  | ':' :: _ => .ok ⟨false, .nothing⟩
  | '-' :: rest => (Command.read isScript rest).map fun command => ⟨true, command⟩
  | text => (Command.read isScript text).map fun command => ⟨false, command⟩

end Line

end ManagementShell
