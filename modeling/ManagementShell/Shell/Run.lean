import ManagementShell.FileTree
import ManagementShell.Shell.Command
import ManagementShell.Shell.Printed

/-
This file runs client scripts.
-/

namespace ManagementShell.Shell
open Text

/-- Where a stream of a command goes. -/
inductive Target where
  | output
  | errors
  | file (location : Location)
  | nowhere
  deriving DecidableEq, Repr

/-- The state of a running script. The first argument is the name that the script goes by. -/
structure Process where
  arguments : List Text
  assigned : List (Text × Text)
  files : FileTree
  output : Bytes
  errors : Bytes
  status : Nat
  input : Bytes

/-- A script ends with a code, or by a signal. -/
inductive Ending where
  | code (code : Nat)
  | signal
  deriving DecidableEq, Repr

/-- The number by which a script knows its own process. -/
def processNumber : Text := "4242"

namespace Process

def name (process : Process) : Text := process.arguments.headD []

def write (process : Process) (target : Target) (bytes : Bytes) : Process :=
  match target with
  | .output => { process with output := process.output ++ bytes }
  | .errors => { process with errors := process.errors ++ bytes }
  | .file location => { process with files := process.files.append location bytes }
  | .nowhere => process

/-- The value of a parameter; one that is not set is empty. -/
def value (process : Process) (parameter : Text) : Text :=
  match natural? parameter with
  | some index => process.arguments.getD index []
  | none =>
      if parameter = "#" then ofNat (process.arguments.length - 1)
      else if parameter = "?" then ofNat process.status
      else if parameter = "$" then processNumber
      else if parameter = "*" ∨ parameter = "@" then join " " process.arguments.tail
      else (process.assigned.lookup parameter).getD []

def isBlank (character : Char) : Bool := character ∈ (" \t\n" : Text)

/-- The parts of a text between blanks; the flags say whether the text begins and ends with one. -/
def fields (text : Text) : Bool × List Text × Bool :=
  let marked := text.map fun character => if isBlank character then ' ' else character
  (text.head?.any isBlank, (splitOn marked ' ').filter (· != []), text.getLast?.any isBlank)

/-- Words that are being built: the finished ones and the one that may go on. -/
structure Building where
  finished : List Text
  begun : Option Text

def Building.add (building : Building) (text : Text) : Building :=
  { building with begun := some (building.begun.getD [] ++ text) }

def Building.finish (building : Building) : Building :=
  ⟨building.finished ++ building.begun.toList, none⟩

/-- The first text goes on with the word that is begun, the others begin words of their own. -/
def Building.addAll (building : Building) : List Text → Building
  | [] => building
  | first :: rest =>
      rest.foldl (fun building text => building.finish.add text) (building.add first)

/-- Unquoted values are split at blanks; quoted arguments stay words of their own. -/
def expandFragment (process : Process) (building : Building) : Fragment → Building
  | .literal text => building.add text
  | .parameter name true =>
      if name = "@" then building.addAll process.arguments.tail
      else building.add (process.value name)
  | .parameter name false =>
      let (starts, parts, ends) := fields (process.value name)
      let begun := if starts then building.finish else building
      let added := begun.addAll parts
      if ends then added.finish else added

def expandWord (process : Process) (word : Word) : List Text :=
  (word.foldl process.expandFragment ⟨[], none⟩).finish.finished

/-- Outside of the words of a command nothing is split. -/
def expandWhole (process : Process) (word : Word) : Text :=
  word.flatMap fun fragment => match fragment with
    | .literal text => text
    | .parameter name _ => process.value name

/-- A message of the script itself, with the line that it is about. -/
def complaint (process : Process) (line : Nat) (text : Text) : Text :=
  process.name ++ ": " ++ ofNat line ++ ": " ++ text ++ "\n"

def ofFault : FileFault → Text
  | .notFound => "No such file or directory"
  | .notDirectory => "Not a directory"
  | .isDirectory => "Is a directory"
  | .permissionDenied => "Permission denied"
  | fault => fault.message

/-- The targets of the standard output and of the errors. -/
structure Streams where
  output : Target
  errors : Target

def Streams.change (streams : Streams) (stream : Nat) (target : Target) : Streams :=
  if stream = 1 then { streams with output := target }
  else if stream = 2 then { streams with errors := target }
  else streams

def Streams.target (streams : Streams) (number : Text) : Target :=
  if number = "1" then streams.output else if number = "2" then streams.errors else .nowhere

def cannot (reading : Bool) (path : Text) (fault : FileFault) : Text :=
  let what : Text := if reading then "cannot open " else "cannot create "
  let reason : Text := match fault with
    | .notFound => if reading then "No such file" else "Directory nonexistent"
    | fault => ofFault fault
  what ++ path ++ ": " ++ reason

/-- A redirection changes a stream, or it fails with a message. -/
def redirect (process : Process) (streams : Streams) (redirection : Redirection) :
    Except Text (Process × Streams) :=
  let target := process.expandWhole redirection.target
  let opened := fun keeps => match process.files.openForWriting target keeps with
    | .ok (location, files) =>
        .ok ({ process with files := files }, streams.change redirection.stream (.file location))
    | .error fault => .error (cannot false target fault)
  match redirection.direction with
  | .write => if target = "/dev/null" then .ok (process, streams.change redirection.stream .nowhere)
      else opened false
  | .append => if target = "/dev/null" then .ok (process, streams.change redirection.stream .nowhere)
      else opened true
  | .duplicate => .ok (process, streams.change redirection.stream (streams.target target))
  | .read =>
      if target = "/dev/null" then .ok ({ process with input := [] }, streams)
      else match process.files.readBytes target with
        | .ok bytes => .ok ({ process with input := bytes }, streams)
        | .error fault => .error (cannot true target fault)

def redirectAll (process : Process) (streams : Streams) :
    List Redirection → Except Text (Process × Streams)
  | [] => .ok (process, streams)
  | first :: rest => match process.redirect streams first with
    | .error message => .error message
    | .ok (changed, others) => changed.redirectAll others rest

/-- The contents of the files are written one after the other. -/
def concatenate (process : Process) (streams : Streams) : List Text → Process
  | [] => process
  | path :: rest => match process.files.readBytes path with
    | .ok bytes => (process.write streams.output bytes).concatenate streams rest
    | .error fault =>
        let written := process.write streams.errors
          (encode ("cat: " ++ path ++ ": " ++ ofFault fault ++ "\n"))
        ({ written with status := 1 } : Process).concatenate streams rest

def endWith (process : Process) (line : Nat) (streams : Streams) (arguments : List Text) :
    Process × Option Ending :=
  match arguments with
  | [] => (process, some (.code process.status))
  | code :: _ => match natural? code with
    | some number => (process, some (.code (number % 256)))
    | none => (process.write streams.errors
        (encode (process.complaint line ("exit: Illegal number: " ++ code))), some (.code 2))

def withStatus (process : Process) (status : Nat) : Process := { process with status := status }

/-- A command changes the state, and it may end the script. -/
def command (process : Process) (line : Nat) (streams : Streams) (name : Text)
    (arguments : List Text) : Process × Option Ending :=
  let done := process.withStatus 0
  if name = "exit" then process.endWith line streams arguments
  else if name = "echo" then (done.write streams.output (echoed arguments), none)
  else if name = "printf" then
    match arguments with
    | [] => ((process.write streams.errors (encode (process.complaint line
        "printf: usage: printf format [arg ...]"))).withStatus 2, none)
    | format :: rest => (done.write streams.output (printed format rest), none)
  else if name = "cat" then
    if arguments = [] then (done.write streams.output process.input, none)
    else (done.concatenate streams arguments, none)
  else if name = "true" ∨ name = ":" ∨ name = "sleep" then (done, none)
  else if name = "false" then (process.withStatus 1, none)
  else if name = "pwd" then
    (done.write streams.output
      (encode ("/" ++ join "/" process.files.workingDirectory ++ "\n")), none)
  else if name = "kill" ∧ arguments.getLast? = some processNumber then
    if arguments.head? = some "-0" then (done, none) else (process, some .signal)
  else ((process.write streams.errors
    (encode (process.complaint line (name ++ ": not found")))).withStatus 127, none)

/-- A word before the command that is a name and a value with an equals sign between them. -/
def assignment? (word : Word) : Option (Text × Word) :=
  let literal := word.takeWhile fun fragment => match fragment with
    | .literal [_] => true
    | _ => false
  let text : Text := literal.flatMap fun fragment => match fragment with
    | .literal text => text
    | .parameter _ _ => []
  match text.cut? "=" with
  | some (name, value) =>
      if name ≠ [] ∧ name.all isNameCharacter ∧ !name.head?.any Char.isDigit then
        some (name, .literal value :: word.drop literal.length)
      else none
  | none => none

def assign (process : Process) : List (Text × Word) → Process
  | [] => process
  | (name, word) :: rest =>
      ({ process with
        assigned := (name, process.expandWhole word) :: process.assigned } : Process).assign rest

def runStep (process : Process) (step : Step) : Process × Option Ending :=
  match process.redirectAll ⟨.output, .errors⟩ step.redirections with
  | .error message =>
      ((process.write .errors (encode (process.complaint step.line message))).withStatus 2, none)
  | .ok (opened, streams) =>
      let assigned := step.words.takeWhile fun word => (assignment? word).isSome
      let words := (step.words.drop assigned.length).flatMap opened.expandWord
      match words with
      | [] => ((opened.assign (assigned.filterMap assignment?)).withStatus 0, none)
      | name :: arguments =>
          let (after, ending) := opened.command step.line streams name arguments
          ({ after with input := process.input }, ending)

def isDue (process : Process) : Guard → Bool
  | .always => true
  | .ifSucceeded => process.status == 0
  | .ifFailed => process.status != 0

/-- The script ends at its last command unless one ends it before. -/
def run (process : Process) : List Step → Process × Ending
  | [] => (process, .code process.status)
  | step :: rest =>
      if process.isDue step.guard then
        match process.runStep step with
        | (after, some ending) => (after, ending)
        | (after, none) => after.run rest
      else process.run rest

def start (files : FileTree) (arguments : List Text) : Process :=
  ⟨arguments, [], files, [], [], 0, []⟩

/-- A script that is not well-formed only prints a message. -/
def runText (process : Process) (text : Text) : Process × Ending :=
  match steps text with
  | .ok steps => process.run steps
  | .error fault => (process.write .errors (encode (process.complaint 1 fault.message)), .code 2)

end Process

end ManagementShell.Shell
