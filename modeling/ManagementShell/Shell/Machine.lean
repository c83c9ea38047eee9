import ManagementShell.Connection
import ManagementShell.Shell.Run

/-
This file runs the programs that a session can call on its own machine.
-/

namespace ManagementShell.Shell
open Text

inductive LaunchFault where
  | notFound
  | notExecutable
  | nulByte
  deriving DecidableEq, Repr

def LaunchFault.message : LaunchFault → Text
  | .notFound => FileFault.message .notFound
  | .notExecutable => FileFault.message .permissionDenied
  | .nulByte => "nul byte found in provided data"

/-- A program's streams and the files that it leaves. -/
structure Run where
  files : FileTree
  output : Bytes
  errors : Bytes
  ending : Ending

def Run.ofProcess (result : Process × Ending) : Run :=
  ⟨result.1.files, result.1.output, result.1.errors, result.2⟩

/-- What a program has printed, the errors after the rest; a signal has the code minus one. -/
def Run.result (run : Run) : Output where
  text := decodeLossy run.output ++ decodeLossy run.errors
  code := match run.ending with
    | .code code => code
    | .signal => -1

/-- A script is given as an argument or as a file, with its own arguments after it. -/
def runShell (files : FileTree) (name : Text) (arguments : List Text) : Run :=
  match arguments with
  | ['-', 'c'] :: script :: rest =>
      let named := if rest = [] then [name] else rest
      .ofProcess ((Process.start files named).runText script)
  | path :: rest => match files.readText path with
    | .ok script => .ofProcess ((Process.start files (path :: rest)).runText script)
    | .error _ => ⟨files, [], encode (name ++ ": 0: cannot open " ++ path ++ ": No such file\n"),
        .code 2⟩
  | [] => ⟨files, [], [], .code 0⟩

/-- The commands that are programs of their own too. -/
def commandPrograms : List Text := ["echo", "printf", "cat", "true", "false", "pwd", "sleep"]

/-- The programs of the system that are known by their names. -/
def system? (files : FileTree) (name base : Text) (arguments : List Text) : Option Run :=
  if base = "sh" ∨ base = "dash" then some (runShell files name arguments)
  else if commandPrograms.contains base then
    let process := Process.start files [name]
    let (after, ending) := process.command 1 ⟨.output, .errors⟩ base arguments
    some (.ofProcess (after, ending.getD (.code after.status)))
  else none

/-- A name without a slash is looked for among the programs of the system, as are paths into its
directories; other paths lead to files, which are not executable. -/
def launch (files : FileTree) (program : Text) (arguments : List Text) :
    Except LaunchFault Run :=
  if '\x00' ∈ program ∨ arguments.any (List.contains · '\x00') then .error .nulByte
  else
    let base? := match cutLast? program '/' with
      | none => some program
      | some (directory, base) =>
          if directory = "/bin" ∨ directory = "/usr/bin" then some base else none
    match base?.bind fun base => system? files program base arguments with
    | some run => .ok run
    | none =>
        if '/' ∈ program ∧ files.has program then .error .notExecutable else .error .notFound

/-- The payload of a call is in its file while the program runs. -/
def withPayload (files : FileTree) (payload : Option Text) : FileTree :=
  match payload with
  | some text => files.store Request.payloadLocation (encode text)
  | none => files

def failedToRun (program : Text) (fault : LaunchFault) : Text :=
  "Failed to run '" ++ program ++ "': " ++ fault.message

/-- This peer answers an invocation by running its program. -/
def machine : Peer Unit where
  answer invocation files _ :=
    let prepared := withPayload files invocation.payload
    match launch prepared invocation.program invocation.arguments with
    | .ok run => (.ok run.result, run.files.remove Request.payloadLocation, ())
    | .error fault => (.error (failedToRun invocation.program fault), files, ())

end ManagementShell.Shell
