import ManagementShell.Calendar
import ManagementShell.Startup
import Std.Time.DateTime.Timestamp

/-
This file is the command line of the shell.
-/

namespace ManagementShell.Main

def setting? (name : String) : IO (Option Text) :=
  return (← IO.getEnv name).map String.toList

def environment : IO Environment :=
  return {
    login := ← setting? "LOGIN"
    password := ← setting? "PASS"
    timer := ← setting? "TIMER"
    pollInterval := ← setting? "USLEEP"
    pollTimeout := ← setting? "UTIMEOUT"
    verbosity := ← setting? "VERBOSE" }

/-- The directory for configurations, if the environment names it or the home directory. -/
def configurationDirectory : IO (Option Text) := do
  match ← setting? "XDG_CONFIG_HOME" with
  | some directory => return some directory
  | none => return (← setting? "HOME").map (· ++ "/.config".toList)

def location (path : String) : Location := (Text.splitOn path.toList '/').filter (· ≠ [])

/-- The files below the working directory, and the configuration of the user. -/
def fileTree (configurationDirectory : Option Text) : IO FileTree := do
  let directory ← IO.currentDir
  let userPath := configurationDirectory.map Configuration.userPath
  let paths := (← directory.walkDir).toList.map toString ++ (userPath.map String.ofList).toList
  let read := fun path => do
    try
      return some (location path, (← IO.FS.readBinFile path).toList)
    catch _ => return none
  return ⟨location (toString directory), ← paths.filterMapM read⟩

/-- Files that are new or have changed are written back. -/
def store (before after : FileTree) : IO Unit := do
  for (place, contents) in after.files do
    if before.contents? place ≠ some contents then
      let path := String.ofList ('/' :: Text.join "/".toList place)
      IO.FS.writeBinFile path contents.toByteArray

/-- Time goes on by the same step between two looks at the clock. -/
def clock : IO Clock := do
  let start ← Std.Time.Timestamp.now
  let nanoseconds := start.toNanosecondsSinceUnixEpoch.val.toNat
  let moment := fun time => Moment.ofSeconds (time / 1000000000)
  return ⟨fun looks => nanoseconds + looks * 1000000, fun time => (moment time).digits,
    fun time => (moment time).stamp⟩

/-- The input is read as a whole before the session starts. -/
def readInput : IO Text := do
  return (← (← IO.getStdin).readToEnd).toList

def faultText : Options.Fault → String
  | .badValue => "error: invalid value for an option"
  | .repeated => "error: an option is given more than once"
  | .missingValue => "error: an option lacks its value"
  | .unneededValue => "error: an option takes no value"
  | .help => "usage: [OPTIONS] [NAME=VALUE | SCRIPT | COMMAND]..."

def run (options : Options) : IO UInt32 := do
  let directory ← configurationDirectory
  let files ← fileTree directory
  let surroundings : Surroundings :=
    { files
      environment := ← environment
      host := ← setting? "IP"
      configurationDirectory := directory
      input := ← readInput
      clock := ← clock }
  let outcome := Startup.run options surroundings
  IO.print (String.ofList outcome.printed)
  for record in outcome.records.filter (Startup.isLogged options.logLevel) do
    IO.eprintln (String.ofList record.line)
  store files outcome.files
  return if outcome.succeeded then 0 else 1

end ManagementShell.Main

open ManagementShell in
def main (arguments : List String) : IO UInt32 := do
  match Options.read (arguments.map String.toList) with
  | .ok options => Main.run options
  | .error .help =>
      IO.println (Main.faultText .help)
      return 0
  | .error fault =>
      IO.eprintln (Main.faultText fault)
      return 2
