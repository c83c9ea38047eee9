import ManagementShell.Catalog.File
import ManagementShell.CommandLine
import ManagementShell.Configuration.File
import ManagementShell.FanOut
import ManagementShell.Plan.Run
import ManagementShell.Shell.Machine

/-
This file puts a session together from the options of the command line, the environment and files.
-/

namespace ManagementShell
open Text

/-- What a start depends on besides its options. -/
structure Surroundings where
  files : FileTree
  environment : Environment
  host : Option Text
  configurationDirectory : Option Text
  input : Text
  clock : Clock

/-- What a start leaves behind. -/
structure Outcome where
  printed : Text
  records : List Record
  succeeded : Bool
  files : FileTree

namespace Startup

/-- The catalog and the configuration that all sessions of a start share. -/
structure Basis where
  catalog : Catalog
  configuration : Configuration
  clock : Clock

/-- No session takes more steps. -/
def stepLimit : Nat := 1000000000

def failure (files : FileTree) (records : List Record) (message : Text) : Outcome :=
  ⟨[], records ++ [⟨.error, message⟩], false, files⟩

def endlessHosts : Text := "Host files include each other without end"

/-- The session of a plan for at most one host. -/
def runSession (basis : Basis) (plan : Plan) (files : FileTree) (input : Text) : Outcome :=
  let setting : Setting Unit :=
    ⟨basis.catalog, basis.configuration.client, Shell.machine, basis.clock⟩
  let start := Session.start basis.configuration.defaults () files
  let (succeeded, faults, after) := match plan.run setting stepLimit input start with
    | .ok done after => (done, [], after)
    | .error (.failed cause) after => (false, ["Session failed: " ++ cause.message], after)
    | .error .exhausted after => (false, [("Session aborted" : Text)], after)
  let events := after.connection.events
  ⟨events.flatMap Event.printed,
    events.filterMap Event.record? ++ faults.map fun fault => ⟨.error, fault⟩, succeeded,
    after.connection.files⟩

/-- What several sessions have left behind so far. -/
abbrev Progress := FileTree × Text × List Record

/-- Each session prints when it is over, and it must not ask for lines. -/
def executor (basis : Basis) : FanOut.Executor Progress where
  attempt _ task progress :=
    let (files, printed, records) := progress
    let run := match Plan.ofItems? files task.arguments none true with
      | some (plan, found) =>
          let outcome := runSession basis plan files []
          { outcome with records := found ++ outcome.records }
      | none => failure files [] endlessHosts
    let reason := if run.succeeded then none else some ("Session failed on " ++ task.shown)
    (reason, run.files, printed ++ run.printed, records ++ run.records)

/-- The hosts are listed before their sessions. -/
def runHosts (basis : Basis) (options : Options) (plan : Plan) (files : FileTree) : Outcome :=
  let tasks := Task.ofHosts plan.hosts [] plan.childItems
  let pool := FanOut.run (executor basis) options.parallel (UInt32.ofNat options.retries) tasks
    (files, Task.listing tasks, [])
  let reports := pool.events.filterMap fun event => match event with
    | .reported record => some record
    | _ => none
  let (after, printed, records) := pool.world
  ⟨printed, records ++ reports, true, after⟩

def runPlan (basis : Basis) (options : Options) (surroundings : Surroundings) : Outcome :=
  let files := surroundings.files
  match Plan.ofItems? files options.items surroundings.host (options.quits || options.silent) with
  | none => failure files [] endlessHosts
  | some (plan, records) =>
      let outcome := if 1 < plan.hosts.length then runHosts basis options plan files
        else runSession basis plan files surroundings.input
      { outcome with records := records ++ outcome.records }

/-- The configuration comes first, then the catalog, and then the plan of the items. -/
def run (options : Options) (surroundings : Surroundings) : Outcome :=
  let files := surroundings.files
  match Configuration.loadOrDefault files surroundings.configurationDirectory
      options.configuration with
  | (.error fault, records) =>
      failure files records ("Failed to load config: " ++ fault.message)
  | (.ok loaded, records) =>
      let configuration := loaded.override surroundings.environment
      let path := options.catalog.getD configuration.catalogPath
      match Catalog.build files path with
      | (.error fault, more) => failure files (records ++ more)
          ("Failed to load catalog from '" ++ path ++ "': " ++ fault.message)
      | (.ok catalog, more) =>
          let outcome := runPlan ⟨catalog, configuration, surroundings.clock⟩ options surroundings
          { outcome with records := records ++ more ++ outcome.records }

/-- The records that a log level lets through; an unknown level stands for warnings. -/
def isLogged (level : Text) (record : Record) : Bool :=
  let name := toLower level
  if name = "off" then false
  else if name = "error" then record.level == .error
  else if (["info", "debug", "trace"] : List Text).contains name then true
  else record.level != .information

end Startup

end ManagementShell
