import ManagementShell.Configuration
import ManagementShell.FileTree
import ManagementShell.Record
import ManagementShell.Toml.Document

/-
This file reads configurations from files.
-/

namespace ManagementShell.Configuration
open Text Data.Setting

/-- The greatest number of a port. -/
def largestPort : Nat := 0xffff

def defaults? (data : Data) : Option Defaults :=
  let initial : Defaults := {}
  match data.settings? false ["login", "password", "port", "device", "usleep", "utimeout",
    "verbose", "format", "timer"] with
  | some [login, password, port, device, interval, timeout, verbosity, format, timer] => do
      let login ← login.withDefault? Data.text? initial.login
      let password ← password.withDefault? Data.text? initial.password
      let port ← port.withDefault? (Data.natural? largestPort) initial.port
      let device ← device.withDefault? Data.text? initial.device
      let interval ← interval.withDefault? (Data.natural? largestNatural) initial.pollInterval
      let timeout ← timeout.withDefault? (Data.natural? largestNatural) initial.pollTimeout
      let verbosity ← verbosity.withDefault? Data.integer? initial.verbosity
      let format ← format.withDefault? Data.text? initial.format
      let timer ← timer.withDefault? Data.boolean? initial.timer
      some ⟨login, password, port, device, interval, timeout, verbosity, format, timer⟩
  | _ => none

def client? (data : Data) : Option ClientSettings :=
  let initial : ClientSettings := {}
  match data.settings? false ["program", "flags"] with
  | some [program, flags] => do
      let program ← program.withDefault? Data.text? initial.program
      let flags ← flags.withDefault? Data.texts? initial.flags
      some ⟨program, flags⟩
  | _ => none

def catalogPath? (data : Data) : Option Text :=
  match data.settings? false ["path"] with
  | some [path] => path.withDefault? Data.text? ({} : Configuration).catalogPath
  | _ => none

/-- What a file leaves out has its default. -/
def ofData? (data : Data) : Option Configuration :=
  let initial : Configuration := {}
  match data.settings? false ["defaults", "transport", "catalog"] with
  | some [defaults, client, path] => do
      let defaults ← defaults.withDefault? defaults? initial.defaults
      let client ← client.withDefault? client? initial.client
      let path ← path.withDefault? catalogPath? initial.catalogPath
      some ⟨defaults, client, path⟩
  | _ => none

inductive LoadFault where
  | unreadable (path : Text)
  | invalid
  deriving DecidableEq, Repr

/-- Faults inside a file are not described further. -/
def LoadFault.message : LoadFault → Text
  | .unreadable path => "Failed to read config '" ++ path ++ "'"
  | .invalid => "Invalid config"

def load (files : FileTree) (path : Text) : Except LoadFault Configuration :=
  match files.readText path with
  | .error _ => .error (.unreadable path)
  | .ok text => match (Toml.parse? text).bind ofData? with
    | some configuration => .ok configuration
    | none => .error .invalid

/-- The file of the user below the directory for configurations. -/
def userPath (directory : Text) : Text := directory ++ "/recite/recite.toml"

/-- A file that does not exist is replaced by the file of the user, or by the defaults. -/
def loadOrDefault (files : FileTree) (directory : Option Text) (path : Text) :
    Except LoadFault Configuration × List Record :=
  if files.has path then (load files path, [])
  else match directory with
    | none => (.ok {}, [])
    | some directory =>
        let path := userPath directory
        if files.has path then
          (load files path, [⟨.information, "Using config " ++ path⟩])
        else (.ok {}, [])

end ManagementShell.Configuration
