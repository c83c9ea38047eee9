import ManagementShell.Host.Expansion

/-
This file sorts the items of a command line into the plan of a session.
-/

namespace ManagementShell
open Text

/-- The hosts are only listed if there are several; then each has a session of its own. -/
structure Plan where
  hosts : List Text
  presets : List (Text × Text)
  commands : List Text
  scripts : List Text
  quits : Bool
  deriving DecidableEq, Repr

namespace Plan

/-- The name of the preset that lists hosts. -/
def hostName : Text := "IP"

/-- A preset is a plain word and a value with an equals sign between them; other items with an
equals sign are commands. -/
def preset? (item : Text) : Option (Text × Text) :=
  match item.cut? "=" with
  | some (name, value) =>
      if name ≠ [] ∧ value ≠ [] ∧
          name.all fun character => character.isAlphanum || character == '_' then
        some (name, value)
      else none
  | none => none

/-- One host becomes the first preset, several are listed. -/
def addHosts (plan : Plan) (value : Text) (found : Host.Found) : Plan × List Record :=
  match found.hosts with
  | [] => (plan, found.records ++ [⟨.warning,
      "No usable host in IP=" ++ Masking.hideCredentials value⟩])
  | [host] => ({ plan with presets := (hostName, host) :: plan.presets }, found.records)
  | hosts => ({ plan with hosts := hosts }, found.records)

/-- The plan with one more item; nothing if host files include each other without end. -/
def add? (files : FileTree) (plan : Plan) (item : Text) : Option (Plan × List Record) :=
  match preset? item with
  | some (name, value) =>
      if name = hostName then
        (Host.expand? files (splitOn value ',')).map (plan.addHosts value)
      else some ({ plan with presets := plan.presets ++ [(name, value)] }, [])
  | none =>
      if files.isFile item then some ({ plan with scripts := plan.scripts ++ [item] }, [])
      else some ({ plan with commands := plan.commands ++ [item] }, [])

def addAll? (files : FileTree) (plan : Plan) : List Text → Option (Plan × List Record)
  | [] => some (plan, [])
  | item :: rest =>
      match add? files plan item with
      | none => none
      | some (more, records) => (addAll? files more rest).map fun result =>
          (result.1, records ++ result.2)

/-- The assignment of hosts, written as an item. -/
def hostItem (host : Text) : Text := hostName ++ "=" ++ host

def namesHost (item : Text) : Bool := (item.after? (hostItem [])).isSome

/-- The host of the environment is an item too, if no other item names hosts. -/
def withEnvironment (items : List Text) (environmentHost : Option Text) : List Text :=
  match environmentHost with
  | some host => if items.any namesHost then items else items ++ [hostItem host]
  | none => items

def ofItems? (files : FileTree) (items : List Text) (environmentHost : Option Text)
    (quits : Bool) : Option (Plan × List Record) :=
  addAll? files ⟨[], [], [], [], quits⟩ (withEnvironment items environmentHost)

/-- The prompt opens after the commands unless there are scripts. -/
def isInteractive (plan : Plan) : Bool := !plan.quits && plan.scripts.isEmpty

/-- The items of a session of its own for one of the hosts. -/
def childItems (plan : Plan) (host : Text) : List Text :=
  hostItem host :: plan.presets.map (fun preset => preset.1 ++ "=" ++ preset.2) ++
    plan.commands ++ plan.scripts

end Plan

end ManagementShell
