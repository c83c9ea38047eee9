import ManagementShell.Catalog
import ManagementShell.FileTree
import ManagementShell.Record
import ManagementShell.Toml.Document
import ManagementShell.Yaml.Document

/-
This file reads catalogs from files, of which each describes operations of one device.
-/

namespace ManagementShell.Catalog
open Text Data.Setting

inductive Format where
  | toml
  | yaml
  deriving DecidableEq, Repr

/-- The operations that a file describes for its device. -/
structure Description where
  device : Text
  operations : Table Operation
  deriving DecidableEq, Repr

def verbs : List Verb := [.get, .enumerate, .invoke, .put]

def verbNamed? (name : Text) : Option Verb := verbs.find? fun verb => verb.name == name

/-- A verb is a text, or else the only name in a table or a tag, with nothing behind it. -/
def verbOf? (format : Format) (data : Data) : Option Verb :=
  match format, data with
  | .toml, .table [(name, .table [])] => verbNamed? name
  | .toml, .table [(name, .list [])] => verbNamed? name
  | .yaml, .tagged ('!' :: name) value => if value.isNothing then verbNamed? name else none
  | _, _ => data.text?.bind verbNamed?

def number? (value : Int) : Option ParameterValue :=
  if InRange value then some (.number value) else none

/-- Unquoted text that looks like a number is one here. -/
def parameterValueOf? (data : Data) : Option ParameterValue :=
  match data with
  | .integer value => number? value
  | .list items => (items.mapM Data.ownText?).map .list
  | .text value => some (.text value)
  | .plain value => match Plain.meaning value with
    | .integer number => number? number
    | .text => some (.text value)
    | _ => none
  | _ => none

/-- Settings by position must be all there are in a file of the second format. -/
def settings? (format : Format) (names : List Text) (data : Data) :=
  data.settings? (format == .yaml) names

def parameterOf? (format : Format) (data : Data) : Option Parameter :=
  match settings? format ["default", "example"] data with
  | some [fallback, sample] => do
      let fallback ← fallback.optional? parameterValueOf?
      let sample ← sample.optional? parameterValueOf?
      some ⟨fallback, sample⟩
  | _ => none

/-- Of several entries with one name the last is kept. -/
def tableOf? {α : Type} (decode : Data → Option α) (data : Data) : Option (Table α) :=
  match data.entries? with
  | some entries =>
      (entries.mapM fun entry => (decode entry.2).map fun value => (entry.1, value)).map .ofList
  | none => none

def operationOf? (format : Format) (data : Data) : Option Operation :=
  match settings? format ["verb", "target", "action", "selectors", "params"] data with
  | some [verb, target, action, selectors, body] => do
      let verb ← verb.required? (verbOf? format)
      let target ← target.required? Data.text?
      let action ← action.optional? Data.text?
      let selectors ← selectors.withDefault? (tableOf? (parameterOf? format)) []
      let body ← body.withDefault? (tableOf? (parameterOf? format)) []
      some ⟨verb, target, action, selectors, body⟩
  | _ => none

def descriptionOf? (format : Format) (data : Data) : Option Description :=
  match settings? format ["device", "methods"] data with
  | some [device, operations] => do
      let device ← device.required? Data.text?
      let operations ← operations.required? (tableOf? (operationOf? format))
      some ⟨device, operations⟩
  | _ => none

/-- The letters after the last dot in the name at the end of a path; there must be some before. -/
def extension? (path : Text) : Option Text :=
  let name := match path.cutLast? '/' with
    | some parts => parts.2
    | none => path
  match name.cutLast? '.' with
  | some (_ :: _, ending) => if name = ".." then none else some ending
  | _ => none

def Format.ofExtension? (ending : Text) : Option Format :=
  if ending = "toml" then some .toml
  else if ending = "yaml" ∨ ending = "yml" then some .yaml
  else none

def formatOf? (path : Text) : Option Format := (extension? path).bind Format.ofExtension?

def parse? (format : Format) (text : Text) : Option Description :=
  match format with
  | .toml => (Toml.parse? text).bind (descriptionOf? format)
  | .yaml => (Yaml.parse? text).bind (descriptionOf? format)

inductive LoadFault where
  | unreadable (path : Text)
  | invalid (path : Text)
  deriving DecidableEq, Repr

def LoadFault.message : LoadFault → Text
  | .unreadable path => "Failed to read catalog '" ++ path ++ "'"
  | .invalid path => "Invalid catalog '" ++ path ++ "'"

/-- The extension tells the format; without a known one both formats are tried. -/
def load (files : FileTree) (path : Text) : Except LoadFault Description :=
  match files.readText path with
  | .error _ => .error (.unreadable path)
  | .ok text =>
      let read := match formatOf? path with
        | some format => parse? format text
        | none => parse? .toml text <|> parse? .yaml text
      match read with
      | some description => .ok description
      | none => .error (.invalid path)

def addAll (catalog : Catalog) (description : Description) : Catalog :=
  description.operations.foldl
    (fun catalog entry => catalog.add description.device entry.1 entry.2) catalog

/-- The paths of the catalog files in a directory, sorted by their names. -/
def pathsIn (files : FileTree) (directory : Text) : List Text :=
  match files.locate directory with
  | .error _ => []
  | .ok location =>
      let start := if directory.getLast? = some '/' then directory else directory ++ "/"
      let names := sort Text.precedes (files.namesIn location)
      (names.filter fun name => (formatOf? name).isSome).map (start ++ ·)

/-- The catalog from the files of a directory; later files replace operations of earlier ones. -/
def build (files : FileTree) (directory : Text) : Except LoadFault Catalog × List Record :=
  if files.isDirectory directory then
    ((pathsIn files directory).foldlM
      (fun catalog path => (load files path).map catalog.addAll) initial, [])
  else
    (.ok initial,
      [⟨.warning,
        "Catalog directory '" ++ directory ++ "' not found, only meta methods available"⟩])

end ManagementShell.Catalog
