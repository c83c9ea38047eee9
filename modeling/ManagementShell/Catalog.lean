import ManagementShell.Table
import ManagementShell.Text.Numeral
import ManagementShell.Variable

/-
This file defines the catalog of the operations that each device offers.
-/

namespace ManagementShell
open Text

inductive Verb where
  | get
  | enumerate
  | invoke
  | put
  deriving DecidableEq, Repr

def Verb.name : Verb → Text
  | .get => "get"
  | .enumerate => "enumerate"
  | .invoke => "invoke"
  | .put => "put"

inductive ParameterValue where
  | text (value : Text)
  | number (value : Int)
  | list (items : List Text)
  deriving DecidableEq, Repr

def ParameterValue.values : ParameterValue → List Text
  | .text value => [value]
  | .number value => [ofInt value]
  | .list items => items

/-- A parameter without a default must be given. One with an empty default is left out when it is
not given. -/
structure Parameter where
  fallback : Option ParameterValue := none
  sample : Option ParameterValue := none
  deriving DecidableEq, Repr

/-- The target is the template of a resource or the class of an endpoint to be discovered. -/
structure Operation where
  verb : Verb
  target : Text
  action : Option Text := none
  selectors : Table Parameter := []
  body : Table Parameter := []
  deriving DecidableEq, Repr

namespace Operation

/-- The name that the device knows the operation by. -/
def remoteName (operation : Operation) (method : Text) : Text := operation.action.getD method

/-- This marks a reference to an endpoint. -/
def endpointMark : Text := "EPR"

def needsPayload (parameter : Parameter) : Bool :=
  match parameter.sample <|> parameter.fallback with
  | some (.list _) => true
  | some (.text value) => value.includes endpointMark
  | _ => false

/-- The body goes into a payload file when a parameter takes a list or refers to an endpoint. -/
def hasPayload (operation : Operation) : Bool :=
  operation.body.any fun entry => needsPayload entry.2

end Operation

/-- The operations of each device by their names. -/
abbrev Catalog := Table (Table Operation)

namespace Catalog

/-- These methods are answered for every device. -/
def metaMethods : List Text := ["GetEPR", "GetClass", "GetInstance"]

def required (sample : Text) : Parameter := { sample := some (.text sample) }

def preset (value : Text) : Parameter := ⟨some (.text value), some (.text value)⟩

def metaOperation (selectors : List (Text × Parameter)) : Operation where
  verb := .enumerate
  target := "cimv2/"
  selectors := .ofList selectors

def metaOperations : Table Operation :=
  .ofList [
    ("GetEPR", metaOperation
      [("Class", required "CIM_PowerManagementService"), ("__cimnamespace", preset "root/dcim")]),
    ("GetClass", metaOperation [("Class", required "DCIM_SystemView")]),
    ("GetInstance", metaOperation
      [("Class", required "DCIM_SystemView"), ("InstanceID", required "System.Embedded.1"),
        ("__cimnamespace", preset "root/dcim")])]

/-- This is the catalog before any file is read. -/
def initial : Catalog := .ofList (Variable.devices.map fun device => (device, metaOperations))

def operations (catalog : Catalog) (device : Text) : Table Operation :=
  (catalog.get? device).getD []

/-- An operation that the device had under the name before is replaced. -/
def add (catalog : Catalog) (device name : Text) (operation : Operation) : Catalog :=
  Table.insert catalog device ((catalog.operations device).insert name operation)

def operation? (catalog : Catalog) (device method : Text) : Option Operation :=
  (catalog.operations device).get? method

end Catalog

end ManagementShell
