import ManagementShell.Failure
import ManagementShell.Masking
import ManagementShell.Record
import ManagementShell.Table

/-
This file reads the words of a line as the call of a method.
-/

namespace ManagementShell

/-- A method and its arguments; a name that is repeated has all its values. -/
structure Call where
  method : Text
  arguments : Table (List Text)
  deriving DecidableEq, Repr

namespace Call

def ofMethod (method : Text) : Call := ⟨method, []⟩

def add (call : Call) (name value : Text) : Call :=
  { call with arguments :=
      call.arguments.insert name ((call.arguments.get? name).getD [] ++ [value]) }

def first? (call : Call) (name : Text) : Option Text :=
  (call.arguments.get? name).bind List.head?

/-- A word without an equals sign is skipped with a warning that does not show the secret. -/
def addWord (secret : Text) (read : Call × List Record) (word : Text) : Call × List Record :=
  match word.cut? "=" with
  | some (name, value) => (read.1.add name value, read.2)
  | none => (read.1, read.2 ++ [⟨.warning,
      "Skipping '" ++ Masking.hideSecret secret word ++ "' not in name=value format"⟩])

/-- The first word is the method, the others are its arguments. -/
def ofWords (secret : Text) : List Text → Except Failure (Call × List Record)
  | [] => .error (.script .missingMethod)
  | method :: words => .ok (words.foldl (addWord secret) (ofMethod method, []))

end Call

end ManagementShell
