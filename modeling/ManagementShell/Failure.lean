import ManagementShell.Arithmetic
import ManagementShell.Command.Fault
import ManagementShell.FileTree

/-
This file lists the causes for which a command fails and the message of each.
-/

namespace ManagementShell
open Text

/-- The reasons for which the address of an endpoint cannot be found. -/
inductive ResolutionFault where
  | noCandidate (filter : Text)
  | noResource (position : Nat)
  | badReference (reference : Text)
  | noResponse (className : Text)
  | nestedReference (reference : Text)
  deriving DecidableEq, Repr

def ResolutionFault.message : ResolutionFault → Text
  | .noCandidate filter => "EPR filter failed - '" ++ filter ++ "' not found"
  | .noResource position => "no resource URI for instance " ++ ofNat position
  | .badReference reference => "invalid EPR declaration '" ++ reference ++ "'"
  | .noResponse className => "GetEPR failed for class '" ++ className ++ "'"
  | .nestedReference reference => "nested EPR reference '" ++ reference ++ "'"

/-- The faults of a script or of a command's arguments. -/
inductive ScriptFault where
  | missingMethod
  | missingHost
  | badName (name : Text)
  | missingFile (path : Text) (fault : FileFault)
  | badLineNumber (number : Int)
  | missingLabel (label script : Text)
  | badSleep (text : Text)
  | badFind (look : Text)
  | contextNotFound (look : Text)
  | noScript
  | returnWithoutGosub
  | badLogMode (mode : Text)
  | nothingToPoll
  deriving DecidableEq, Repr

def ScriptFault.message : ScriptFault → Text
  | .missingMethod => "Missing method name"
  | .missingHost => "$IP undefined. --> Set $IP host"
  | .badName name => "Invalid variable name '" ++ name ++ "', expected $Name"
  | .missingFile path fault => "No such file: " ++ path ++ " (" ++ fault.message ++ ")"
  | .badLineNumber number => "Invalid line number " ++ ofInt number
  | .missingLabel label script => "Label '" ++ label ++ "' not found in " ++ script
  | .badSleep text => "Sleep expects whole seconds, got '" ++ text ++ "'"
  | .badFind look => "Find expects Name or Name=Value, got '" ++ look ++ "'"
  | .contextNotFound look => "Context " ++ look ++ " not found"
  | .noScript => "Not in batch mode"
  | .returnWithoutGosub => "Return without Gosub"
  | .badLogMode mode => "Unknown log mode '" ++ mode ++ "', expected w or a"
  | .nothingToPoll => "Until requires a method to poll"

inductive Failure where
  | unknownMethod (method : Text)
  | missingParameter (method parameter : Text)
  | malformedCondition (condition : Text)
  | unreadableReference (path parameter : Text)
  | unresolved (method : Text) (fault : ResolutionFault)
  | protectedVariable (name : Text)
  | readOnly (name : Text)
  | transport (reason : Text)
  | timeout (seconds : Nat)
  | malformedResponse
  | line (fault : LineFault)
  | arithmetic (expression : Text) (fault : Arithmetic.Fault)
  | script (fault : ScriptFault)
  | file (fault : FileFault)
  deriving DecidableEq, Repr

def Failure.message : Failure → Text
  | .unknownMethod method => "Invalid method '" ++ method ++ "'"
  | .missingParameter method parameter =>
      "Required parameter '" ++ parameter ++ "' missing for method '" ++ method ++ "'"
  | .malformedCondition condition =>
      "Malformed condition '" ++ condition ++ "', expected Name=Value or Name!=Value"
  | .unreadableReference path parameter =>
      "File '" ++ path ++ "' does not exist for param '" ++ parameter ++ "'"
  | .unresolved method fault =>
      "Address resolution failed for method '" ++ method ++ "': " ++ fault.message
  | .protectedVariable name => "Unable to unset required variable " ++ name
  | .readOnly name => "Unable to set read-only internal variable " ++ name
  | .transport reason => "Transport error: " ++ reason
  | .timeout seconds => "Until: timed out after " ++ ofNat seconds ++ "s"
  | .malformedResponse => "Malformed response"
  | .line fault => fault.message
  | .arithmetic expression fault =>
      "Error evaluating expression '" ++ expression ++ "': " ++ fault.message
  | .script fault => fault.message
  | .file fault => fault.message

end ManagementShell
