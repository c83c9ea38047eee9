import ManagementShell.Text

/-
This file defines the commands of a session. Their arguments are kept as typed; variables are
substituted when the command runs.
-/

namespace ManagementShell

inductive Command where
  /-- A blank line, a comment or a label. -/
  | nothing
  | batch (path : Text)
  | clear
  /-- The inner command sees only the surroundings of the first match. -/
  | context (look : Text) (inner : Command)
  | count (name : Text)
  | find (look : Text) (name : Option Text) (position : Option Text)
  | findAll (field name : Text)
  | gosub (target : Text)
  | goto (target : Text)
  | conditional (condition : Text) (inner : Command)
  | log (path mode : Option Text)
  | print (text : Text)
  | quit
  | report (fields : Text) (filter : Option Text)
  | leave
  | listVariables
  | assign (name value : Text)
  | evaluate (name expression : Text)
  | sleep (seconds : Text)
  | unset (name : Text)
  | poll (condition : Text) (words : List Text)
  /-- A remote call; the operators run on its response. -/
  | invoke (words : List Text) (condition : Option Text) (operators : List Command)
  deriving Repr

/-- A command with the mark that keeps its failure from ending the script. -/
structure Line where
  ignoresFailure : Bool
  command : Command
  deriving Repr

namespace Command

/-- The name that failures are reported under. -/
def name : Command → Text
  | .nothing => "Noop"
  | .batch _ => "Batch"
  | .clear => "Clear"
  | .context _ _ => "Context"
  | .count _ => "Count"
  | .find _ _ _ => "Find"
  | .findAll _ _ => "Findall"
  | .gosub _ => "Gosub"
  | .goto _ => "Goto"
  | .conditional _ _ => "If"
  | .log _ _ => "Log"
  | .print _ => "Print"
  | .quit => "Quit"
  | .report _ _ => "Report"
  | .leave => "Return"
  | .listVariables | .assign _ _ | .evaluate _ _ => "Set"
  | .sleep _ => "Sleep"
  | .unset _ => "Unset"
  | .poll _ _ => "Until"
  | .invoke words _ _ => words.head?.getD "Invoke"

def isNothing : Command → Bool
  | .nothing => true
  | _ => false

end Command

end ManagementShell
