import ManagementShell.Text

/-
This file defines the log records of a session.
-/

namespace ManagementShell

inductive Level where
  | error
  | warning
  | information
  deriving DecidableEq, Repr

def Level.name : Level → Text
  | .error => "ERROR"
  | .warning => "WARN"
  | .information => "INFO"

structure Record where
  level : Level
  message : Text
  deriving DecidableEq, Repr

def Record.line (record : Record) : Text := record.level.name ++ " " ++ record.message

end ManagementShell
