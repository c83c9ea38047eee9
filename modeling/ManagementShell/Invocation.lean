import ManagementShell.Masking
import ManagementShell.Text.Quoting

/-
This file defines the calls of the client program.
-/

namespace ManagementShell
open Text

/-- A call of the client program with the contents of its payload file. -/
structure Invocation where
  program : Text
  arguments : List Text
  payload : Option Text
  secret : Text
  deriving DecidableEq, Repr

namespace Invocation

/-- The command line with the secret hidden. -/
def shown (invocation : Invocation) : Text :=
  Masking.hideSecret invocation.secret (unwords (invocation.program :: invocation.arguments))

/-- The argument that follows the first occurrence of a flag. -/
def after? (invocation : Invocation) (flag : Text) : Option Text :=
  ((invocation.arguments.dropWhile (· != flag)).drop 1).head?

end Invocation

/-- What the client program has printed, and the code that it has ended with. -/
structure Output where
  text : Text
  code : Int
  deriving DecidableEq, Repr

end ManagementShell
