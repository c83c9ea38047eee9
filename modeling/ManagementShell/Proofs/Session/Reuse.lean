import ManagementShell.Proofs.Arithmetic.Evaluation
import ManagementShell.Proofs.Session.Password
import ManagementShell.Proofs.Text.Numeral

/-
This file shows which results of an expression can be used in a later one.
-/

namespace ManagementShell
open Text

namespace Arithmetic

/-- The least integer that is kept. -/
def least : Int := -0x8000000000000000

end Arithmetic

namespace Store
open Variable Definition

variable {store : Store} {name : Text}

end Store

namespace Session
open Variable Store

variable {σ : Type} {setting : Setting σ} {session after : Session σ} {name expression : Text}

end Session

end ManagementShell
