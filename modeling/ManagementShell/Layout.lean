import ManagementShell.Text.Numeral

/-
This file holds the small pieces that console output is laid out with.
-/

namespace ManagementShell.Layout
open Text

/-- A message of more than the given number of lines ends with a count of those left out. -/
def shorten (message : Text) (limit : Nat) : Text :=
  let all := message.lines
  if all.length ≤ limit then message
  else join "\n" (all.take limit) ++ "\n... (truncated " ++ ofNat (all.length - limit) ++
    " more lines)"

/-- This line separates sections. -/
def rule : Text := List.replicate 40 '─'

end ManagementShell.Layout
