import ManagementShell.Failure
import ManagementShell.Text.Blank

/-
This file defines the frames of running scripts and the places that jumps lead to.
-/

namespace ManagementShell
open Text

/-- The ways in which a script moves its place of execution. -/
inductive Move where
  | goto
  | gosub
  | leave
  /-- Another script takes the frame over. -/
  | replace
  deriving DecidableEq, Repr

/-- A script that is running. The cursor is the index of the next line; each gosub inside the script
has left the cursor that its return goes back to. -/
structure Frame where
  name : Text
  lines : List Text
  cursor : Nat
  returns : List Nat
  enteredByGosub : Bool
  deriving DecidableEq, Repr

namespace Frame

def ofSource (name source : Text) (enteredByGosub : Bool) : Frame :=
  ⟨name, Text.lines source, 0, [], enteredByGosub⟩

def load (files : FileTree) (path : Text) (enteredByGosub : Bool) : Except Failure Frame :=
  match files.readText path with
  | .ok source => .ok (ofSource path source enteredByGosub)
  | .error fault => .error (.script (.missingFile path fault))

/-- A line that begins with a colon is a label. -/
def labelOf? (line : Text) : Option Text :=
  match trim line with
  | ':' :: label => some (trim label)
  | _ => none

/-- The first line with the label counts. -/
def label? (frame : Frame) (label : Text) : Option Nat :=
  frame.lines.findIdx? fun line => labelOf? line == some label

/-- The index of the line with a number or a label. A number past the end is accepted. -/
def locate (frame : Frame) (target : Text) : Except Failure Nat :=
  match Text.integer? (trim target) with
  | some number =>
      if number ≤ 0 then .error (.script (.badLineNumber number)) else .ok (number - 1).toNat
  | none =>
      let label := (trim target).dropWhile (· == ':')
      match frame.label? label with
      | some index => .ok index
      | none => .error (.script (.missingLabel label frame.name))

end Frame

end ManagementShell
