import ManagementShell.Session.State

/-
This file moves the place of execution inside and between scripts.
-/

namespace ManagementShell.Session
open Text

variable {σ : Type}

/-- Where a jump leads: to a script, at a place in it if one is given, or inside the script. -/
inductive Destination where
  | script (path place : Text)
  | inside (place : Text)
  deriving DecidableEq, Repr

/-- A name before a colon, or one with the ending of scripts, is another script's. -/
def Destination.read (target : Text) : Destination :=
  match target.cut? ":" with
  | some (path, place) => if path = [] then .inside target else .script path place
  | none => if target.endsWith ".win" then .script target [] else .inside target

/-- The frame of another script, with its cursor at the place. -/
def enter (files : FileTree) (path place : Text) (enteredByGosub : Bool) :
    Except Failure Frame :=
  match Frame.load files path enteredByGosub with
  | .error cause => .error cause
  | .ok frame =>
      if place = [] then .ok frame
      else match frame.locate place with
        | .ok cursor => .ok { frame with cursor := cursor }
        | .error cause => .error cause

/-- The cursor moves inside the innermost frame; a gosub also leaves the place to come back to. -/
def moveInside (frame : Frame) (cursor : Nat) (isGosub : Bool) : Frame :=
  { frame with
    cursor := cursor
    returns := if isGosub then frame.cursor :: frame.returns else frame.returns }

/-- A jump to another script replaces the innermost frame, unless it is a gosub: then the other
script runs in a frame of its own. -/
def jump (setting : Setting σ) (runFrame : Frame → Action σ Bool) (target : Text)
    (isGosub : Bool) : Action σ Bool := do
  match (← get).frames with
  | [] => fail (.script .noScript)
  | frame :: below =>
      let expanded ← expand setting target
      match Destination.read expanded with
      | .script path place =>
          let files := (← get).connection.files
          let other ← check (enter files path place (isGosub || frame.enteredByGosub))
          if isGosub then runFrame other
          else
            modify fun session => { session with frames := other :: below }
            emit (.moved (below.length + 1) .replace)
            pure true
      | .inside place =>
          let cursor ← check (frame.locate place)
          modify fun session =>
            { session with frames := moveInside frame cursor isGosub :: below }
          emit (.moved (below.length + 1) (if isGosub then .gosub else .goto))
          pure true

/-- The frame after a return: the cursor goes back to where the last gosub came from. Without one, a
frame that was entered by a gosub ends. -/
def returned? (frame : Frame) : Option Frame :=
  match frame.returns with
  | resume :: rest => some { frame with cursor := resume, returns := rest }
  | [] =>
      if frame.enteredByGosub then some { frame with cursor := frame.lines.length } else none

def leave : Action σ Bool := do
  let session ← get
  match session.frames with
  | [] => fail (.script .noScript)
  | frame :: below => match returned? frame with
    | some after =>
        set { session with frames := after :: below }
        emit (.moved (below.length + 1) .leave)
        pure true
    | none => fail (.script .returnWithoutGosub)

end ManagementShell.Session
