import ManagementShell.Shell.Token

/-
This file groups the tokens of a client script into commands.
-/

namespace ManagementShell.Shell

/-- When a command runs, depending on how the one before it has ended. -/
inductive Guard where
  | always
  | ifSucceeded
  | ifFailed
  deriving DecidableEq, Repr

structure Redirection where
  stream : Nat
  direction : Direction
  target : Word
  deriving DecidableEq, Repr

/-- A command with the number of the line that it is on. -/
structure Step where
  guard : Guard
  line : Nat
  words : List Word
  redirections : List Redirection
  deriving DecidableEq, Repr

namespace Step

def empty (guard : Guard) (line : Nat) : Step := ⟨guard, line, [], []⟩

def isEmpty (step : Step) : Bool := step.words.isEmpty && step.redirections.isEmpty

/-- A finished step comes before the steps of the tokens after it; a separator needs a command. -/
def finish (begun : Step) (separator : Text) (others : Except Fault (List Step)) :
    Except Fault (List Step) :=
  if begun.isEmpty then .error (.unexpected separator) else others.map (begun :: ·)

/-- The steps of the tokens after the beginning of a step. -/
def ofTokensFrom (begun : Step) : List Token → Except Fault (List Step)
  | [] =>
      if begun.isEmpty then (if begun.guard = .always then .ok [] else .error .unexpectedEnd)
      else .ok [begun]
  | .word word :: rest => ofTokensFrom { begun with words := begun.words ++ [word] } rest
  | .redirection stream direction :: .word target :: rest =>
      ofTokensFrom { begun with
        redirections := begun.redirections ++ [⟨stream, direction, target⟩] } rest
  | .redirection _ _ :: _ => .error .unexpectedEnd
  | .separator .newLine :: rest =>
      if begun.isEmpty then ofTokensFrom (empty begun.guard (begun.line + 1)) rest
      else (ofTokensFrom (empty .always (begun.line + 1)) rest).map (begun :: ·)
  | .separator .next :: rest => begun.finish ";" (ofTokensFrom (empty .always begun.line) rest)
  | .separator .ifSucceeded :: rest =>
      begun.finish "&&" (ofTokensFrom (empty .ifSucceeded begun.line) rest)
  | .separator .ifFailed :: rest =>
      begun.finish "||" (ofTokensFrom (empty .ifFailed begun.line) rest)

end Step

/-- The commands of a script. -/
def steps (text : Text) : Except Fault (List Step) :=
  (tokens text).bind (Step.ofTokensFrom (.empty .always 1))

end ManagementShell.Shell
