import ManagementShell.Text

/-
This file splits the scripts of client programs into words, separators and redirections.
-/

namespace ManagementShell.Shell
open Text

/-- A piece of a word as written. What is quoted is not split at blanks. -/
inductive Fragment where
  | literal (text : Text)
  | parameter (name : Text) (isQuoted : Bool)
  deriving DecidableEq, Repr

abbrev Word := List Fragment

inductive Separator where
  | next
  | newLine
  | ifSucceeded
  | ifFailed
  deriving DecidableEq, Repr

inductive Direction where
  | write
  | append
  | read
  | duplicate
  deriving DecidableEq, Repr

inductive Token where
  | word (word : Word)
  | separator (kind : Separator)
  /-- The next word names the target of the stream. -/
  | redirection (stream : Nat) (direction : Direction)
  deriving DecidableEq, Repr

def isNameCharacter (character : Char) : Bool := character.isAlphanum || character == '_'

/-- These parameters have a name of one character. -/
def isSpecialParameter (character : Char) : Bool :=
  character.isDigit || character ∈ ("@*#?$!-" : Text)

/-- The parameter after a dollar sign and the rest; without one the dollar sign stands for itself. -/
def parameter (isQuoted : Bool) (text : Text) : Fragment × Text :=
  match text with
  | '\x7b' :: rest =>
      let name := rest.takeWhile (· != '\x7d')
      (.parameter name isQuoted, rest.drop (name.length + 1))
  | character :: rest =>
      if isSpecialParameter character then (.parameter [character] isQuoted, rest)
      else
        let name := text.takeWhile isNameCharacter
        if name = [] then (.literal "$", text)
        else (.parameter name isQuoted, text.drop name.length)
  | [] => (.literal "$", [])

/-- The fragments up to a double quote and the rest after it; the number bounds the steps. -/
def doubleQuoted : Nat → Text → Option (Word × Text)
  | 0, _ | _, [] => none
  | _, '"' :: rest => some ([], rest)
  | steps + 1, '\\' :: character :: rest =>
      let text : Text := if character ∈ ("$`\"\\" : Text) then [character]
        else if character = '\n' then [] else ['\\', character]
      (doubleQuoted steps rest).map fun read => (.literal text :: read.1, read.2)
  | steps + 1, '$' :: rest =>
      let (fragment, after) := parameter true rest
      (doubleQuoted steps after).map fun read => (fragment :: read.1, read.2)
  | steps + 1, character :: rest =>
      (doubleQuoted steps rest).map fun read => (.literal [character] :: read.1, read.2)

def endsWord (character : Char) : Bool := character ∈ (" \t\n;&|<>()" : Text)

/-- The fragments of a word and the rest after it; nothing if a quote is left open. -/
def word : Nat → Text → Option (Word × Text)
  | 0, _ => none
  | _, [] => some ([], [])
  | steps + 1, '\'' :: rest =>
      let inside := rest.takeWhile (· != '\'')
      if inside.length = rest.length then none
      else (word steps (rest.drop (inside.length + 1))).map fun read =>
        (.literal inside :: read.1, read.2)
  | steps + 1, '"' :: rest =>
      match doubleQuoted steps rest with
      | none => none
      | some (quoted, after) => (word steps after).map fun read =>
          (.literal [] :: quoted ++ read.1, read.2)
  | steps + 1, '\\' :: character :: rest =>
      let text : Text := if character = '\n' then [] else [character]
      (word steps rest).map fun read => (.literal text :: read.1, read.2)
  | steps + 1, '$' :: rest =>
      let (fragment, after) := parameter false rest
      (word steps after).map fun read => (fragment :: read.1, read.2)
  | steps + 1, character :: rest =>
      if endsWord character then some ([], character :: rest)
      else (word steps rest).map fun read => (.literal [character] :: read.1, read.2)

/-- A redirection may begin with the number of the stream. -/
def redirection? (text : Text) : Option (Token × Text) :=
  let digits := text.takeWhile Char.isDigit
  let stream := fun initial => if digits = [] then initial
    else digits.foldl (fun value digit => 10 * value + (digit.toNat - '0'.toNat)) 0
  match text.drop digits.length with
  | '>' :: '>' :: rest => some (.redirection (stream 1) .append, rest)
  | '>' :: '&' :: rest => some (.redirection (stream 1) .duplicate, rest)
  | '>' :: rest => some (.redirection (stream 1) .write, rest)
  | '<' :: rest => some (.redirection (stream 0) .read, rest)
  | _ => none

/-- The reasons for which a script is not well-formed. -/
inductive Fault where
  | openQuote
  | unexpected (text : Text)
  | unexpectedEnd
  deriving DecidableEq, Repr

def Fault.message : Fault → Text
  | .openQuote => "Syntax error: Unterminated quoted string"
  | .unexpected text => "Syntax error: \"" ++ text ++ "\" unexpected"
  | .unexpectedEnd => "Syntax error: end of file unexpected"

/-- The number bounds the steps. -/
def tokensFrom : Nat → Text → Except Fault (List Token)
  | 0, _ | _, [] => .ok []
  | steps + 1, ' ' :: rest | steps + 1, '\t' :: rest => tokensFrom steps rest
  | steps + 1, '\\' :: '\n' :: rest => tokensFrom steps rest
  | steps + 1, '#' :: rest => tokensFrom steps (rest.dropWhile (· != '\n'))
  | steps + 1, '\n' :: rest => (tokensFrom steps rest).map (.separator .newLine :: ·)
  | _, ';' :: ';' :: _ => .error (.unexpected ";;")
  | steps + 1, ';' :: rest => (tokensFrom steps rest).map (.separator .next :: ·)
  | steps + 1, '&' :: '&' :: rest => (tokensFrom steps rest).map (.separator .ifSucceeded :: ·)
  | steps + 1, '|' :: '|' :: rest => (tokensFrom steps rest).map (.separator .ifFailed :: ·)
  | steps + 1, first :: rest =>
      match redirection? (first :: rest) with
      | some (token, after) => (tokensFrom steps after).map (token :: ·)
      | none =>
          if endsWord first then .error (.unexpected [first])
          else match word steps (first :: rest) with
            | none => .error .openQuote
            | some (read, after) => (tokensFrom steps after).map (.word read :: ·)

/-- Every step takes a character, so their number bounds the steps. -/
def tokens (text : Text) : Except Fault (List Token) := tokensFrom (text.length + 2) text

end ManagementShell.Shell
