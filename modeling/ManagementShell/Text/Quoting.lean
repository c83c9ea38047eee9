import ManagementShell.Text

/-
This file splits a line into words and quotes words so that they can be joined to a line.
-/

namespace ManagementShell.Text

/-- The position of the reader of a line with respect to words and quotes. -/
inductive Reading where
  | between
  | comment
  | plain
  | single
  | double
  | escapeBetween
  | escapePlain
  | escapeDouble
  deriving DecidableEq, Repr

/-- The words that end with the text, or nothing when a quote is still open. -/
def wordsAtEnd (word : Text) : Reading → Option (List Text)
  | .between | .comment => some []
  | .plain => some [word]
  | .escapeBetween | .escapePlain => some [word ++ ['\\']]
  | .single | .double | .escapeDouble => none

def isSeparator (character : Char) : Bool :=
  character == ' ' || character == '\t' || character == '\n'

/-- The next position and the word so far; the flag says that a word ends before the character. -/
def readCharacter (word : Text) (character : Char) : Reading → Bool × Reading × Text
  | .between =>
      if isSeparator character then (false, .between, [])
      else if character = '\'' then (false, .single, [])
      else if character = '"' then (false, .double, [])
      else if character = '\\' then (false, .escapeBetween, [])
      else if character = '#' then (false, .comment, [])
      else (false, .plain, [character])
  | .comment => (false, if character = '\n' then .between else .comment, [])
  | .plain =>
      if isSeparator character then (true, .between, [])
      else if character = '\'' then (false, .single, word)
      else if character = '"' then (false, .double, word)
      else if character = '\\' then (false, .escapePlain, word)
      else (false, .plain, word ++ [character])
  | .single =>
      if character = '\'' then (false, .plain, word) else (false, .single, word ++ [character])
  | .double =>
      if character = '"' then (false, .plain, word)
      else if character = '\\' then (false, .escapeDouble, word)
      else (false, .double, word ++ [character])
  | .escapeBetween =>
      if character = '\n' then (false, .between, []) else (false, .plain, word ++ [character])
  | .escapePlain =>
      if character = '\n' then (false, .plain, word) else (false, .plain, word ++ [character])
  | .escapeDouble =>
      if character = '\n' then (false, .double, word)
      else if character ∈ ("$`\"\\" : Text) then
        (false, .double, word ++ [character])
      else (false, .double, word ++ ['\\', character])

def wordsFrom (reading : Reading) (word : Text) : Text → Option (List Text)
  | [] => wordsAtEnd word reading
  | character :: rest =>
      match readCharacter word character reading with
      | (true, next, begun) => (wordsFrom next begun rest).map (word :: ·)
      | (false, next, begun) => wordsFrom next begun rest

/-- Words are separated by spaces, tabs and line feeds; a number sign before a word begins a
comment; there are none when a quote is left open. -/
def words? (text : Text) : Option (List Text) := wordsFrom .between [] text

def isSpecial (character : Char) : Bool :=
  character ∈ ("|&;<>()$`\\\"' \t\n*?[#~=%" : Text)

/-- Each single quote is written outside the quotes. -/
def quoted (word : Text) : Text :=
  "'" ++ word.replaceAll "'" "'\\''" ++ "'"

def quote (word : Text) : Text :=
  if word = [] ∨ word.any isSpecial then quoted word else word

/-- A line that splits into the given words. -/
def unwords (parts : List Text) : Text := join " " (parts.map quote)

end ManagementShell.Text
