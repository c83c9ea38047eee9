import ManagementShell.Data

/-
This file reads the smallest parts of TOML documents: blanks, keys, strings and numbers. Each reader
gives what it has read and the rest of the text.
-/

namespace ManagementShell.Toml
open Text

def isBlank (character : Char) : Bool := character == ' ' || character == '\t'

def skipBlanks (text : Text) : Text := text.dropWhile isBlank

/-- Control characters other than the tab stand in no comment and in no string. -/
def isVisible (character : Char) : Bool :=
  character == '\t' || (32 ≤ character.toNat && character.toNat != 127)

/-- A line feed, which a carriage return may precede. -/
def newLine? : Text → Option Text
  | '\n' :: rest => some rest
  | '\r' :: '\n' :: rest => some rest
  | _ => none

/-- The rest after blanks and a comment. -/
def skipComment (text : Text) : Text :=
  match skipBlanks text with
  | '#' :: rest => rest.dropWhile isVisible
  | rest => rest

/-- The rest after the end of a line; the end of the text is one too. -/
def endOfLine? (text : Text) : Option Text :=
  match skipComment text with
  | [] => some []
  | rest => newLine? rest

/-- The rest after blanks, comments and line ends; the number bounds the lines. -/
def skipLines : Nat → Text → Text
  | 0, text => text
  | lines + 1, text =>
      let rest := skipComment text
      match newLine? rest with
      | some next => skipLines lines next
      | none => rest

def isKeyCharacter (character : Char) : Bool :=
  character.isAlphanum || character == '_' || character == '-'

/-- The character with a number that is written with so many hexadecimal digits. -/
def codePoint? (count : Nat) (text : Text) : Option (Char × Text) :=
  match naturalInBase? 16 (text.take count) with
  | none => none
  | some code =>
      if count ≤ text.length ∧ Nat.isValidChar code then some (Char.ofNat code, text.drop count)
      else none

/-- The character that an escape stands for. -/
def escape? : Text → Option (Char × Text)
  | 'b' :: rest => some ('\x08', rest)
  | 't' :: rest => some ('\t', rest)
  | 'n' :: rest => some ('\n', rest)
  | 'f' :: rest => some ('\x0c', rest)
  | 'r' :: rest => some ('\r', rest)
  | '"' :: rest => some ('"', rest)
  | '\\' :: rest => some ('\\', rest)
  | 'u' :: rest => codePoint? 4 rest
  | 'U' :: rest => codePoint? 8 rest
  | _ => none

/-- The string up to a double quote; the number bounds the characters. -/
def basicString : Nat → Text → Option (Text × Text)
  | 0, _ | _, [] => none
  | _, '"' :: rest => some ([], rest)
  | count + 1, '\\' :: rest => match escape? rest with
    | none => none
    | some (character, after) =>
        (basicString count after).map fun read => (character :: read.1, read.2)
  | count + 1, character :: rest =>
      if isVisible character then
        (basicString count rest).map fun read => (character :: read.1, read.2)
      else none

/-- The string up to a single quote, as it is written. -/
def literalString (text : Text) : Option (Text × Text) :=
  let inside := text.takeWhile (· != '\'')
  match text.drop inside.length with
  | _ :: rest => if inside.all isVisible then some (inside, rest) else none
  | [] => none

/-- A run of quotes that ends a string of several lines; up to two of them belong to the string. -/
def closing? (quote : Char) (text : Text) : Option (Text × Text) :=
  let count := (text.takeWhile (· == quote)).length
  if count < 3 then none
  else
    let kept := min (count - 3) 2
    some (List.replicate kept quote, text.drop (kept + 3))

/-- The rest after blanks and line ends. -/
def skipBlankLines : Text → Text
  | ' ' :: rest | '\t' :: rest | '\n' :: rest | '\r' :: '\n' :: rest => skipBlankLines rest
  | rest => rest

/-- A backslash at the end of a line joins it with the next text that is not blank. -/
def joinedLine? (text : Text) : Option Text := (newLine? (skipBlanks text)).map skipBlankLines

/-- The string of several lines up to three double quotes. -/
def basicLines : Nat → Text → Option (Text × Text)
  | 0, _ | _, [] => none
  | count + 1, '\\' :: rest => match joinedLine? rest with
    | some after => basicLines count after
    | none => match escape? rest with
      | none => none
      | some (character, after) =>
          (basicLines count after).map fun read => (character :: read.1, read.2)
  | count + 1, character :: rest =>
      match closing? '"' (character :: rest), newLine? (character :: rest) with
      | some closed, _ => some closed
      | none, some after => (basicLines count after).map fun read => ('\n' :: read.1, read.2)
      | none, none =>
          if isVisible character then
            (basicLines count rest).map fun read => (character :: read.1, read.2)
          else none

/-- The string of several lines up to three single quotes. -/
def literalLines : Nat → Text → Option (Text × Text)
  | 0, _ | _, [] => none
  | count + 1, character :: rest =>
      match closing? '\'' (character :: rest), newLine? (character :: rest) with
      | some closed, _ => some closed
      | none, some after => (literalLines count after).map fun read => ('\n' :: read.1, read.2)
      | none, none =>
          if isVisible character then
            (literalLines count rest).map fun read => (character :: read.1, read.2)
          else none

/-- A line end right after the opening quotes is dropped. -/
def afterOpening (text : Text) : Text := (newLine? text).getD text

def string? (text : Text) : Option (Text × Text) :=
  match text with
  | '"' :: '"' :: '"' :: rest => basicLines (rest.length + 1) (afterOpening rest)
  | '"' :: rest => basicString (rest.length + 1) rest
  | '\'' :: '\'' :: '\'' :: rest => literalLines (rest.length + 1) (afterOpening rest)
  | '\'' :: rest => literalString rest
  | _ => none

/-- A key without dots; its quotes do not span lines. -/
def simpleKey? (text : Text) : Option (Text × Text) :=
  match text with
  | '"' :: rest => basicString (rest.length + 1) rest
  | '\'' :: rest => literalString rest
  | _ =>
      let name := text.takeWhile isKeyCharacter
      if name = [] then none else some (name, text.drop name.length)

/-- The parts of a key between dots; the number bounds the parts. -/
def keyFrom : Nat → Text → Option (List Text × Text)
  | 0, _ => none
  | parts + 1, text => match simpleKey? (skipBlanks text) with
    | none => none
    | some (part, rest) => match skipBlanks rest with
      | '.' :: after => (keyFrom parts after).map fun read => (part :: read.1, read.2)
      | after => some ([part], after)

/-- The blanks after a key are skipped. -/
def key? (text : Text) : Option (List Text × Text) := keyFrom (text.length + 1) text

/-- Digits that may have single underscores between them, without the underscores. -/
def digits (isDigit : Char → Bool) : Text → Text × Text
  | first :: '_' :: second :: rest =>
      if isDigit first then
        if isDigit second then
          let read := digits isDigit (second :: rest)
          (first :: read.1, read.2)
        else ([first], '_' :: second :: rest)
      else ([], first :: '_' :: second :: rest)
  | first :: rest =>
      if isDigit first then
        let read := digits isDigit rest
        (first :: read.1, read.2)
      else ([], first :: rest)
  | [] => ([], [])

def isInBase (base : Nat) (digit : Char) : Bool := (hexDigit? digit).any (· < base)

def inRange? (value : Int) (rest : Text) : Option (Data × Text) :=
  if InRange value then some (.integer value, rest) else none

/-- An integer in another base than ten has no sign. -/
def integerInBase? (base : Nat) (text : Text) : Option (Data × Text) :=
  let (read, rest) := digits (isInBase base) text
  match naturalInBase? base read with
  | some value => inRange? value rest
  | none => none

/-- The rest after the exponent of a number. -/
def exponent? (text : Text) : Option Text :=
  match text with
  | mark :: rest =>
      if mark = 'e' ∨ mark = 'E' then
        let unsigned := match rest with
          | '+' :: after | '-' :: after => after
          | _ => rest
        match digits Char.isDigit unsigned with
        | ([], _) => none
        | (_, after) => some after
      else none
  | [] => none

/-- The rest after the fraction of a number, which an exponent may follow. -/
def fraction? (text : Text) : Option Text :=
  match text with
  | '.' :: rest => match digits Char.isDigit rest with
    | ([], _) => none
    | (_, after) => some ((exponent? after).getD after)
  | _ => none

/-- A number in base ten has no leading zeros; one with a fraction or an exponent is no integer. -/
def decimal? (isNegative : Bool) (text : Text) : Option (Data × Text) :=
  let (read, rest) := match text with
    | '0' :: after => (("0" : Text), after)
    | _ => digits Char.isDigit text
  if read = [] then none
  else match fraction? rest, exponent? rest with
    | some after, _ | none, some after => some (.other, after)
    | none, none =>
        let value : Int := digitsValue read
        inRange? (if isNegative then -value else value) rest

def number? (text : Text) : Option (Data × Text) :=
  let special := fun (isNegative : Bool) (rest : Text) =>
    match after? rest "inf", after? rest "nan" with
    | some after, _ | none, some after => some (Data.other, after)
    | none, none => decimal? isNegative rest
  match text with
  | '+' :: rest => special false rest
  | '-' :: rest => special true rest
  | '0' :: 'x' :: rest => integerInBase? 16 rest
  | '0' :: 'o' :: rest => integerInBase? 8 rest
  | '0' :: 'b' :: rest => integerInBase? 2 rest
  | _ => special false text

/-- A number of exactly so many digits and the rest. -/
def fixed? (count : Nat) (text : Text) : Option (Nat × Text) :=
  let read := text.take count
  if read.length = count ∧ read.all Char.isDigit then some (digitsValue read, text.drop count)
  else none

def daysIn (year month : Nat) : Nat :=
  if month = 2 then
    if year % 4 = 0 ∧ (year % 100 ≠ 0 ∨ year % 400 = 0) then 29 else 28
  else if month ∈ [4, 6, 9, 11] then 30 else 31

/-- The rest after a time of the day. -/
def time? (text : Text) : Option Text := do
  let (hour, rest) ← fixed? 2 text
  let rest ← after? rest ":"
  let (minute, rest) ← fixed? 2 rest
  let rest ← after? rest ":"
  let (second, rest) ← fixed? 2 rest
  if hour ≤ 23 ∧ minute ≤ 59 ∧ second ≤ 60 then
    match rest with
    | '.' :: after =>
        let fraction := after.takeWhile Char.isDigit
        if fraction = [] then some rest else some (after.drop fraction.length)
    | _ => some rest
  else none

/-- The rest after the distance from universal time, if there is one. -/
def offset (text : Text) : Text :=
  match text with
  | 'Z' :: rest | 'z' :: rest => rest
  | sign :: rest =>
      if sign = '+' ∨ sign = '-' then
        match (do
          let (hour, rest) ← fixed? 2 rest
          let rest ← after? rest ":"
          let (minute, rest) ← fixed? 2 rest
          if hour ≤ 23 ∧ minute ≤ 59 then some rest else none : Option Text) with
        | some after => after
        | none => text
      else text
  | [] => []

/-- The rest after a date, which a time may follow. -/
def date? (text : Text) : Option Text := do
  let (year, rest) ← fixed? 4 text
  let rest ← after? rest "-"
  let (month, rest) ← fixed? 2 rest
  let rest ← after? rest "-"
  let (day, rest) ← fixed? 2 rest
  if 1 ≤ month ∧ month ≤ 12 ∧ 1 ≤ day ∧ day ≤ daysIn year month then
    match rest with
    | separator :: after =>
        if separator ∈ ("Tt " : Text) then
          match time? after with
          | some later => some (offset later)
          | none => some rest
        else some rest
    | [] => some []
  else none

/-- Dates and times are told from numbers by their first separators. -/
def scalar? (text : Text) : Option (Data × Text) :=
  let leading := text.takeWhile Char.isDigit
  match leading.length, text.drop leading.length with
  | 4, '-' :: _ => (date? text).map fun rest => (.other, rest)
  | 2, ':' :: _ => (time? text).map fun rest => (.other, rest)
  | _, _ => match after? text "true", after? text "false" with
    | some rest, _ => some (.boolean true, rest)
    | none, some rest => some (.boolean false, rest)
    | none, none => number? text

end ManagementShell.Toml
