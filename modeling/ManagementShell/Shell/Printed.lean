import ManagementShell.Text.Numeral
import ManagementShell.Text.Utf8

/-
This file writes what the printing commands of client scripts print.
-/

namespace ManagementShell.Shell
open Text

def isOctal (character : Char) : Bool := '0' ≤ character && character ≤ '7'

/-- The byte of at most the given number of octal digits, and the number of digits. -/
def octal (most : Nat) (text : Text) : Nat × Nat :=
  let digits := (text.take most).takeWhile isOctal
  (digits.foldl (fun value digit => 8 * value + digitValue digit) 0, digits.length)

/-- A letter after a backslash stands for a control character. -/
def control? : Char → Option UInt8
  | 'a' => some 7
  | 'b' => some 8
  | 'f' => some 12
  | 'n' => some 10
  | 'r' => some 13
  | 't' => some 9
  | 'v' => some 11
  | '\\' => some 92
  | _ => none

/-- What a backslash with the text after it stands for, the number of characters that it takes, and
whether printing goes on. An argument may have a zero before its octal digits. -/
def escape (inArgument : Bool) (text : Text) : Bytes × Nat × Bool :=
  match text with
  | [] => ([92], 0, true)
  | character :: rest =>
      match control? character with
      | some code => ([code], 1, true)
      | none =>
          if inArgument && character == 'c' then ([], 1, false)
          else if inArgument && character == '0' then
            let (value, length) := octal 3 rest
            ([byte value], length + 1, true)
          else if isOctal character then
            let (value, length) := octal 3 text
            ([byte value], length, true)
          else (92 :: encodeCharacter character, 1, true)

/-- The bytes of an argument with its escapes replaced, and whether printing goes on; `skip` counts
the characters of an escape that was already replaced. -/
def escaped : Nat → Text → Bytes × Bool
  | _, [] => ([], true)
  | skip + 1, _ :: rest => escaped skip rest
  | 0, '\\' :: rest =>
      let (bytes, length, goesOn) := escape true rest
      if goesOn then
        let after := escaped length rest
        (bytes ++ after.1, after.2)
      else (bytes, false)
  | 0, character :: rest =>
      let after := escaped 0 rest
      (encodeCharacter character ++ after.1, after.2)

/-- The arguments of `echo` with blanks between them and a line feed at the end. -/
def echoed (arguments : List Text) : Bytes :=
  match arguments with
  | ['-', 'n'] :: rest => (escaped 0 (join " " rest)).1
  | _ =>
      let (bytes, goesOn) := escaped 0 (join " " arguments)
      if goesOn then bytes ++ [10] else bytes

/-- What a directive of a format prints for an argument. -/
def directive (kind : Char) (argument : Text) : Bytes :=
  match kind with
  | 'b' => (escaped 0 argument).1
  | 'd' | 'i' => encode (ofInt ((integer? argument).getD 0))
  | 'c' => encode (argument.take 1)
  | _ => encode argument

/-- One pass over a format: the bytes and the arguments that are left. -/
def formatted : Nat → Text → List Text → Bytes × List Text
  | _, [], arguments => ([], arguments)
  | skip + 1, _ :: rest, arguments => formatted skip rest arguments
  | 0, '\\' :: rest, arguments =>
      let (bytes, length, _) := escape false rest
      let after := formatted length rest arguments
      (bytes ++ after.1, after.2)
  | 0, '%' :: '%' :: rest, arguments =>
      let after := formatted 1 ('%' :: rest) arguments
      (37 :: after.1, after.2)
  | 0, '%' :: kind :: rest, arguments =>
      let after := formatted 1 (kind :: rest) arguments.tail
      (directive kind (arguments.headD []) ++ after.1, after.2)
  | 0, character :: rest, arguments =>
      let after := formatted 0 rest arguments
      (encodeCharacter character ++ after.1, after.2)

/-- The format is used again while it takes arguments and some are left. -/
def printedFrom (format : Text) : Nat → List Text → Bytes
  | 0, arguments => (formatted 0 format arguments).1
  | passes + 1, arguments =>
      let (bytes, left) := formatted 0 format arguments
      if left = [] ∨ left.length = arguments.length then bytes
      else bytes ++ printedFrom format passes left

/-- Every pass takes an argument, so their number bounds the passes. -/
def printed (format : Text) (arguments : List Text) : Bytes :=
  printedFrom format arguments.length arguments

end ManagementShell.Shell
