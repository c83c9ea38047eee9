import ManagementShell.Text

/-
This file turns texts into bytes and bytes into texts.
-/

namespace ManagementShell.Text

abbrev Bytes := List UInt8

def byte (value : Nat) : UInt8 := UInt8.ofNat value

def encodeCharacter (character : Char) : Bytes :=
  let code := character.toNat
  if code < 0x80 then [byte code]
  else if code < 0x800 then [byte (0xC0 + code / 64), byte (0x80 + code % 64)]
  else if code < 0x10000 then
    [byte (0xE0 + code / 4096), byte (0x80 + code / 64 % 64), byte (0x80 + code % 64)]
  else [byte (0xF0 + code / 262144), byte (0x80 + code / 4096 % 64),
    byte (0x80 + code / 64 % 64), byte (0x80 + code % 64)]

def encode (text : Text) : Bytes := text.flatMap encodeCharacter

def byteLength (text : Text) : Nat := (encode text).length

/-- The range of a second byte depends on the first, so that each character has one encoding. -/
def secondBytes (first : Nat) : Nat × Nat :=
  if first = 0xE0 then (0xA0, 0xBF)
  else if first = 0xED then (0x80, 0x9F)
  else if first = 0xF0 then (0x90, 0xBF)
  else if first = 0xF4 then (0x80, 0x8F)
  else (0x80, 0xBF)

/-- The number of bytes that follow a first byte. -/
def followers (first : Nat) : Option Nat :=
  if first < 0x80 then some 0
  else if 0xC2 ≤ first ∧ first ≤ 0xDF then some 1
  else if 0xE0 ≤ first ∧ first ≤ 0xEF then some 2
  else if 0xF0 ≤ first ∧ first ≤ 0xF4 then some 3
  else none

/-- Continuation bytes are taken as long as they are allowed. -/
def continuation (allowed : Nat × Nat) : Nat → Bytes → List Nat
  | 0, _ => []
  | _, [] => []
  | count + 1, next :: rest =>
      if allowed.1 ≤ next.toNat ∧ next.toNat ≤ allowed.2 then
        next.toNat % 64 :: continuation (0x80, 0xBF) count rest
      else []

def leadingBits (first count : Nat) : Nat :=
  match count with
  | 0 => first
  | 1 => first % 32
  | 2 => first % 16
  | _ => first % 8

/-- The first character, if its encoding is complete, and the number of bytes that it or its
beginning takes up. -/
def firstCharacter (first : UInt8) (rest : Bytes) : Option Char × Nat :=
  match followers first.toNat with
  | none => (none, 1)
  | some count =>
      let taken := continuation (secondBytes first.toNat) count rest
      if taken.length = count then
        let code := taken.foldl (fun value bits => 64 * value + bits)
          (leadingBits first.toNat count)
        (some (Char.ofNat code), count + 1)
      else (none, taken.length + 1)

/-- The number `skip` counts the bytes of a character that was already read. -/
def decodeFrom : Nat → Bytes → List (Option Char)
  | _, [] => []
  | skip + 1, _ :: rest => decodeFrom skip rest
  | 0, first :: rest =>
      let read := firstCharacter first rest
      read.1 :: decodeFrom (read.2 - 1) rest

/-- Bytes that are no text are shown as replacement characters, one for each broken beginning. -/
def decodeLossy (bytes : Bytes) : Text :=
  (decodeFrom 0 bytes).map fun read => read.getD '\uFFFD'

def decode? (bytes : Bytes) : Option Text := (decodeFrom 0 bytes).mapM id

/-- The text after its first bytes, if these are whole characters. -/
def dropBytes? : Nat → Text → Option Text
  | 0, text => some text
  | _ + 1, [] => none
  | count + 1, character :: rest =>
      let width := (encodeCharacter character).length
      if width ≤ count + 1 then dropBytes? (count + 1 - width) rest else none

end ManagementShell.Text
