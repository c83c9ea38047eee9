import ManagementShell.Text.Blank

/-
This file hides passwords in texts that are shown, and shortens messages.
-/

namespace ManagementShell.Masking
open Text

/-- This stands where a password is not shown. -/
def mask : Text := "******"

/-- Every occurrence of the secret is hidden; an empty secret hides nothing. -/
def hideSecret (secret text : Text) : Text :=
  if secret = [] then text else text.replaceAll secret mask

def isUserCharacter (character : Char) : Bool :=
  !(isBlank character || character == ',' || character == ':' || character == '@')

def isPasswordCharacter (character : Char) : Bool := !(isBlank character || character == ',')

/-- The user at the beginning of the text and the length of the credentials that it begins, which
reach to the last at-sign before a blank or a comma. -/
def credentials? (text : Text) : Option (Text × Nat) :=
  let user := text.takeWhile isUserCharacter
  if user = [] then none else
  match text.dropWhile isUserCharacter with
  | ':' :: rest =>
      match cutLast? (rest.takeWhile isPasswordCharacter) '@' with
      | some (password, _) => some (user, user.length + password.length + 2)
      | none => none
  | _ => none

/-- The number `skip` counts the characters of credentials that were already hidden. -/
def hideCredentialsFrom : Nat → Text → Text
  | _, [] => []
  | skip + 1, _ :: rest => hideCredentialsFrom skip rest
  | 0, character :: rest =>
      match credentials? (character :: rest) with
      | some (user, length) => user ++ ":" ++ mask ++ "@" ++ hideCredentialsFrom (length - 1) rest
      | none => character :: hideCredentialsFrom 0 rest

/-- The password in every `user:password@` is hidden. -/
def hideCredentials (text : Text) : Text := hideCredentialsFrom 0 text

end ManagementShell.Masking
