import ManagementShell.Variable.Store

/-
This file substitutes variables in texts.
-/

namespace ManagementShell.Store
open Text Variable

/-- An escaped dollar sign is kept in this form while variables are substituted. -/
def escapedDollar : Text := "\x00DOLLAR\x00"

/-- Longer names come first, so that no name is taken for the beginning of a longer one. -/
def replacedBefore (first second : Text × Value) : Bool :=
  second.1.length < first.1.length ||
    (first.1.length == second.1.length && second.1.precedes first.1)

def replacements (store : Store) : List (Text × Value) := sort replacedBefore store.values

/-- The flag says that the text follows a dollar sign and word characters. -/
def dropNamesFrom : Bool → Text → Text
  | _, [] => []
  | inName, character :: rest =>
      if inName && isWord character then dropNamesFrom true rest
      else if character == '$' && rest.head?.any isWord then dropNamesFrom true rest
      else character :: dropNamesFrom false rest

/-- Names that are not defined vanish. -/
def dropNames (text : Text) : Text := dropNamesFrom false text

/-- The value of a variable; the password is masked where the text is shown. -/
def replacement (masked : Bool) (entry : Text × Value) : Text :=
  if masked && entry.1 == password then Masking.mask else entry.2.shown

def substitute (store : Store) (masked : Bool) (now text : Text) : Text :=
  let escaped := text.replaceAll "\\$" escapedDollar
  let replaced := store.replacements.foldl (fun current entry =>
    current.replaceAll entry.1 (replacement masked entry)) escaped
  let dated := replaced.replaceAll date now
  (dropNames dated).replaceAll escapedDollar "$"

/-- Variables are substituted; the password is masked. -/
def expand (store : Store) (now text : Text) : Text := store.substitute true now text

/-- Variables are substituted, the password too; the result must not be shown. -/
def expandSecret (store : Store) (now text : Text) : Text := store.substitute false now text

end ManagementShell.Store
