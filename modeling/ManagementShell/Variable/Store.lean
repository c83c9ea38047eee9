import ManagementShell.Configuration
import ManagementShell.Failure
import ManagementShell.Host
import ManagementShell.Record
import ManagementShell.Table
import ManagementShell.Variable

/-
This file defines the variable store and the rules by which its variables are set.
-/

namespace ManagementShell
open Text Variable

structure Store where
  values : Table Value
  defaults : Defaults
  deriving DecidableEq, Repr

/-- Numbers from 2 to the power of 63 on wrap around to the negative integers. -/
def wrapped (number : Nat) : Int :=
  if number < 0x8000000000000000 then number else (number : Int) - 0x10000000000000000

def flagText (flag : Bool) : Text := if flag then "True" else "False"

namespace Store

def ofDefaults (defaults : Defaults) : Store where
  defaults := defaults
  values := .ofList [
    (format, .text defaults.format),
    (host, .text []),
    (login, .text defaults.login),
    (password, .text defaults.password),
    (port, .integer (wrapped defaults.port)),
    (device, .text defaults.device),
    (program, .text "False"),
    (timer, .text (flagText defaults.timer)),
    (pollInterval, .integer (wrapped defaults.pollInterval)),
    (pollTimeout, .integer (wrapped defaults.pollTimeout)),
    (verbosity, .integer defaults.verbosity)]

/-- The date is not stored; it is the given text whenever it is asked for. -/
def get? (store : Store) (now name : Text) : Option Value :=
  if name = date then some (.text now) else store.values.get? name

def stored? (store : Store) (name : Text) : Option Value := store.values.get? name

def shown? (store : Store) (name : Text) : Option Text := (store.stored? name).map Value.shown

def contains (store : Store) (name : Text) : Bool :=
  name == date || store.values.contains name

def integer? (store : Store) (name : Text) : Option Int :=
  (store.stored? name).bind Value.integer?

def verbosityLevel (store : Store) : Int :=
  (store.integer? verbosity).getD store.defaults.verbosity

def passwordText (store : Store) : Text := (store.shown? password).getD []

def deviceText (store : Store) : Text := (store.shown? device).getD store.defaults.device

def flag (store : Store) (name : Text) : Bool := store.shown? name == some "True"

/-- This changes a variable without any rule. -/
def put (store : Store) (name : Text) (value : Value) : Store :=
  { store with values := store.values.insert name value }

def remove (store : Store) (name : Text) : Store :=
  { store with values := store.values.erase name }

/-- The value that a numeric variable falls back to. -/
def fallback (store : Store) (name : Text) : Int :=
  if name = verbosity then store.defaults.verbosity
  else if name = port then wrapped store.defaults.port
  else if name = pollInterval then wrapped store.defaults.pollInterval
  else wrapped store.defaults.pollTimeout

/-- A host string sets the login, and the password if it has one. Without one, no password can be
asked for where there is no terminal. -/
def setHost (store : Store) (value : Text) : Store × List Record :=
  match Host.parse? value with
  | none => (store, [⟨.warning,
      "Skipping malformed IP string in " ++ Masking.hideCredentials value⟩])
  | some spec =>
      let stored := fun user => store.put login (.text user)
      match spec.credentials with
      | .absent => ((stored store.defaults.login).put host (.text spec.name), [])
      | .user user => ((stored user).put host (.text spec.name), [⟨.warning,
          "Failed to read password: No such device or address (os error 6)"⟩])
      | .full user word =>
          (((stored user).put password (.text word)).put host (.text spec.name), [])

/-- The rules of the constrained variables; a value that breaks a rule is replaced. -/
def assign (store : Store) (name value : Text) : Store × List Record :=
  if name = host then store.setHost value
  else if name = device then
    if devices.contains value then (store.put name (.text value), [])
    else (store.put name (.text "idrac"), [⟨.warning,
      "Permissible values are 'idrac' or 'cmc'. Setting $DEVICE to idrac"⟩])
  else if name = format then
    if formats.contains value then (store.put name (.text value), [])
    else (store.put name (.text "normal"), [⟨.warning,
      "Unknown value for $FORMAT. Supported = normal, xml, prettyxml"⟩])
  else if name = program then
    if value = "True" then
      (((store.put program (.text "True")).put verbosity (.integer callLevel)).put
        format (.text "xml"), [])
    else if value = "False" then (store.put program (.text "False"), [])
    else (store.put program (.text "False"), [⟨.warning,
      "Boolean value expected for $PROGRAM"⟩])
  else if numeric.contains name then
    match Text.integer? (trim value) with
    | some number => (store.put name (.integer number), [])
    | none => (store.put name (.integer (store.fallback name)), [⟨.warning,
        "Numeric value expected for " ++ name ++ ", reverting to " ++
          ofInt (store.fallback name)⟩])
  else (store.put name (.text value), [])

/-- Only well-formed names outside the internal ones can be written. -/
def checkWritable (name : Text) : Except Failure Unit :=
  if isName name then
    match category name with
    | .internal | .reserved => .error (.readOnly name)
    | .settable | .required => .ok ()
  else .error (.script (.badName name))

/-- This sets a variable as a user or a script does. -/
def set (store : Store) (name value : Text) : Except Failure (Store × List Record) :=
  match checkWritable name with
  | .error failure => .error failure
  | .ok () => .ok (store.assign name value)

/-- This keeps the result of an extraction. -/
def bind (store : Store) (name : Text) (value : Value) : Except Failure Store :=
  match checkWritable name with
  | .error failure => .error failure
  | .ok () => .ok (store.put name value)

/-- Required and internal variables are left as they are. -/
def clear (store : Store) (name : Text) : Store :=
  if category name = .settable then store.remove name else store

/-- The flag says whether the variable was defined. -/
def unset (store : Store) (name : Text) : Except Failure (Bool × Store) :=
  match category name with
  | .required => .error (.protectedVariable name)
  | .internal | .reserved => .error (.readOnly name)
  | .settable => .ok (store.values.contains name, store.remove name)

/-- One line for each variable, in the order of their names. -/
def listing (store : Store) : List Text :=
  store.values.map fun entry =>
    entry.1 ++ ": " ++ (if entry.1 = password then Masking.mask else entry.2.shown)

/-- The active password is hidden. -/
def hidePassword (store : Store) (text : Text) : Text :=
  Masking.hideSecret store.passwordText text

end Store

end ManagementShell
