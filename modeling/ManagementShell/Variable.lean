import ManagementShell.Text.Blank
import ManagementShell.Text.Numeral
import ManagementShell.Text.Word

/-
This file defines the values and the names of session variables.
-/

namespace ManagementShell
open Text

inductive Value where
  | text (value : Text)
  | integer (value : Int)
  | list (items : List Text)
  deriving DecidableEq, Repr

namespace Value

/-- The text that stands for the value in a line. -/
def shown : Value → Text
  | .text value => value
  | .integer value => ofInt value
  | .list items => join "," items

def items : Value → List Text
  | .list items => items
  | value => [value.shown]

/-- A text of digits counts as an integer. -/
def integer? : Value → Option Int
  | .integer value => some value
  | .text value => Text.integer? (trim value)
  | .list _ => none

end Value

namespace Variable

def script : Text := "$_BATCHFILE"
def date : Text := "$_DATE"
def line : Text := "$_LINE"

def format : Text := "$FORMAT"
def host : Text := "$IP"
def login : Text := "$LOGIN"
def password : Text := "$PASS"
def device : Text := "$DEVICE"
def port : Text := "$PORT"
def program : Text := "$PROGRAM"
def timer : Text := "$TIMER"
def pollInterval : Text := "$USLEEP"
def pollTimeout : Text := "$UTIMEOUT"
def verbosity : Text := "$VERBOSE"

/-- The variables that every session has. -/
def required : List Text :=
  [format, host, login, password, port, device, program, timer, pollInterval, pollTimeout,
    verbosity]

/-- The names that are kept for extraction. -/
def reserved : List Text := ["$_UNTIL", "$_FIND", "$_PARENT", "$_COUNT"]

def numeric : List Text := [verbosity, port, pollInterval, pollTimeout]

def devices : List Text := ["idrac", "cmc"]

def formats : List Text := ["normal", "xml", "prettyxml"]

inductive Category where
  | internal
  | reserved
  | settable
  | required
  deriving DecidableEq, Repr

def category (name : Text) : Category :=
  if reserved.contains name then .reserved
  else if ("$_" : Text).isPrefixOf name then .internal
  else if required.contains name then .required
  else .settable

/-- A dollar sign and at least one Latin letter, digit or underscore. -/
def isName (name : Text) : Bool :=
  match name with
  | '$' :: rest => rest != [] && rest.all isLatinWord
  | _ => false

end Variable

end ManagementShell
