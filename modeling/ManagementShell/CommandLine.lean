import ManagementShell.Configuration

/-
This file reads the options of the command line. The first argument that is no option begins the
items.
-/

namespace ManagementShell
open Text

structure Options where
  configuration : Text := "recite.toml"
  catalog : Option Text := none
  logLevel : Text := "warn"
  parallel : Nat := 10
  retries : Nat := 0
  quits : Bool := false
  silent : Bool := false
  items : List Text := []
  deriving DecidableEq, Repr

namespace Options

/-- The options that take a value. -/
inductive Valued where
  | configuration
  | catalog
  | logLevel
  | parallel
  | retries
  deriving DecidableEq, Repr

inductive Flag where
  | quit
  | silent
  | help
  deriving DecidableEq, Repr

inductive Switch where
  | valued (option : Valued)
  | flag (flag : Flag)
  deriving DecidableEq, Repr

/-- The reasons for which the options are not accepted; help is asked for in their place. -/
inductive Fault where
  | badValue
  | repeated
  | missingValue
  | unneededValue
  | help
  deriving DecidableEq, Repr

def longSwitches : List (Text × Switch) :=
  [("config", .valued .configuration), ("catalog", .valued .catalog),
    ("log-level", .valued .logLevel), ("parallel", .valued .parallel),
    ("max-retry", .valued .retries), ("quit", .flag .quit), ("silent", .flag .silent),
    ("help", .flag .help)]

def shortSwitches : List (Char × Switch) :=
  [('c', .valued .configuration), ('p', .valued .parallel), ('q', .flag .quit),
    ('s', .flag .silent), ('h', .flag .help)]

/-- What an argument may be. -/
inductive Argument where
  | escape
  | long (switch : Switch) (value : Option Text)
  | short (letters : Text)
  | other
  deriving DecidableEq, Repr

def longArgument (text : Text) : Argument :=
  let (name, value) := match text.cut? "=" with
    | some (name, value) => (name, some value)
    | none => (text, none)
  match longSwitches.lookup name with
  | some switch => .long switch value
  | none => .other

/-- Letters after a hyphen are options only if all of them are. -/
def Argument.ofText : Text → Argument
  | ['-', '-'] => .escape
  | '-' :: '-' :: rest => longArgument rest
  | '-' :: first :: rest =>
      if (first :: rest).all fun letter => (shortSwitches.lookup letter).isSome then
        .short (first :: rest)
      else .other
  | _ => .other

/-- An option that was named but not yet taken over may still wait for its value. -/
structure Reading where
  options : Options
  seen : List Switch
  pending : Option (Valued × Option Text)

def largestRetries : Nat := 0xffffffff

def put (options : Options) (option : Valued) (value : Text) : Except Fault Options :=
  match option with
  | .configuration => .ok { options with configuration := value }
  | .catalog => .ok { options with catalog := some value }
  | .logLevel => .ok { options with logLevel := value }
  | .parallel => match unsigned? largestNatural value with
    | some number => .ok { options with parallel := number }
    | none => .error .badValue
  | .retries => match integer? value with
    | some number =>
        if 0 ≤ number ∧ number ≤ largestRetries then .ok { options with retries := number.toNat }
        else .error .badValue
    | none => .error .badValue

namespace Reading

def start : Reading := ⟨{}, [], none⟩

/-- Every option may be given once. -/
def take (reading : Reading) (option : Valued) (value : Text) : Except Fault Reading :=
  if .valued option ∈ reading.seen then .error .repeated
  else (reading.options.put option value).map fun options =>
    ⟨options, .valued option :: reading.seen, none⟩

/-- The pending option is taken over. -/
def resolve (reading : Reading) : Except Fault Reading :=
  match reading.pending with
  | none => .ok reading
  | some (_, none) => .error .missingValue
  | some (option, some value) => reading.take option value

def setFlag (reading : Reading) (flag : Flag) : Except Fault Reading :=
  if .flag flag ∈ reading.seen then .error .repeated
  else
    let seen := .flag flag :: reading.seen
    match flag with
    | .help => .error .help
    | .quit => .ok ⟨{ reading.options with quits := true }, seen, none⟩
    | .silent => .ok ⟨{ reading.options with silent := true }, seen, none⟩

/-- An option without a value waits for the next argument. -/
def name (reading : Reading) (option : Valued) (value : Option Text) : Except Fault Reading :=
  match reading.resolve with
  | .error fault => .error fault
  | .ok resolved => match value with
    | some value => resolved.take option value
    | none => .ok { resolved with pending := some (option, none) }

/-- A letter of an option takes the letters after it as its value. -/
def letters (reading : Reading) : Text → Except Fault Reading
  | [] => .ok reading
  | letter :: rest => match shortSwitches.lookup letter with
    | some (.flag flag) => match reading.resolve with
      | .error fault => .error fault
      | .ok resolved => match resolved.setFlag flag with
        | .error fault => .error fault
        | .ok next => next.letters rest
    | some (.valued option) => reading.name option (if rest = [] then none else some rest)
    | none => .ok reading

/-- The pending option takes the argument as its value. -/
def awaits (reading : Reading) : Option Valued :=
  match reading.pending with
  | some (option, none) => some option
  | _ => none

def finish (reading : Reading) (items : List Text) : Except Fault Options :=
  reading.resolve.map fun resolved => { resolved.options with items := items }

def readFrom (reading : Reading) : List Text → Except Fault Options
  | [] => reading.finish []
  | text :: rest => match Argument.ofText text with
    | .escape => reading.finish rest
    | .long (.flag _) (some _) => .error .unneededValue
    | .long (.flag flag) none => match reading.resolve with
      | .error fault => .error fault
      | .ok resolved => match resolved.setFlag flag with
        | .error fault => .error fault
        | .ok next => next.readFrom rest
    | .long (.valued option) value => match reading.name option value with
      | .error fault => .error fault
      | .ok next => next.readFrom rest
    | .short letters => match reading.letters letters with
      | .error fault => .error fault
      | .ok next => next.readFrom rest
    | .other => match reading.awaits with
      | some option => ({ reading with pending := some (option, some text) } : Reading).readFrom rest
      | none => reading.finish (text :: rest)

end Reading

def read (arguments : List Text) : Except Fault Options := Reading.start.readFrom arguments

end Options

end ManagementShell
