import ManagementShell.Toml.Lexeme

/-
This file reads TOML documents and keeps the rules by which tables may be defined.
-/

namespace ManagementShell.Toml
open Text

/-- How a table came to be: by a header of its own, by the header of a table inside it, or by the
dots in a key. -/
inductive Origin where
  | header
  | outerHeader
  | dots
  deriving DecidableEq, Repr

/-- A part of a document that may still grow. -/
inductive Item where
  | value (data : Data)
  | table (origin : Origin) (entries : List (Text × Item))
  /-- The last table of the list is the one that grows. -/
  | tables (finished : List (List (Text × Item))) (last : List (Text × Item))

abbrev Entries := List (Text × Item)

/-- The first entry with the name is replaced, or a new one comes last. -/
def put (entries : Entries) (name : Text) (item : Item) : Entries :=
  if entries.any fun entry => entry.1 == name then
    entries.map fun entry => if entry.1 == name then (name, item) else entry
  else entries ++ [(name, item)]

/-- The entries that a header leads to are changed; tables on the way are made. -/
def alongHeader (change : Entries → Option Entries) : List Text → Entries → Option Entries
  | [], entries => change entries
  | name :: rest, entries => match entries.lookup name with
    | none => (alongHeader change rest []).map fun inner =>
        put entries name (.table .outerHeader inner)
    | some (.table origin inner) => (alongHeader change rest inner).map fun changed =>
        put entries name (.table origin changed)
    | some (.tables finished last) => (alongHeader change rest last).map fun changed =>
        put entries name (.tables finished changed)
    | some (.value _) => none

/-- A table has at most one header of its own, and none if dots in a key have made it. -/
def openTable (name : Text) (entries : Entries) : Option Entries :=
  match entries.lookup name with
  | none => some (put entries name (.table .header []))
  | some (.table .outerHeader inner) => some (put entries name (.table .header inner))
  | some _ => none

/-- A header in double brackets begins one more table of a list. -/
def openInList (name : Text) (entries : Entries) : Option Entries :=
  match entries.lookup name with
  | none => some (put entries name (.tables [] []))
  | some (.tables finished last) => some (put entries name (.tables (finished ++ [last]) []))
  | some _ => none

/-- A value is added under a key with dots; it only goes into tables that dots have made. -/
def addEntry (item : Item) : List Text → Entries → Option Entries
  | [], _ => none
  | [name], entries =>
      if entries.any fun entry => entry.1 == name then none else some (put entries name item)
  | name :: rest, entries => match entries.lookup name with
    | none => (addEntry item rest []).map fun inner => put entries name (.table .dots inner)
    | some (.table .dots inner) => (addEntry item rest inner).map fun changed =>
        put entries name (.table .dots changed)
    | some (.table .outerHeader inner) => match rest with
      | [_] => none
      | _ => (addEntry item rest inner).map fun changed =>
          put entries name (.table .outerHeader changed)
    | some (.tables finished last) => match rest with
      | [_] => none
      | _ => (addEntry item rest last).map fun changed =>
          put entries name (.tables finished changed)
    | some _ => none

mutual

/-- The finished value of an item. -/
def Item.data : Item → Data
  | .value data => data
  | .table _ entries => .table (dataOfEntries entries)
  | .tables finished last => .list (dataOfTables finished ++ [.table (dataOfEntries last)])

def dataOfEntries : List (Text × Item) → List (Text × Data)
  | [] => []
  | (name, item) :: rest => (name, item.data) :: dataOfEntries rest

def dataOfTables : List (List (Text × Item)) → List Data
  | [] => []
  | entries :: rest => .table (dataOfEntries entries) :: dataOfTables rest

end

/-- Lists and tables are nested at most so deeply. -/
def deepest : Nat := 79

mutual

/-- The two numbers bound the steps and the depth. -/
def value? : Nat → Nat → Text → Option (Data × Text)
  | 0, _, _ => none
  | steps + 1, depth, text =>
      match text with
      | '"' :: _ | '\'' :: _ => (string? text).map fun read => (.text read.1, read.2)
      | '[' :: rest =>
          if depth = 0 then none
          else (items? steps (depth - 1) rest).map fun read => (.list read.1, read.2)
      | '\x7b' :: rest =>
          if depth = 0 then none
          else match skipBlanks rest with
            | '\x7d' :: after => some (.table [], after)
            | inside => (inlineEntries? steps (depth - 1) [] inside).map fun read =>
                (.table (dataOfEntries read.1), read.2)
      | _ => scalar? text

/-- The items of a list, up to its closing bracket; a comma may follow the last. -/
def items? : Nat → Nat → Text → Option (List Data × Text)
  | 0, _, _ => none
  | steps + 1, depth, text =>
      match skipLines text.length text with
      | ']' :: rest => some ([], rest)
      | begun => match value? steps depth begun with
        | none => none
        | some (first, rest) => match skipLines rest.length rest with
          | ']' :: after => some ([first], after)
          | ',' :: after => (items? steps depth after).map fun read => (first :: read.1, read.2)
          | _ => none

/-- The entries of a table on one line, up to its closing bracket. -/
def inlineEntries? : Nat → Nat → Entries → Text → Option (Entries × Text)
  | 0, _, _, _ => none
  | steps + 1, depth, entries, text =>
      match key? text with
      | some (key, '=' :: rest) => match value? steps depth (skipBlanks rest) with
        | none => none
        | some (data, after) => match addEntry (.value data) key entries with
          | none => none
          | some changed => match skipBlanks after with
            | '\x7d' :: left => some (changed, left)
            | ',' :: left => inlineEntries? steps depth changed left
            | _ => none
      | _ => none

end

/-- A document that was read up to a line: its entries and the header that the line is under. -/
structure Progress where
  entries : Entries
  header : List Text

/-- The key of a header, up to its closing brackets, and the rest of the line. -/
def header? (closing : Text) (text : Text) : Option (List Text × Text) :=
  match key? text with
  | some (key, rest) => (after? rest closing).map fun after => (key, after)
  | none => none

def enter? (change : Text → Entries → Option Entries) (progress : Progress) (key : List Text) :
    Option Progress :=
  match key.getLast? with
  | none => none
  | some name => (alongHeader (change name) key.dropLast progress.entries).map fun entries =>
      ⟨entries, key⟩

/-- One line: a header, an entry, or nothing. -/
def line? (progress : Progress) (text : Text) : Option (Progress × Text) :=
  match text with
  | '[' :: '[' :: rest => match header? "]]" rest with
    | none => none
    | some (key, after) => (enter? openInList progress key).map fun next => (next, after)
  | '[' :: rest => match header? "]" rest with
    | none => none
    | some (key, after) => (enter? openTable progress key).map fun next => (next, after)
  | _ => match key? text with
    | some (key, '=' :: rest) => match value? (rest.length + 1) deepest (skipBlanks rest) with
      | none => none
      | some (data, after) =>
          (alongHeader (addEntry (.value data) key) progress.header progress.entries).map
            fun entries => (⟨entries, progress.header⟩, after)
    | _ => none

/-- The number bounds the lines. -/
def linesFrom : Nat → Progress → Text → Option Entries
  | 0, _, _ => none
  | lines + 1, progress, text =>
      match skipLines text.length text with
      | [] => some progress.entries
      | begun => match line? progress begun with
        | none => none
        | some (next, rest) => match endOfLine? rest with
          | none => none
          | some after => linesFrom lines next after

/-- The table that a document describes, if it is well-formed. -/
def parse? (text : Text) : Option Data :=
  let unmarked := (after? text "\uFEFF").getD text
  (linesFrom (unmarked.length + 1) ⟨[], []⟩ unmarked).map fun entries =>
    .table (dataOfEntries entries)

end ManagementShell.Toml
