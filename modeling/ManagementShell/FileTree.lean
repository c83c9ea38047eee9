import ManagementShell.Text.Utf8

/-
This file models the files that a session reads and writes, with the faults that the operating
system reports.
-/

namespace ManagementShell
open Text

inductive FileFault where
  | notFound
  | notDirectory
  | isDirectory
  | permissionDenied
  | nameTooLong
  | nulInPath
  | notText
  deriving DecidableEq, Repr

def FileFault.message : FileFault → Text
  | .notFound => "No such file or directory (os error 2)"
  | .notDirectory => "Not a directory (os error 20)"
  | .isDirectory => "Is a directory (os error 21)"
  | .permissionDenied => "Permission denied (os error 13)"
  | .nameTooLong => "File name too long (os error 36)"
  | .nulInPath => "file name contained an unexpected NUL byte"
  | .notText => "stream did not contain valid UTF-8"

/-- The names on the way from the root to a file or a directory. -/
abbrev Location := List Text

inductive Entry where
  | file (contents : Bytes)
  | directory
  deriving DecidableEq, Repr

/-- The directories are those on the way to a file or to the working directory. -/
structure FileTree where
  workingDirectory : Location
  files : List (Location × Bytes)
  deriving Repr

namespace FileTree

def contents? (tree : FileTree) (location : Location) : Option Bytes := tree.files.lookup location

def isDirectoryAt (tree : FileTree) (location : Location) : Bool :=
  location.isPrefixOf tree.workingDirectory ||
    tree.files.any fun file => location.isPrefixOf file.1 && location != file.1

def entry? (tree : FileTree) (location : Location) : Option Entry :=
  match tree.contents? location with
  | some contents => some (.file contents)
  | none => if tree.isDirectoryAt location then some .directory else none

/-- Empty names and `.` stay where they are, `..` goes up, and each needs a directory to start in. -/
def step (tree : FileTree) (location : Location) (name : Text) : Except FileFault Location :=
  match tree.entry? location with
  | none => .error .notFound
  | some (.file _) => .error .notDirectory
  | some .directory =>
      if name = [] ∨ name = "." then .ok location
      else if name = ".." then .ok location.dropLast
      else if byteLength name ≤ 255 then .ok (location ++ [name])
      else .error .nameTooLong

/-- The location that a path names; the last name on the path need not exist. -/
def locate (tree : FileTree) (path : Text) : Except FileFault Location :=
  if '\x00' ∈ path then .error .nulInPath
  else if path = [] then .error .notFound
  else if 4096 ≤ byteLength path then .error .nameTooLong
  else
    let start := if path.head? = some '/' then [] else tree.workingDirectory
    (splitOn path '/').foldlM tree.step start

def find (tree : FileTree) (path : Text) : Except FileFault Entry :=
  match tree.locate path with
  | .error fault => .error fault
  | .ok location => match tree.entry? location with
    | some entry => .ok entry
    | none => .error .notFound

def readBytes (tree : FileTree) (path : Text) : Except FileFault Bytes :=
  match tree.find path with
  | .error fault => .error fault
  | .ok .directory => .error .isDirectory
  | .ok (.file contents) => .ok contents

def readText (tree : FileTree) (path : Text) : Except FileFault Text :=
  match tree.readBytes path with
  | .error fault => .error fault
  | .ok contents => match decode? contents with
    | some text => .ok text
    | none => .error .notText

def has (tree : FileTree) (path : Text) : Bool := (tree.find path).toBool

def isFile (tree : FileTree) (path : Text) : Bool := (tree.readBytes path).toBool

def isDirectory (tree : FileTree) (path : Text) : Bool :=
  match tree.find path with
  | .ok .directory => true
  | _ => false

def store (tree : FileTree) (location : Location) (contents : Bytes) : FileTree :=
  { tree with files := (location, contents) :: tree.files.filter fun file => file.1 != location }

/-- Opening for writing creates the file and, unless it is kept, empties it. A path with a slash at
its end names no file. -/
def openForWriting (tree : FileTree) (path : Text) (keep : Bool) :
    Except FileFault (Location × FileTree) :=
  let name := path.dropWhileEnd (· == '/')
  match tree.locate name with
  | .error fault => .error (if name = [] ∧ path ≠ [] then .isDirectory else fault)
  | .ok location =>
      if name ≠ path then .error .isDirectory
      else match tree.entry? location with
        | some .directory => .error .isDirectory
        | some (.file contents) => .ok (location, tree.store location (if keep then contents else []))
        | none => .ok (location, tree.store location [])

def append (tree : FileTree) (location : Location) (added : Bytes) : FileTree :=
  tree.store location ((tree.contents? location).getD [] ++ added)

def remove (tree : FileTree) (location : Location) : FileTree :=
  { tree with files := tree.files.filter fun file => file.1 != location }

/-- The names of the entries that lie directly in a directory. -/
def namesIn (tree : FileTree) (location : Location) : List Text :=
  let below := tree.files.map Prod.fst ++ [tree.workingDirectory]
  (below.filterMap fun other => (location.isPrefixOf? other).bind List.head?).eraseDups

end FileTree

end ManagementShell
