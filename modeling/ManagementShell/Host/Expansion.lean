import ManagementShell.FileTree
import ManagementShell.Host
import ManagementShell.Record

/-
This file expands the entries of a host list: names of host files, ranges and single hosts.
-/

namespace ManagementShell.Host
open Text

/-- The hosts found so far, each of them once, and the warnings. -/
structure Found where
  hosts : List Text
  records : List Record
  deriving Repr

namespace Found

def empty : Found := ⟨[], []⟩

def add (found : Found) (host : Text) : Found :=
  if found.hosts.contains host then found else { found with hosts := found.hosts ++ [host] }

def warn (found : Found) (message : Text) : Found :=
  { found with records := found.records ++ [⟨.warning, message⟩] }

end Found

def single? (entry : Text) : Option (List Text) := (parse? entry).map fun _ => [entry]

/-- An entry with a hyphen is a range if it can be read as one, and else a host name. -/
def hostsOf? (entry : Text) : Option (List Text) :=
  if '-' ∈ entry then (range? entry).or (single? entry) else single? entry

/-- The entries are expanded in order; `ofFile` expands the lines of a host file. -/
def expandEntries (tree : FileTree) (ofFile : Text → Found → Option Found) (origin : Text) :
    List Text → Found → Option Found
  | [], found => some found
  | line :: rest, found =>
      let entry := trim line
      if entry = [] ∨ entry.head? = some '#' then expandEntries tree ofFile origin rest found
      else if tree.isFile entry then
        match ofFile entry found with
        | some more => expandEntries tree ofFile origin rest more
        | none => none
      else match hostsOf? entry with
        | some hosts => expandEntries tree ofFile origin rest (hosts.foldl Found.add found)
        | none => expandEntries tree ofFile origin rest (found.warn
            ("Skipping malformed IP string " ++ Masking.hideCredentials entry ++ origin))

/-- Host files may name host files; there is no result when they are nested too deeply. -/
def expandFile (tree : FileTree) : Nat → Text → Found → Option Found
  | 0, _, _ => none
  | depth + 1, path, found => match tree.readText path with
    | .ok contents =>
        expandEntries tree (expandFile tree depth) (" in file " ++ path) contents.lines found
    | .error fault => some (found.warn
        ("Failed to read host file " ++ path ++ ": " ++ fault.message))

/-- No nesting is deeper than the number of files, unless a file names itself on some way; then
the expansion has no end and there is no result. -/
def expand? (tree : FileTree) (entries : List Text) : Option Found :=
  expandEntries tree (expandFile tree tree.files.length) [] entries .empty

end ManagementShell.Host
