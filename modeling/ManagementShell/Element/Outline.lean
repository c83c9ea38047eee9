import ManagementShell.Element
import ManagementShell.Text.Blank

/-
This file shows an element as an indented outline and lists the fields that it has.
-/

namespace ManagementShell.Outline
open Text

/-- These elements only hold others; they have no name in the outline and do not indent. -/
def wrappers : List Text :=
  ["Results", "Envelope", "Body", "PullResponse", "Items", "EnumerateResponse"]

/-- These elements are left out of the outline with all that they hold. -/
def leftOut : List Text := ["Header", "EndOfSequence", "EnumerationContext"]

def selector : Text := "Selector"

/-- A selector is shown by the values of its attributes. -/
def shownName (indent : Text) (tag : Tag) : Text :=
  if tag.base = selector then tag.attributes.flatMap fun entry => indent ++ entry.2
  else if wrappers.contains tag.base then []
  else indent ++ tag.base

def shownText : Option Text → Text
  | some [] | none => []
  | some text => " = " ++ text

/-- After a wrapper the elements beside it do not indent either. -/
def indentation (current : Text) (tag : Tag) : Text :=
  if tag.base ≠ selector ∧ wrappers.contains tag.base then [] else current

mutual

def element (indent added : Text) : Element → Text
  | .mk tag text children =>
      shownName indent tag ++ shownText (Element.mk tag text children).text? ++ "\n" ++
        elements (indent ++ added) "  " children

/-- Elements that are not indented are set apart by blank lines. -/
def elements (indent added : Text) : List Element → Text
  | [] => []
  | first :: rest =>
      if leftOut.contains first.tag.base then elements indent added rest
      else
        let next := indentation added first.tag
        element indent next first ++ (if indent = [] ∧ rest.length ≠ 0 then "\n" else "") ++
          elements indent next rest

end

/-- The number `ends` counts the line feeds just before, of which at most two are kept. -/
def squeezeFrom : Nat → Text → Text
  | _, [] => []
  | ends, '\n' :: rest =>
      if ends < 2 then '\n' :: squeezeFrom (ends + 1) rest else squeezeFrom ends rest
  | _, character :: rest => character :: squeezeFrom 0 rest

end ManagementShell.Outline

namespace ManagementShell

open Text

/-- The outline is empty or ends with a blank line. -/
def Element.outline (root : Element) : Text :=
  let text := trim (Outline.squeezeFrom 0 (Outline.elements [] "  " [root]))
  if text = [] then [] else text ++ "\n\n"

/-- The name under which a node holds data, if it holds any. -/
def Node.field? (node : Node) : Option Text :=
  if node.text = none then none
  else if node.tag.base = Outline.selector then Element.attribute? node.tag "Name"
  else some node.tag.base

/-- Names of classes are no fields. -/
def classMark : Text := "DCIM_"

/-- The fields below the root in the order of their first occurrences. -/
def Element.fields (root : Element) : List Text :=
  let named := (root.nodes.drop 1).filterMap Node.field?
  (named.filter fun name => !name.includes classMark).eraseDups

end ManagementShell
