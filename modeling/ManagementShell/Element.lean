import ManagementShell.Text

/-
This file defines the elements of a response and their numbering in document order.
-/

namespace ManagementShell

/-- What an element carries besides its contents: its name as written and without a qualifier, and
its attributes by their names without qualifiers. -/
structure Tag where
  name : Text
  base : Text
  attributes : List (Text × Text)
  deriving DecidableEq, Repr

/-- An element has text of its own only if it has no elements inside. -/
inductive Element where
  | mk (tag : Tag) (text : Text) (children : List Element)
  deriving Repr

/-- An element in the numbering, with the numbers of its children and of its parent. -/
structure Node where
  tag : Tag
  text : Option Text
  children : List Nat
  parent : Option Nat
  deriving DecidableEq, Repr

namespace Element

def tag : Element → Tag
  | .mk tag _ _ => tag

def children : Element → List Element
  | .mk _ _ children => children

def text? : Element → Option Text
  | .mk _ text [] => some text
  | .mk _ _ (_ :: _) => none

def attribute? (tag : Tag) (name : Text) : Option Text := tag.attributes.lookup name

mutual

/-- The number of elements of which this is the outermost. -/
def size : Element → Nat
  | .mk _ _ children => sizeAll children + 1

def sizeAll : List Element → Nat
  | [] => 0
  | first :: rest => first.size + sizeAll rest

end

mutual

/-- The element and all elements inside it in document order. -/
def inOrder : Element → List Element
  | .mk tag text children => .mk tag text children :: inOrderAll children

def inOrderAll : List Element → List Element
  | [] => []
  | first :: rest => first.inOrder ++ inOrderAll rest

end

/-- The numbers of elements that follow each other, where the first has the given number. -/
def numbersFrom (start : Nat) : List Element → List Nat
  | [] => []
  | first :: rest => start :: numbersFrom (start + first.size) rest

mutual

/-- The nodes of an element that has the given number and parent. -/
def nodesFrom (parent : Option Nat) (start : Nat) : Element → List Node
  | .mk tag text children =>
      ⟨tag, (Element.mk tag text children).text?, numbersFrom (start + 1) children, parent⟩ ::
        nodesOfAll (some start) (start + 1) children

def nodesOfAll (parent : Option Nat) (start : Nat) : List Element → List Node
  | [] => []
  | first :: rest =>
      nodesFrom parent start first ++ nodesOfAll parent (start + first.size) rest

end

/-- Every element is numbered by its place in document order; the root has the number 0. -/
def nodes (root : Element) : List Node := nodesFrom none 0 root

/-- An element inside a root, with its number and the number of its parent. -/
structure Place where
  number : Nat
  parent : Option Nat
  element : Element
  deriving Repr

mutual

def placeFrom (parent : Option Nat) (start number : Nat) : Element → Option Place
  | .mk tag text children =>
      if number = start then some ⟨start, parent, .mk tag text children⟩
      else placeAmong (some start) (start + 1) number children

def placeAmong (parent : Option Nat) (start number : Nat) : List Element → Option Place
  | [] => none
  | first :: rest =>
      if number < start + first.size then placeFrom parent start number first
      else placeAmong parent (start + first.size) number rest

end

/-- The place of the element with the given number. -/
def place? (root : Element) (number : Nat) : Option Place := placeFrom none 0 number root

def rootPlace (root : Element) : Place := ⟨0, none, root⟩

end Element

/-- The way up from a node; parents have smaller numbers, so their count bounds it. -/
def ascends (nodes : List Node) (ancestor : Nat) : Nat → Nat → Bool
  | 0, number => number == ancestor
  | steps + 1, number =>
      number == ancestor || match (nodes[number]?).bind Node.parent with
        | some parent => ascends nodes ancestor steps parent
        | none => false

/-- One node lies within another if the way up from it meets the other. -/
def Element.isWithin (root : Element) (number ancestor : Nat) : Bool :=
  ascends root.nodes ancestor root.nodes.length number

end ManagementShell
