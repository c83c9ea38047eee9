import ManagementShell.Element
import ManagementShell.Failure

/-
This file picks an endpoint from the answer to a discovery and writes references to it.
-/

namespace ManagementShell
open Text

namespace Endpoint

/-- The choice among several endpoints: a pair for every parameter, or for one parameter. -/
structure Filter where
  general : Option Text
  specific : List (Text × Text)
  deriving DecidableEq, Repr

/-- A part with a bar is for the parameter before the bar. -/
def Filter.add (filter : Filter) (part : Text) : Filter :=
  match part.cut? "|" with
  | some entry => { filter with specific := entry :: filter.specific }
  | none => { filter with general := some part }

namespace Filter

def empty : Filter := ⟨none, []⟩

/-- The parts are separated by commas; a later part replaces an earlier one. -/
def parse (text : Text) : Filter :=
  ((text.splitOn ',').filter (· != [])).foldl Filter.add empty

/-- A pair for the parameter itself comes first. -/
def pair? (filter : Filter) (parameter : Text) : Option Text :=
  filter.specific.lookup parameter <|> filter.general

/-- Endpoints that were chosen in different ways are kept apart. -/
def key (filter : Filter) (parameter : Text) : Text :=
  match filter.pair? parameter with
  | some pair => parameter ++ "-" ++ pair
  | none => parameter

end Filter

end Endpoint

structure Endpoint where
  resource : Text
  selectors : List (Text × Text)
  deriving DecidableEq, Repr

namespace Endpoint

def addressingSpace : Text := "http://schemas.xmlsoap.org/ws/2004/08/addressing"

def managementSpace : Text := "http://schemas.dmtf.org/wbem/wsman/1/wsman.xsd"

def anonymousRole : Text := "http://schemas.xmlsoap.org/ws/2004/08/addressing/role/anonymous"

/-- The resource with the selectors as a query. -/
def url (endpoint : Endpoint) : Text :=
  if endpoint.selectors = [] then endpoint.resource
  else endpoint.resource ++ "?" ++
    join "+" (endpoint.selectors.map fun selector => selector.1 ++ "=" ++ selector.2)

def selectorLine (selector : Text × Text) : Text :=
  "        <w:Selector Name=\"" ++ selector.1 ++ "\">" ++ selector.2 ++ "</w:Selector>"

/-- The reference to the endpoint as the value of a parameter in a payload. -/
def address (endpoint : Endpoint) (parameter : Text) : Text :=
  "  <p:" ++ parameter ++ " xmlns:a=\"" ++ addressingSpace ++ "\" xmlns:w=\"" ++
      managementSpace ++ "\">\n" ++
    "\t<a:Address>" ++ anonymousRole ++ "</a:Address>\n" ++
    "\t<a:ReferenceParameters>\n" ++
    "\t  <w:ResourceURI>" ++ endpoint.resource ++ "</w:ResourceURI>\n" ++
    "\t  <w:SelectorSet>\n" ++
    join "\n" (endpoint.selectors.map selectorLine) ++ "\n" ++
    "\t  </w:SelectorSet>\n" ++
    "\t</a:ReferenceParameters>\n  </p:" ++ parameter ++ ">\n"

/-- A selector needs a name; its value may be empty. -/
def selector? (element : Element) : Option (Text × Text) :=
  if element.tag.base = "Selector" then
    match Element.attribute? element.tag "Name" with
    | some [] | none => none
    | some name => some (name, element.text?.getD [])
  else none

/-- The elements with a name in document order. -/
def named (root : Element) (base : Text) : List Element :=
  root.inOrder.filter fun element => element.tag.base == base

/-- The selectors of each set in the document. -/
def selectorSets (root : Element) : List (List (Text × Text)) :=
  (named root "SelectorSet").map fun element => element.children.filterMap selector?

def resources (root : Element) : List Text :=
  (named root "ResourceURI").map fun element => element.text?.getD []

/-- The position of the first set that holds the wanted pair, or of the first set of all. -/
def position? (sets : List (List (Text × Text))) (wanted : Option (Text × Text)) : Option Nat :=
  match wanted with
  | none => if sets = [] then none else some 0
  | some pair => sets.findIdx? fun set => set.contains pair

/-- The endpoint that the filter chooses for a parameter. A set of selectors goes with the resource
at the same position. -/
def choose (root : Element) (parameter : Text) (filter : Filter) :
    Except ResolutionFault Endpoint :=
  let sets := selectorSets root
  let wanted := (filter.pair? parameter).bind fun pair => pair.cut? "="
  match position? sets wanted with
  | none => .error (.noCandidate ((filter.pair? parameter).getD []))
  | some position => match (resources root)[position]? with
    | none => .error (.noResource (position + 1))
    | some resource => .ok ⟨resource, sets.getD position []⟩

end Endpoint

end ManagementShell
