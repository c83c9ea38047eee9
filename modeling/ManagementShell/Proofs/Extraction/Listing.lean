import ManagementShell.Proofs.Numbering
import ManagementShell.Xml.Document
import Mathlib.Data.List.Sort

/-
This file shows that a search without a limit lists the nodes in its scope that have the field, in
the order of their numbers.
-/

namespace ManagementShell.Extraction
open Text

variable (field : Text)

/-- What a numbered node adds to the occurrences of the field. -/
def occurrence? (entry : Node × Nat) : Option Match :=
  if isNamed field entry.1.tag then entry.1.text.map fun text => ⟨text, entry.2, entry.1.parent⟩
  else none

mutual

/-- An element with children has no text, so the search goes on in each element that it does not
report. -/
theorem searchFrom_eq (found : List Match) (parent : Option Nat) (number : Nat)
    (element : Element) : searchFrom field none found parent number element = found ++
      ((Element.nodesFrom parent number element).zipIdx number).filterMap (occurrence? field) := by
  obtain ⟨tag, text, children⟩ := element
  rw [Element.nodesFrom, List.zipIdx_cons, List.filterMap_cons, occurrence?]
  cases children with
  | nil =>
      rw [searchFrom, Element.nodesOfAll]
      cases isNamed field tag <;> simp [Element.text?]
  | cons first rest =>
      rw [searchFrom, searchAmong_eq, Element.text?, Option.map_none, ite_self]

theorem searchAmong_eq (found : List Match) (parent : Option Nat) (number : Nat)
    (elements : List Element) : searchAmong field none found parent number elements = found ++
      ((Element.nodesOfAll parent number elements).zipIdx number).filterMap (occurrence? field) := by
  cases elements with
  | nil => simp [searchAmong, Element.nodesOfAll]
  | cons first rest =>
      rw [searchAmong, isReached, if_neg Bool.false_ne_true, searchFrom_eq, searchAmong_eq,
        Element.nodesOfAll, List.zipIdx_append, Element.length_nodesFrom, List.filterMap_append,
        List.append_assoc]

end

/-- The node of the occurrence lies within the scope, and it is named like the field or a selector
with this name. The value is its text, which only a node without children has. -/
def Occurs (root : Element) (scope : Nat) (occurrence : Match) : Prop :=
  root.isWithin occurrence.node scope = true ∧ ∃ node ∈ root.nodes[occurrence.node]?,
    (node.tag.base = field ∨
      node.tag.base = Outline.selector ∧ Element.attribute? node.tag "Name" = some field) ∧
    node.text = some occurrence.value ∧ node.parent = occurrence.parent

/-- The occurrences of the field within the scope, each of them once, by the numbers of their
nodes. -/
structure Lists (root : Element) (scope : Nat) (found : List Match) : Prop where
  members : ∀ occurrence, occurrence ∈ found ↔ Occurs field root scope occurrence
  increasing : found.Pairwise fun first second => first.node < second.node

variable {field}

theorem occurrence?_eq_some_iff {entry : Node × Nat} {occurrence : Match} :
    occurrence? field entry = some occurrence ↔ entry.2 = occurrence.node ∧
      (entry.1.tag.base = field ∨
        entry.1.tag.base = Outline.selector ∧ Element.attribute? entry.1.tag "Name" = some field) ∧
      entry.1.text = some occurrence.value ∧ entry.1.parent = occurrence.parent := by
  obtain ⟨node, number⟩ := entry
  obtain ⟨value, _, parent⟩ := occurrence
  have isNamed_iff : isNamed field node.tag = true ↔ node.tag.base = field ∨
      node.tag.base = Outline.selector ∧ Element.attribute? node.tag "Name" = some field := by
    simp only [isNamed, Bool.or_eq_true, Bool.and_eq_true, beq_iff_eq]
  rw [occurrence?, Option.ite_none_right_eq_some, Option.map_eq_some_iff, isNamed_iff]
  simp only [Match.mk.injEq]
  constructor
  · rintro ⟨named, text, isText, rfl, rfl, rfl⟩
    exact ⟨rfl, named, isText, rfl⟩
  · rintro ⟨rfl, named, isText, rfl⟩
    exact ⟨named, value, isText, rfl, rfl, rfl⟩

/-- The order and the members leave no choice. -/
theorem Lists.unique {root : Element} {scope : Nat} {first second : List Match}
    (lists : Lists field root scope first) (others : Lists field root scope second) :
    first = second := by
  have : Std.Irrefl fun first second : Match => first.node < second.node :=
    ⟨fun found => Nat.lt_irrefl found.node⟩
  have : Std.Antisymm fun first second : Match => first.node < second.node :=
    ⟨fun _ _ before after => absurd before (Nat.lt_asymm after)⟩
  exact lists.increasing.eq_of_mem_iff others.increasing fun occurrence =>
    (lists.members occurrence).trans (others.members occurrence).symm

/-- Of a listing, the occurrences within an inner node are listed by the same order. -/
theorem Lists.narrow {root : Element} {outer inner : Nat} {found : List Match}
    (lists : Lists field root outer found) (inside : root.isWithin inner outer = true) :
    Lists field root inner (found.filter fun occurrence => root.isWithin occurrence.node inner) where
  members occurrence := by
    rw [List.mem_filter, lists.members]
    constructor
    · exact fun ⟨occurs, isInner⟩ => ⟨isInner, occurs.2⟩
    · exact fun ⟨isInner, occurs⟩ => ⟨⟨root.isWithin_trans isInner inside, occurs⟩, isInner⟩
  increasing := lists.increasing.filter _

theorem findAll_lists {root : Element} {scope : Nat} {place : Element.Place}
    (isPlace : root.place? scope = some place) (field : Text) :
    Lists field root scope (findAll place field none) := by
  rw [findAll, searchFrom_eq, List.nil_append, Element.place?_number isPlace]
  constructor
  · rintro occurrence
    rw [List.mem_filterMap]
    constructor
    · rintro ⟨⟨node, number⟩, isEntry, isOccurrence⟩
      obtain ⟨isNode, inside⟩ := (Element.mem_block isPlace node number).mp isEntry
      obtain ⟨isSame, occurs⟩ := occurrence?_eq_some_iff.mp isOccurrence
      obtain rfl : number = occurrence.node := isSame
      exact ⟨(root.isWithin_iff isPlace _).mpr inside, node, isNode, occurs⟩
    · rintro ⟨inside, node, isNode, occurs⟩
      exact ⟨(node, occurrence.node), (Element.mem_block isPlace node _).mpr
        ⟨isNode, (root.isWithin_iff isPlace _).mp inside⟩, occurrence?_eq_some_iff.mpr ⟨rfl, occurs⟩⟩
  · have numbered : ((Element.nodesFrom place.parent scope place.element).zipIdx scope).Pairwise
        fun first second => first.2 < second.2 := by
      rw [← List.pairwise_map (R := (· < ·)), List.zipIdx_map_snd]
      exact List.pairwise_lt_range'
    refine numbered.filterMap (occurrence? field) fun first second before one isOne other isOther => ?_
    rw [← (occurrence?_eq_some_iff.mp isOne).1, ← (occurrence?_eq_some_iff.mp isOther).1]
    exact before

/-- In every scope of a tree the search lists the occurrences of the field, and in a narrower scope
those of them that lie within it. -/
theorem findAll_listing {root : Element} {scope : Nat} (isNode : scope < root.nodes.length)
    (field : Text) : ∃ place ∈ root.place? scope, Lists field root scope (findAll place field none) ∧
      ∀ inner, root.isWithin inner scope = true → ∃ narrower ∈ root.place? inner,
        findAll narrower field none = (findAll place field none).filter fun occurrence =>
          root.isWithin occurrence.node inner := by
  obtain ⟨place, isPlace⟩ := Option.isSome_iff_exists.mp (Element.place?_isSome isNode)
  have lists := findAll_lists isPlace field
  refine ⟨place, isPlace, lists, fun inner inside => ?_⟩
  have isInnerNode := ((root.isWithin_iff isPlace inner).mp inside).2.trans_le
    (Element.place?_fits isPlace)
  obtain ⟨narrower, isNarrower⟩ := Option.isSome_iff_exists.mp (Element.place?_isSome isInnerNode)
  exact ⟨narrower, isNarrower, (findAll_lists isNarrower field).unique (lists.narrow inside)⟩

/-- The field occurs as a leaf, as a selector, outside the second element and around another. -/
def scattered : Text :=
  "<a><b><Name>1</Name><Selector Name='Name'>2</Selector></b><Name>3</Name><Name><c>4</c></Name></a>"

theorem findAll_listing_scattered : ∃ root ∈ Xml.parse? scattered, 1 < root.nodes.length ∧
    ∃ place ∈ root.place? 1, findAll place "Name" none = [⟨"1", 2, some 1⟩, ⟨"2", 3, some 1⟩] ∧
      Lists "Name" root 1 (findAll place "Name" none) ∧
      ∀ inner, root.isWithin inner 1 = true → ∃ narrower ∈ root.place? inner,
        findAll narrower "Name" none = (findAll place "Name" none).filter fun occurrence =>
          root.isWithin occurrence.node inner := by
  have evaluated : ∃ root ∈ Xml.parse? scattered, 1 < root.nodes.length ∧
      ∀ place ∈ root.place? 1,
        findAll place "Name" none = [⟨"1", 2, some 1⟩, ⟨"2", 3, some 1⟩] := by decide +kernel
  obtain ⟨root, isTree, isNode, found⟩ := evaluated
  obtain ⟨place, isPlace, listing⟩ := findAll_listing isNode "Name"
  exact ⟨root, isTree, isNode, place, isPlace, found place isPlace, listing⟩

end ManagementShell.Extraction
