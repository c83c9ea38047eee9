import ManagementShell.Proofs.Enumeration
import ManagementShell.Proofs.Extraction
import ManagementShell.Proofs.Extraction.Values
import Mathlib.Data.List.Forall2

/-
This file shows when the rows of a table describe the instances of an enumeration.
-/

namespace ManagementShell

/-- If each list has one element at most and there are no fewer elements than lists, each list has
exactly one. -/
theorem forall₂_flatMap {α β : Type} {part : α → List β} {whole : List α}
    (once : ∀ element ∈ whole, (part element).length ≤ 1) :
    (whole.flatMap part).length ≤ whole.length ∧
      (whole.length ≤ (whole.flatMap part).length →
        List.Forall₂ (fun element value => part element = [value]) whole (whole.flatMap part)) := by
  induction whole with
  | nil => exact ⟨Nat.le_refl _, fun _ => .nil⟩
  | cons first rest inductionHypothesis =>
      have firstOnce := once first (List.mem_cons_self ..)
      obtain ⟨atMost, each⟩ := inductionHypothesis fun element member =>
        once element (List.mem_cons_of_mem _ member)
      rw [List.flatMap_cons, List.length_append, List.length_cons]
      refine ⟨by omega, fun enough => ?_⟩
      obtain ⟨value, isValue⟩ := List.length_eq_one_iff.mp (show (part first).length = 1 by omega)
      rw [isValue]
      exact .cons isValue (each (by rw [isValue, List.length_singleton] at enough; omega))

namespace Enumeration

/-- The field occurs in the instances only, and in none of them twice. -/
structure IsSingle (root : Element) (field : Text) : Prop where
  inside : root.values field = (instances layers root).flatMap (Element.values field)
  once : ∀ entry ∈ instances layers root, (entry.values field).length ≤ 1

instance (root : Element) (field : Text) : Decidable (IsSingle root field) :=
  decidable_of_iff (root.values field = (instances layers root).flatMap (Element.values field) ∧
    ∀ entry ∈ instances layers root, (entry.values field).length ≤ 1)
    ⟨fun single => ⟨single.1, single.2⟩, fun single => ⟨single.inside, single.once⟩⟩

end Enumeration

namespace Report
open Enumeration

/-- What is made of the fields of a table, one after the other. -/
def attempts (response : Response) (scope : Option Element.Place) (requested : List Text)
    (filter : Option (Text × Text)) : List (Except Record Column) :=
  let place := match scope with
    | some place => some place
    | none => response.tree.map Element.rootPlace
  let observed := (response.tree.map Element.fields).getD []
  (sought observed requested (filter.getD ([], [])).1).map (column response.parts place)

/-- The columns of a table. -/
def made (response : Response) (scope : Option Element.Place) (requested : List Text)
    (filter : Option (Text × Text)) : List Column :=
  columns (attempts response scope requested filter)

theorem column_eq_ok {parts : Nat} {place : Element.Place} {field : Text} {found : Column}
    (isMade : column parts (some place) field = .ok found) :
    found.values = place.element.values found.name ∧ found.values.length = parts := by
  unfold column at isMade
  dsimp only at isMade
  split at isMade
  · cases isMade
  · split at isMade
    · cases isMade
    · rename_i isComplete
      cases isMade
      exact ⟨Extraction.findAll_values field place, not_not.mp isComplete⟩

theorem columns_values {parts : Nat} {place : Element.Place} {fields : List Text} :
    ∀ found ∈ columns (fields.map (column parts (some place))),
      found.values = place.element.values found.name ∧ found.values.length = parts := by
  intro found member
  obtain ⟨attempt, isAttempt, isColumn⟩ := List.mem_filterMap.mp member
  obtain ⟨field, _, rfl⟩ := List.mem_map.mp isAttempt
  cases isMade : column parts (some place) field with
  | error record =>
      rw [isMade] at isColumn
      cases isColumn
  | ok column =>
      rw [isMade] at isColumn
      cases isColumn
      exact column_eq_ok isMade

section

variable {raw : Text} {root : Element} {scope : Option Element.Place} {requested : List Text}
  {filter : Option (Text × Text)}
  (isTree : (Response.ofOutput raw).tree = some root)
  (inside : ∀ place ∈ scope, ∃ number, root.place? number = some place)
include isTree inside

/-- The values of a column are next to each other among those of the field. -/
theorem made_values : ∀ column ∈ made (Response.ofOutput raw) scope requested filter,
    column.values <:+: root.values column.name ∧
      column.values.length = (Response.ofOutput raw).parts := by
  intro column member
  unfold made attempts at member
  rw [isTree] at member
  cases scope with
  | none =>
      obtain ⟨isValues, isComplete⟩ := columns_values column member
      exact ⟨isValues ▸ List.infix_rfl, isComplete⟩
  | some place =>
      obtain ⟨number, isPlace⟩ := inside place rfl
      obtain ⟨isValues, isComplete⟩ := columns_values column member
      exact ⟨isValues ▸ Element.place?_values isPlace, isComplete⟩

/-- A column of a single field has one value for each instance. -/
theorem made_single (shape : HasShape layers root) :
    ∀ column ∈ made (Response.ofOutput raw) scope requested filter, IsSingle root column.name →
      (Response.ofOutput raw).parts = (instances layers root).length ∧
        List.Forall₂ (fun entry value => entry.values column.name = [value])
          (instances layers root) column.values := by
  intro column member single
  obtain ⟨isInfix, isComplete⟩ := made_values isTree inside column member
  have parts := instances_le_parts isTree shape
  obtain ⟨atMost, each⟩ := forall₂_flatMap single.once
  rw [← single.inside] at atMost each
  have isWhole : column.values = root.values column.name :=
    isInfix.sublist.eq_of_length_le (by omega)
  rw [isWhole] at isComplete ⊢
  exact ⟨by omega, each (by omega)⟩

end

/-- The rows have the values of each entry beside each other. -/
theorem rows_describe {found : List Column} {entries : List Element}
    (each : ∀ column ∈ found, List.Forall₂ (fun entry value => entry.values column.name = [value])
      entries column.values) :
    ∀ row ∈ rows entries.length found, ∃ entry ∈ entries,
      List.Forall₂ (fun column cell => entry.values column.name = [cell]) found row := by
  intro row member
  obtain ⟨index, isIndex, rfl⟩ := List.mem_map.mp member
  have isEntry : index < entries.length := List.mem_range.mp isIndex
  refine ⟨entries[index], List.getElem_mem _, ?_⟩
  rw [List.forall₂_map_right_iff, List.forall₂_same]
  intro column isColumn
  obtain ⟨sameLength, values⟩ := List.forall₂_iff_get.mp (each column isColumn)
  have isValue : index < column.values.length := sameLength ▸ isEntry
  rw [List.getD_eq_getElem?_getD, List.getElem?_eq_getElem isValue]
  exact values index isEntry isValue

/-- If the fields of a table are single, each of its rows has texts of leaves of one instance. -/
theorem make_describes {raw : Text} {root : Element}
    (isTree : (Response.ofOutput raw).tree = some root) (shape : HasShape layers root)
    {scope : Option Element.Place}
    (inside : ∀ place ∈ scope, ∃ number, root.place? number = some place)
    {requested : List Text} {filter : Option (Text × Text)}
    (single : ∀ column ∈ made (Response.ofOutput raw) scope requested filter,
      IsSingle root column.name) {text : Text}
    (isTable : (make (Response.ofOutput raw) scope requested filter).1 = some text) :
    ∃ printed, text = table (made (Response.ofOutput raw) scope requested filter)
        (hiddenName (made (Response.ofOutput raw) scope requested filter) (filter.getD ([], [])).1)
        printed ∧
      ∀ row ∈ printed, ∃ entry ∈ instances layers root,
        List.Forall₂ (fun column cell => ∃ leaf ∈ entry.inOrder,
          Extraction.isNamed column.name leaf.tag = true ∧ leaf.text? = some cell)
          (made (Response.ofOutput raw) scope requested filter) row := by
  have laidOut : make (Response.ofOutput raw) scope requested filter =
      layOut (Response.ofOutput raw).parts (attempts (Response.ofOutput raw) scope requested filter)
        (filter.getD ([], [])).1 (filter.getD ([], [])).2 := rfl
  rw [laidOut, layOut] at isTable
  dsimp only at isTable
  split at isTable
  · cases isTable
  · rename_i nonempty
    cases isTable
    refine ⟨_, rfl, fun row member => ?_⟩
    have notEmpty : made (Response.ofOutput raw) scope requested filter ≠ [] :=
      fun isEmpty => nonempty (.inl isEmpty)
    obtain ⟨first, isFirst⟩ := List.exists_mem_of_ne_nil _ notEmpty
    have parts := (made_single isTree inside shape first isFirst (single first isFirst)).1
    have isRow := kept_subset _ _ _ row (mem_sort.mp member)
    rw [parts] at isRow
    obtain ⟨entry, isEntry, cells⟩ := rows_describe (fun column isColumn =>
      (made_single isTree inside shape column isColumn (single column isColumn)).2) row isRow
    refine ⟨entry, isEntry, cells.imp fun column cell isCell => ?_⟩
    rw [← Element.mem_values, isCell]
    exact List.mem_singleton_self cell

/-- An element as it is written. -/
def enclose (name inside : Text) : Text := "<" ++ name ++ ">" ++ inside ++ "</" ++ name ++ ">"

/-- An answer that enumerates what is inside its items. -/
def answer (kind items : Text) : Text :=
  "<?xml version='1.0'?>" ++
    enclose "Envelope" (enclose "Body" (enclose kind (enclose "Items" items)))

/-- The answers name the fields of their instances in different orders, and one row is printed. -/
def twoAnswers : Text :=
  answer "EnumerateResponse" (enclose "View" (enclose "FQDD" "RAID.1" ++ enclose "Slot" "3")) ++
    answer "PullResponse" (enclose "View" (enclose "Slot" "4" ++ enclose "FQDD" "AHCI.2"))

theorem make_describes_filtered :
    ∃ root ∈ (Response.ofOutput twoAnswers).tree, HasShape layers root ∧
      (∀ column ∈ made (Response.ofOutput twoAnswers) none ["FQDD"] (some ("Slot", "4")),
        IsSingle root column.name) ∧
      ∃ printed, ("\nFQDD\n------\nAHCI.2\n\n" : Text) =
          table (made (Response.ofOutput twoAnswers) none ["FQDD"] (some ("Slot", "4")))
            (hiddenName (made (Response.ofOutput twoAnswers) none ["FQDD"] (some ("Slot", "4"))) "Slot")
            printed ∧
        ∀ row ∈ printed, ∃ entry ∈ instances layers root,
          List.Forall₂ (fun column cell => ∃ leaf ∈ entry.inOrder,
            Extraction.isNamed column.name leaf.tag = true ∧ leaf.text? = some cell)
            (made (Response.ofOutput twoAnswers) none ["FQDD"] (some ("Slot", "4"))) row := by
  have enumerated : ∃ root ∈ (Response.ofOutput twoAnswers).tree, HasShape layers root ∧
      ∀ column ∈ made (Response.ofOutput twoAnswers) none ["FQDD"] (some ("Slot", "4")),
        IsSingle root column.name := by decide +kernel
  obtain ⟨root, isTree, shape, single⟩ := enumerated
  have isTable : (make (Response.ofOutput twoAnswers) none ["FQDD"] (some ("Slot", "4"))).1 =
      some ("\nFQDD\n------\nAHCI.2\n\n" : Text) := by decide +kernel
  exact ⟨root, isTree, shape, single,
    make_describes isTree shape (fun _ noScope => by cases noScope) single isTable⟩

/-- The first instance has the field of the second one, too. -/
def shifted : Text :=
  answer "PullResponse"
    (enclose "View" (enclose "FQDD" "A" ++ enclose "FQDD" "B" ++ enclose "Name" "one") ++
      enclose "View" (enclose "Name" "two"))

/-- The numbers of the values are right, but the second row has values of both instances. -/
theorem make_shifted : ∃ root ∈ (Response.ofOutput shifted).tree, HasShape layers root ∧
    (∀ entry ∈ instances layers root, ∀ inner ∈ entry.inOrder, IsInstance inner.tag) ∧
    (make (Response.ofOutput shifted) none ["FQDD", "Name"] none).1 =
      some (table [⟨"FQDD", ["A", "B"]⟩, ⟨"Name", ["one", "two"]⟩] [] [["A", "one"], ["B", "two"]]) ∧
    ∀ entry ∈ instances layers root, ¬((∃ leaf ∈ entry.inOrder, leaf.text? = some "B") ∧
      ∃ leaf ∈ entry.inOrder, leaf.text? = some "two") := by
  decide +kernel

end Report

end ManagementShell
