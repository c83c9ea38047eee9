import ManagementShell.Proofs.Enumeration.Rearrangement
import ManagementShell.Proofs.Extraction.Filtering

/-
This file shows what a table has that is narrowed to one instance: a row if the response has one
part, and nothing if it has more.
-/

namespace ManagementShell.Report
open Text Enumeration

theorem not_isBase_star : ¬Xml.IsBase star := by decide

/-- All cells are shown if all columns have names. -/
theorem visible_named {α : Type} {columns : List Column} {cells : List α}
    (named : ∀ column ∈ columns, column.name ≠ []) (fits : cells.length ≤ columns.length) :
    visible columns [] cells = cells := by
  have all : (columns.zip cells).filter (fun entry => entry.1.name != []) = columns.zip cells := by
    refine List.filter_eq_self.mpr fun entry member => ?_
    simpa using named entry.1 (List.of_mem_zip member).1
  rw [visible, all, List.map_snd_zip fits]

section

variable {response : Response} {place : Element.Place} {requested : List Text}

theorem occurrences_narrowed (field : Text) :
    occurrences response (some place) field = place.element.values field :=
  occurrences_eq rfl field

theorem columnOf_named {scope : Option Element.Place} (named : [] ∉ requested) :
    ∀ column ∈ requested.map (columnOf response scope), column.name ≠ [] := by
  intro column isColumn isEmpty
  obtain ⟨field, isField, rfl⟩ := List.mem_map.mp isColumn
  exact named ((show field = [] from isEmpty) ▸ isField)

/-- A field that occurs once is usable if the response has one part. -/
theorem isUsable_iff_of_once {field value : Text} (once : place.element.values field = [value]) :
    IsUsable response (some place) field ↔ response.parts = 1 := by
  rw [IsUsable, occurrences_narrowed, once, List.length_singleton, eq_comm]
  simp

theorem kept_unnamed {columns : List Column} (named : ∀ column ∈ columns, column.name ≠ [])
    (value : Text) (rows : List (List Text)) : kept columns [] value rows = rows := by
  have none : (columns.findIdx? fun column => column.name == []) = .none :=
    List.findIdx?_eq_none_iff.mpr fun column member => by simpa using named column member
  rw [kept, none]

variable (explicit : star ∉ requested)
  (once : ∀ field ∈ requested, ∃ value, place.element.values field = [value])
include explicit once

omit once in
theorem sought_narrowed (observed : List Text) : sought observed requested [] = requested :=
  (sought_explicit explicit []).trans (if_neg fun given => given.1 rfl)

theorem usableFields_narrowed : usableFields response (some place) requested [] =
    if response.parts = 1 then requested else [] := by
  rw [usableFields, sought_narrowed explicit]
  split
  · rename_i single
    refine List.filter_eq_self.mpr fun field member => ?_
    obtain ⟨value, isValue⟩ := once field member
    simpa using (isUsable_iff_of_once isValue).mpr single
  · rename_i several
    refine List.filter_eq_nil_iff.mpr fun field member => ?_
    obtain ⟨value, isValue⟩ := once field member
    simpa using mt (isUsable_iff_of_once isValue).mp several

/-- If the response has one part, the only row has the values that are found in the scope. -/
theorem make_single (named : [] ∉ requested) (nonempty : requested ≠ [])
    (single : response.parts = 1) : make response (some place) requested none =
      (some (table (requested.map (columnOf response (some place))) []
        [rowAt response (some place) requested 0]), []) := by
  refine Prod.ext ?_ ?_
  · rw [make_eq, printed, made_eq, Option.getD_none, usableFields_narrowed explicit once,
      if_pos single, map_name_columnOf]
    dsimp only
    rw [if_neg, kept_unnamed (columnOf_named named), rows_eq, single, hiddenName, ite_self]
    · rfl
    · rw [List.map_eq_nil_iff, not_or]
      exact ⟨nonempty, fun isHidden => named (isHidden ▸ List.mem_singleton_self [])⟩
  · rw [make_records, Option.getD_none, sought_narrowed explicit]
    refine List.filterMap_eq_nil_iff.mpr fun field member => ?_
    obtain ⟨value, isValue⟩ := once field member
    exact warning?_eq_none_iff.mpr ((isUsable_iff_of_once isValue).mpr single)

/-- If the response has another number of parts, no field has a column. -/
theorem make_several (several : response.parts ≠ 1) : make response (some place) requested none =
    (none, requested.map fun field =>
      ⟨.warning, "Multi-value field '" ++ field ++ "', skipping"⟩) := by
  refine Prod.ext ?_ ?_
  · rw [make_eq, made_eq, Option.getD_none, usableFields_narrowed explicit once, if_neg several]
    exact if_pos (.inl rfl)
  · rw [make_records, Option.getD_none, sought_narrowed explicit, ← List.filterMap_eq_map]
    refine List.filterMap_congr fun field member => ?_
    obtain ⟨value, isValue⟩ := once field member
    rw [warning?, occurrences_narrowed, isValue, if_neg (List.cons_ne_nil _ _), List.length_singleton,
      if_pos several.symm]
    rfl

end

/-- Within an instance, each field has one value, but a table has a row for each part of the whole
response. So there is a table if the response has one part, and its row has the values of the
instance. Otherwise every field is skipped. The parts are the instances if these show something and
their texts are on single lines. -/
theorem make_narrowed {raw : Text} {root : Element} (isTree : (Response.ofOutput raw).tree = some root)
    (form : HasForm layers root) {place : Element.Place}
    (isInstance : place.element ∈ instances layers root) {requested : List Text}
    (nonempty : requested ≠ [])
    (once : ∀ field ∈ requested, ∃ value, place.element.values field = [value]) :
    ((Response.ofOutput raw).parts = 1 → ∃ row,
        List.Forall₂ (fun field cell => place.element.values field = [cell]) requested row ∧
        visible (requested.map (columnOf (Response.ofOutput raw) (some place))) [] row = row ∧
        make (Response.ofOutput raw) (some place) requested none =
          (some (table (requested.map (columnOf (Response.ofOutput raw) (some place))) [] [row]), [])) ∧
      ((Response.ofOutput raw).parts ≠ 1 →
        make (Response.ofOutput raw) (some place) requested none = (none, requested.map fun field =>
          ⟨.warning, "Multi-value field '" ++ field ++ "', skipping"⟩)) ∧
      ((∀ entry ∈ instances layers root, IsShown entry) → Enumerates layers root →
        (Response.ofOutput raw).parts = (instances layers root).length) := by
  have parsed := Response.parsed_of_tree isTree
  -- A field that occurs is the name of an element, and so it is neither a star nor empty.
  have areNames : ∀ field ∈ requested, Xml.IsBase field := by
    intro field isField
    obtain ⟨value, isValue⟩ := once field isField
    exact isBase_of_mem_values (form.instances _ isInstance)
      (forall_inOrder_instances (Xml.parse?_allNamed parsed) _ isInstance)
      (isValue ▸ List.mem_singleton_self value)
  have explicit : star ∉ requested := fun isStar => not_isBase_star (areNames star isStar)
  have named : [] ∉ requested := fun isEmpty => (areNames [] isEmpty).ne_nil rfl
  refine ⟨fun single => ⟨rowAt (Response.ofOutput raw) (some place) requested 0, ?_, ?_, ?_⟩,
    make_several explicit once, fun shown shape => ?_⟩
  · rw [rowAt, List.forall₂_map_right_iff, List.forall₂_same]
    intro field isField
    obtain ⟨value, isValue⟩ := once field isField
    rw [occurrences_narrowed, isValue]
    rfl
  · exact visible_named (columnOf_named named) (by simp [rowAt])
  · exact make_single explicit once named nonempty single
  · rw [Response.parts_ofOutput isTree, blankLines_enumerates parsed shape shown]

/-- The only instance of an answer. -/
theorem make_narrowed_only :
    let raw := answer "PullResponse" (enclose "View" (enclose "FQDD" "NIC.1" ++ enclose "Slot" "3"))
    ∃ root ∈ (Response.ofOutput raw).tree, ∃ place ∈ root.place? 5,
      (HasForm layers root ∧ place.element ∈ instances layers root ∧
        (∀ field ∈ (["Slot", "FQDD"] : List Text), ∃ value, place.element.values field = [value]) ∧
          (Response.ofOutput raw).parts = 1) ∧
        ∃ row, List.Forall₂ (fun field cell => place.element.values field = [cell])
            ["Slot", "FQDD"] row ∧
          (make (Response.ofOutput raw) (some place) ["Slot", "FQDD"] none).1 =
            some (table (["Slot", "FQDD"].map fun field =>
              columnOf (Response.ofOutput raw) (some place) field) [] [row]) := by
  intro raw
  have has : ∃ root ∈ (Response.ofOutput raw).tree, ∃ place ∈ root.place? 5,
      HasForm layers root ∧ place.element ∈ instances layers root ∧
        (∀ field ∈ (["Slot", "FQDD"] : List Text), (place.element.values field).length = 1) ∧
          (Response.ofOutput raw).parts = 1 := by decide +kernel
  obtain ⟨root, isTree, place, isPlace, form, isInstance, single, isOne⟩ := has
  have once : ∀ field ∈ (["Slot", "FQDD"] : List Text), ∃ value, place.element.values field = [value] :=
    fun field isField => List.length_eq_one_iff.mp (single field isField)
  obtain ⟨row, cells, -, isTable⟩ :=
    (make_narrowed isTree form isInstance (by decide) once).1 isOne
  exact ⟨root, isTree, place, isPlace, ⟨form, isInstance, once, isOne⟩, row, cells,
    congrArg Prod.fst isTable⟩

/-- The field has one value in each of two instances, but there is no table of the first one. -/
theorem make_not_narrowed :
    ∃ root ∈ (Response.ofOutput twoAnswers).tree, ∃ place ∈ root.place? 5,
      Enumerates layers root ∧ place.element ∈ instances layers root ∧ OccursOnce root "FQDD" ∧
        (make (Response.ofOutput twoAnswers) (some place) ["FQDD"] none).1 = none := by
  decide +kernel

end ManagementShell.Report
