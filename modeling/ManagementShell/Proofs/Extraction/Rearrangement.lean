import ManagementShell.Proofs.Enumeration.Rearrangement
import ManagementShell.Proofs.Extraction.Filtering

/-
This file shows that a table does not depend on the order of the instances, if its fields and the key
of its filter have one value in each of them.
-/

namespace ManagementShell.Report
open Text Enumeration

section

variable {columns others : List Column} (same : columns.map Column.name = others.map Column.name)
include same

theorem hiddenName_congr (key : Text) : hiddenName columns key = hiddenName others key := by
  have byNames (columns : List Column) : hiddenName columns key =
      if (columns.map Column.name).any (· == key) then key else [] := by
    rw [List.any_map]
    rfl
  rw [byNames, byNames, same]

theorem kept_congr (key value : Text) (rows : List (List Text)) :
    kept columns key value rows = kept others key value rows := by
  have byNames (columns : List Column) : (columns.findIdx? fun column => column.name == key) =
      (columns.map Column.name).findIdx? (· == key) := by
    rw [List.findIdx?_map]
    rfl
  rw [kept, kept, byNames, byNames, same]

theorem visible_congr {α : Type} (hidden : Text) (cells : List α) :
    visible columns hidden cells = visible others hidden cells := by
  have byNames (columns : List Column) : visible columns hidden cells =
      (((columns.map Column.name).zip cells).filter fun entry => entry.1 != hidden).map Prod.snd := by
    rw [visible, List.zip_map_left, List.filter_map, List.map_map]
    rfl
  rw [byNames, byNames, same]

theorem widths_congr (rows : List (List Text)) : widths columns rows = widths others rows := by
  have byNames (columns : List Column) : widths columns rows =
      (columns.map Column.name).mapIdx fun index name =>
        (rows.map fun row => (row.getD index []).length).foldl max name.length := by
    refine List.ext_getElem? fun index => ?_
    rw [widths, List.getElem?_mapIdx, List.getElem?_mapIdx, List.getElem?_map, Option.map_map]
    rfl
  rw [byNames, byNames, same]

/-- Only the rows and the names of the columns are shown. -/
theorem table_congr (hidden : Text) (rows : List (List Text)) :
    table columns hidden rows = table others hidden rows := by
  unfold table
  simp only [visible_congr same, widths_congr same, same]

end

theorem kept_perm {rows others : List (List Text)} (columns : List Column) (key value : Text)
    (perm : rows.Perm others) : (kept columns key value rows).Perm (kept columns key value others) := by
  unfold kept
  split
  · exact perm.filter _
  · exact perm

theorem warning?_congr {response other : Response} {scope place : Option Element.Place} {field : Text}
    (sameLength : (occurrences response scope field).length = (occurrences other place field).length)
    (sameParts : response.parts = other.parts) :
    warning? response scope field = warning? other place field := by
  have bothEmpty : occurrences response scope field = [] ↔ occurrences other place field = [] := by
    rw [← List.length_eq_zero_iff, sameLength, List.length_eq_zero_iff]
  simp only [warning?, bothEmpty, sameLength, sameParts]

section

variable {raw : Text} {root : Element} (isTree : (Response.ofOutput raw).tree = some root)
include isTree

theorem occurrences_ofOutput (field : Text) :
    occurrences (Response.ofOutput raw) none field = root.values field := by
  have isSearched : searched (Response.ofOutput raw) none = some root.rootPlace := by
    rw [searched, isTree, Option.map_some]
  exact occurrences_eq isSearched field

/-- The rows have the values of one instance each, in the order of the instances. -/
theorem rows_instances {fields : List Text} (each : ∀ field ∈ fields, OccursOnce root field)
    (complete : (Response.ofOutput raw).parts = (instances layers root).length) :
    rows (Response.ofOutput raw).parts (fields.map (columnOf (Response.ofOutput raw) none)) =
      (instances layers root).map fun entry => fields.map fun field => valueIn field entry := by
  rw [rows_eq, complete]
  refine List.ext_getElem (by simp) fun index isRow isEntry => ?_
  rw [List.length_map] at isEntry
  rw [List.getElem_map, List.getElem_map, List.getElem_range, rowAt]
  refine List.map_congr_left fun field isField => ?_
  rw [occurrences_ofOutput isTree, (each field isField).values, List.getD_eq_getElem?_getD,
    List.getElem?_map, List.getElem?_eq_getElem isEntry]
  rfl

end

section

variable {raw other : Text} {root tree : Element} (isTree : (Response.ofOutput raw).tree = some root)
  (isOther : (Response.ofOutput other).tree = some tree) (form : HasForm layers root)
  (shown : ∀ entry ∈ instances layers root, IsShown entry) (same : Rearranged layers root tree)
include isTree isOther form shown same

theorem parts_rearranged : (Response.ofOutput raw).parts = (Response.ofOutput other).parts := by
  have otherShown : ∀ entry ∈ instances layers tree, IsShown entry := fun entry isEntry =>
    shown entry (same.instances_perm.mem_iff.mpr isEntry)
  rw [Response.parts_ofOutput isTree, Response.parts_ofOutput isOther,
    blankLines_sum (Response.parsed_of_tree isTree) form shown,
    blankLines_sum (Response.parsed_of_tree isOther) (same.form form) otherShown]
  exact (same.instances_perm.map blankLines).sum_nat

theorem warning?_rearranged (field : Text) : warning? (Response.ofOutput raw) none field =
    warning? (Response.ofOutput other) none field := by
  refine warning?_congr ?_ (parts_rearranged isTree isOther form shown same)
  rw [occurrences_ofOutput isTree, occurrences_ofOutput isOther, (same.values_perm field).length_eq]

theorem usableFields_rearranged {requested : List Text} (explicit : star ∉ requested) (key : Text) :
    usableFields (Response.ofOutput raw) none requested key =
      usableFields (Response.ofOutput other) none requested key := by
  rw [usableFields, usableFields, sought_explicit explicit, sought_explicit explicit]
  refine List.filter_congr fun field _ => decide_eq_decide.mpr ?_
  rw [← warning?_eq_none_iff, ← warning?_eq_none_iff, warning?_rearranged isTree isOther form shown same]

/-- If the rows have cells at all, there is one row for each instance. -/
theorem rows_perm {fields : List Text} (each : ∀ field ∈ fields, OccursOnce root field)
    (usable : ∀ field ∈ fields, IsUsable (Response.ofOutput raw) none field) :
    (rows (Response.ofOutput raw).parts (fields.map (columnOf (Response.ofOutput raw) none))).Perm
      (rows (Response.ofOutput other).parts
        (fields.map (columnOf (Response.ofOutput other) none))) := by
  have sameParts := parts_rearranged isTree isOther form shown same
  -- A usable field has one value for each part and one in each instance, so these are as many.
  cases fields with
  | nil => rw [sameParts, List.map_nil, List.map_nil]
  | cons field fields =>
      have complete : (Response.ofOutput raw).parts = (instances layers root).length := by
        have isCount := (usable field (List.mem_cons_self ..)).2
        rwa [occurrences_ofOutput isTree, (each field (List.mem_cons_self ..)).values, List.length_map,
          eq_comm] at isCount
      have otherComplete : (Response.ofOutput other).parts = (instances layers tree).length := by
        rw [← sameParts, complete, same.instances_perm.length_eq]
      rw [rows_instances isTree each complete, rows_instances isOther
        (fun field isField => (each field isField).rearranged same) otherComplete]
      exact same.instances_perm.map _

variable {requested : List Text} (explicit : star ∉ requested) {filter : Option (Text × Text)}
  (once : ∀ field ∈ requested, OccursOnce root field)
  (keyOnce : ∀ entry ∈ filter, OccursOnce root entry.1)
include explicit once keyOnce

theorem printed_rearranged : printed (Response.ofOutput raw) none requested filter =
    printed (Response.ofOutput other) none requested filter := by
  have sameFields := usableFields_rearranged isTree isOther form shown same explicit
    (filter.getD ([], [])).1
  have each : ∀ field ∈ usableFields (Response.ofOutput raw) none requested (filter.getD ([], [])).1,
      OccursOnce root field := by
    intro field isField
    rcases mem_sought_explicit explicit (List.mem_filter.mp isField).1 with isRequested | isKey
    · exact once field isRequested
    · obtain ⟨rfl, nonempty⟩ := isKey
      cases filter with
      | none => exact absurd rfl nonempty
      | some entry => exact keyOnce entry rfl
  have perm := rows_perm isTree isOther form shown same each fun field isField => by
    simpa using (List.mem_filter.mp isField).2
  rw [printed, printed, made_eq, made_eq, ← sameFields,
    kept_congr ((map_name_columnOf _ _ _).trans (map_name_columnOf _ _ _).symm)]
  exact sort_rows_eq_of_perm (kept_perm _ _ _ perm)

/-- The answers have the same instances in different orders, and their tables are the same. -/
theorem make_rearranged : make (Response.ofOutput raw) none requested filter =
    make (Response.ofOutput other) none requested filter := by
  have sameFields := usableFields_rearranged isTree isOther form shown same explicit
    (filter.getD ([], [])).1
  refine Prod.ext ?_ ?_
  · have sameNames : (made (Response.ofOutput raw) none requested filter).map Column.name =
        (made (Response.ofOutput other) none requested filter).map Column.name := by
      rw [made_eq, made_eq, map_name_columnOf, map_name_columnOf, sameFields]
    have bothEmpty : made (Response.ofOutput raw) none requested filter = [] ↔
        made (Response.ofOutput other) none requested filter = [] := by
      rw [← List.map_eq_nil_iff (f := Column.name), sameNames, List.map_eq_nil_iff]
    rw [make_eq, make_eq, printed_rearranged isTree isOther form shown same explicit once keyOnce,
      hiddenName_congr sameNames, table_congr sameNames, sameNames]
    simp only [bothEmpty]
  · rw [make_records, make_records, sought_explicit explicit, sought_explicit explicit]
    exact List.filterMap_congr fun field _ =>
      warning?_rearranged isTree isOther form shown same field

end

/-- An instance as it is written and as it is read. -/
def card (name slot : Text) : Text := enclose "View" (enclose "FQDD" name ++ enclose "Slot" slot)

def cardNode (name slot : Text) : Element :=
  node "View" [] [node "FQDD" name [], node "Slot" slot []]

/-- The rows stand in the order of their texts, and not in the order of the answer. -/
example : (make (Response.ofOutput (answer "PullResponse" (card "NIC.1" "3" ++ card "AHCI.2" "4")))
    none ["FQDD", "Slot"] none).1 =
      some "\nFQDD    Slot\n------  ----\nAHCI.2  4\nNIC.1   3\n\n".toList := by
  decide +kernel

/-- Three instances in two orders, of which the filter leaves two. -/
theorem make_rearranged_cards :
    let raw := answer "PullResponse" (card "NIC.1" "3" ++ card "AHCI.2" "4" ++ card "BIOS" "3")
    let other := answer "PullResponse" (card "BIOS" "3" ++ card "NIC.1" "3" ++ card "AHCI.2" "4")
    let root := listing [cardNode "NIC.1" "3", cardNode "AHCI.2" "4", cardNode "BIOS" "3"]
    let tree := listing [cardNode "BIOS" "3", cardNode "NIC.1" "3", cardNode "AHCI.2" "4"]
    ((Response.ofOutput raw).tree = some root ∧ (Response.ofOutput other).tree = some tree ∧
        HasForm layers root ∧ (∀ entry ∈ instances layers root, IsShown entry) ∧
          Rearranged layers root tree ∧ OccursOnce root "FQDD" ∧ OccursOnce root "Slot") ∧
      (make (Response.ofOutput raw) none ["FQDD"] (some ("Slot", "3"))).1 =
        some "\nFQDD\n-----\nBIOS\nNIC.1\n\n".toList ∧
      make (Response.ofOutput raw) none ["FQDD"] (some ("Slot", "3")) =
        make (Response.ofOutput other) none ["FQDD"] (some ("Slot", "3")) := by
  intro raw other root tree
  have isTree : (Response.ofOutput raw).tree = some root := by decide +kernel
  have isOther : (Response.ofOutput other).tree = some tree := by decide +kernel
  have form : HasForm layers root := by decide +kernel
  have shown : ∀ entry ∈ instances layers root, IsShown entry := by decide +kernel
  have once : OccursOnce root "FQDD" := by decide +kernel
  have keyOnce : OccursOnce root "Slot" := by decide +kernel
  have same : Rearranged layers root tree := rearranged_listing (by decide +kernel)
  refine ⟨⟨isTree, isOther, form, shown, same, once, keyOnce⟩, by decide +kernel, ?_⟩
  refine make_rearranged isTree isOther form shown same (by decide) ?_ ?_
  · exact List.forall_mem_singleton.mpr once
  · rintro _ ⟨⟩
    exact keyOnce

/-- The ogham space mark is a name and white space, so an instance with this name and without a value
is cut off at the end of the text, but not between two others. -/
theorem make_reordered :
    let written := fun value : Text => enclose "\u1680" (enclose "\u1680" value)
    let read := fun value : Text => node "\u1680" [] [node "\u1680" value []]
    let raw := answer "PullResponse" (written "A" ++ written "" ++ written "C")
    let other := answer "PullResponse" (written "A" ++ written "C" ++ written "")
    let root := listing [read "A", read "", read "C"]
    let tree := listing [read "A", read "C", read ""]
    ((Response.ofOutput raw).tree = some root ∧ (Response.ofOutput other).tree = some tree ∧
        HasForm layers root ∧ Rearranged layers root tree ∧ OccursOnce root "\u1680") ∧
      (make (Response.ofOutput raw) none ["\u1680"] none).1 = some "\n\n-\n\nA\nC\n\n".toList ∧
      (make (Response.ofOutput other) none ["\u1680"] none).1 = none := by
  intro written read raw other root tree
  have same : Rearranged layers root tree := rearranged_listing (by decide +kernel)
  exact ⟨⟨by decide +kernel, by decide +kernel, by decide +kernel, same, by decide +kernel⟩,
    by decide +kernel, by decide +kernel⟩

end ManagementShell.Report
