import ManagementShell.Proofs.Extraction.Columns

/-
This file shows that a table with a filter has the rows at whose places the key has the value, if the
key has a column.
-/

namespace ManagementShell.Report
open Text

theorem mem_sought {observed requested : List Text} {key : Text} (nonempty : key ≠ []) :
    key ∈ sought observed requested key := by
  unfold sought
  dsimp only
  split
  · simp
  · rename_i contained
    simpa [nonempty] using contained

section

variable (response : Response) (scope : Option Element.Place)

/-- The values of the fields at a place. -/
def rowAt (fields : List Text) (index : Nat) : List Text :=
  fields.map fun field => (occurrences response scope field).getD index []

/-- The places at which a field has a value. -/
def placesOf (field value : Text) : List Nat :=
  (List.range response.parts).filter fun index =>
    (occurrences response scope field)[index]? = some value

variable {response scope}

theorem rows_eq (fields : List Text) :
    rows response.parts (fields.map (columnOf response scope)) =
      (List.range response.parts).map (rowAt response scope fields) := by
  unfold rows rowAt
  simp [columnOf]

/-- The cell in the column of the key is the value of the key at the place of the row. -/
theorem kept_eq {fields : List Text} {key : Text} (usable : IsUsable response scope key)
    (member : key ∈ fields) (value : Text) :
    kept (fields.map (columnOf response scope)) key value
        (rows response.parts (fields.map (columnOf response scope))) =
      (placesOf response scope key value).map (rowAt response scope fields) := by
  have isColumn : ((fields.map (columnOf response scope)).findIdx?
      fun column => column.name == key).isSome = true := by
    rw [List.findIdx?_isSome, List.any_map, List.any_eq_true]
    exact ⟨key, member, beq_self_eq_true key⟩
  obtain ⟨position, isPosition⟩ := Option.isSome_iff_exists.mp isColumn
  obtain ⟨inside, isKey, -⟩ := List.findIdx?_eq_some_iff_getElem.mp isPosition
  rw [List.length_map] at inside
  have same : fields[position] = key := by simpa [columnOf] using isKey
  rw [kept, isPosition, rows_eq]
  dsimp only
  rw [List.filter_map, placesOf]
  congr 1
  refine List.filter_congr fun index isIndex => ?_
  have isPlace : index < (occurrences response scope key).length :=
    usable.2 ▸ List.mem_range.mp isIndex
  have isCell : (rowAt response scope fields index)[position]? =
      (occurrences response scope key)[index]? := by
    rw [rowAt, List.getElem?_map, List.getElem?_eq_getElem inside, same, Option.map_some,
      List.getD_eq_getElem?_getD, List.getElem?_eq_getElem isPlace, Option.getD_some]
  rw [Function.comp_apply, isCell, beq_eq_decide]

end

/-- If the key of a filter has a column, the rows of the table are those of the places at which the
key has the value, and no others. -/
theorem make_filtered {response : Response} {scope : Option Element.Place} {requested : List Text}
    {key value : Text} (nonempty : key ≠ []) (usable : IsUsable response scope key) {text : Text}
    (isTable : (make response scope requested (some (key, value))).1 = some text) :
    ∃ shown, text = table ((usableFields response scope requested key).map
        (columnOf response scope)) key shown ∧
      shown.Perm ((placesOf response scope key value).map
        (rowAt response scope (usableFields response scope requested key))) := by
  have member : key ∈ usableFields response scope requested key :=
    List.mem_filter.mpr ⟨mem_sought nonempty, by simpa using usable⟩
  have hides : hiddenName ((usableFields response scope requested key).map
      (columnOf response scope)) key = key := by
    refine if_pos (List.any_eq_true.mpr ⟨columnOf response scope key, List.mem_map_of_mem member, ?_⟩)
    exact beq_self_eq_true key
  rw [make_eq, printed, made_eq] at isTable
  dsimp only [Option.getD_some] at isTable
  split at isTable
  · cases isTable
  · rw [hides, kept_eq usable member] at isTable
    exact ⟨_, (Option.some.inj isTable).symm, sort_perm _⟩

/-- The filter is on a field of the second answer. -/
theorem make_filtered_second :
    ∃ shown, ("\nFQDD\n------\nAHCI.2\n\n" : Text) =
        table ((usableFields (Response.ofOutput twoAnswers) none ["FQDD"] "Slot").map
          (columnOf (Response.ofOutput twoAnswers) none)) "Slot" shown ∧
      shown.Perm [["AHCI.2", "4"]] := by
  have usable : IsUsable (Response.ofOutput twoAnswers) none "Slot" := by decide +kernel
  have isTable : (make (Response.ofOutput twoAnswers) none ["FQDD"] (some ("Slot", "4"))).1 =
      some ("\nFQDD\n------\nAHCI.2\n\n" : Text) := by decide +kernel
  have areRows : (placesOf (Response.ofOutput twoAnswers) none "Slot" "4").map
      (rowAt (Response.ofOutput twoAnswers) none
        (usableFields (Response.ofOutput twoAnswers) none ["FQDD"] "Slot")) =
      ([["AHCI.2", "4"]] : List (List Text)) := by decide +kernel
  obtain ⟨shown, isText, isPerm⟩ := make_filtered (by decide) usable isTable
  exact ⟨shown, isText, areRows ▸ isPerm⟩

/-- A key that has no column filters nothing. -/
theorem make_unfiltered :
    occurrences (Response.ofOutput twoAnswers) none "Serial" = [] ∧
      (make (Response.ofOutput twoAnswers) none ["FQDD"] (some ("Serial", "4"))).1 =
        some ("\nFQDD\n------\nAHCI.2\nRAID.1\n\n" : Text) := by
  decide +kernel

end ManagementShell.Report
