import ManagementShell.Proofs.Extraction.Rows

/-
This file shows which columns a table has: those of the fields that have one value for each part of
the response.
-/

namespace ManagementShell.Report
open Text

theorem expandStar_explicit {observed requested : List Text} (explicit : star ∉ requested) :
    expandStar observed requested = requested := if_neg (by simpa using explicit)

/-- Without a star, the fields of a table do not depend on what the response has. -/
theorem sought_explicit {observed requested : List Text} (explicit : star ∉ requested) (key : Text) :
    sought observed requested key =
      if key ≠ [] ∧ key ∉ requested then requested ++ [key] else requested := by
  simp only [sought, expandStar_explicit explicit, List.contains_iff_mem, Bool.not_eq_true',
    ← Bool.not_eq_true]

theorem mem_sought_explicit {observed requested : List Text} {key field : Text}
    (explicit : star ∉ requested) (isSought : field ∈ sought observed requested key) :
    field ∈ requested ∨ field = key ∧ key ≠ [] := by
  rw [sought_explicit explicit] at isSought
  split at isSought
  · rename_i isNew
    rw [List.mem_append, List.mem_singleton] at isSought
    exact isSought.imp_right fun isKey => ⟨isKey, isNew.1⟩
  · exact .inl isSought

section

variable (response : Response) (scope : Option Element.Place)

/-- The place in which the fields of a table are searched. -/
def searched : Option Element.Place :=
  match scope with
  | some place => some place
  | none => response.tree.map Element.rootPlace

/-- The values of a field that a table finds, in document order. -/
def occurrences (field : Text) : List Text :=
  match searched response scope with
  | some place => (Extraction.findAll place field none).map Match.value
  | none => []

/-- The field has one value for each part of the response. -/
def IsUsable (field : Text) : Prop :=
  occurrences response scope field ≠ [] ∧
    (occurrences response scope field).length = response.parts

instance (field : Text) : Decidable (IsUsable response scope field) :=
  inferInstanceAs (Decidable (_ ∧ _))

/-- Why a field has no column. -/
def warning? (field : Text) : Option Record :=
  if occurrences response scope field = [] then
    some ⟨.warning, "No data for field '" ++ field ++ "', skipping"⟩
  else if (occurrences response scope field).length ≠ response.parts then
    some ⟨.warning, "Multi-value field '" ++ field ++ "', skipping"⟩
  else none

/-- The column of a field. -/
def columnOf (field : Text) : Column := ⟨field, occurrences response scope field⟩

theorem map_name_columnOf (fields : List Text) :
    (fields.map (columnOf response scope)).map Column.name = fields := by
  rw [List.map_map]
  exact List.map_id _

/-- The fields whose columns a table has. -/
def usableFields (requested : List Text) (key : Text) : List Text :=
  (sought ((response.tree.map Element.fields).getD []) requested key).filter
    fun field => IsUsable response scope field

/-- The rows of a table in the order in which they are printed. -/
def printed (requested : List Text) (filter : Option (Text × Text)) : List (List Text) :=
  let found := made response scope requested filter
  sort rowPrecedes (kept found (filter.getD ([], [])).1 (filter.getD ([], [])).2
    (rows response.parts found))

variable {response scope}

theorem occurrences_eq {place : Element.Place} (isSearched : searched response scope = some place)
    (field : Text) : occurrences response scope field = place.element.values field := by
  rw [occurrences, isSearched]
  exact Extraction.findAll_values field place

/-- A field has a column or a warning, and never both. -/
theorem column_eq (field : Text) : column response.parts (searched response scope) field =
    match warning? response scope field with
    | some record => .error record
    | none => .ok (columnOf response scope field) := by
  rw [warning?]
  split_ifs with isEmpty incomplete
  · exact if_pos isEmpty
  · exact (if_neg isEmpty).trans (if_pos incomplete)
  · exact (if_neg isEmpty).trans (if_neg incomplete)

theorem warning?_eq_none_iff {field : Text} :
    warning? response scope field = none ↔ IsUsable response scope field := by
  rw [warning?, IsUsable]
  split_ifs <;> simp_all

theorem made_eq (requested : List Text) (filter : Option (Text × Text)) :
    made response scope requested filter =
      (usableFields response scope requested (filter.getD ([], [])).1).map
        (columnOf response scope) := by
  have attempted : attempts response scope requested filter =
      (sought ((response.tree.map Element.fields).getD []) requested (filter.getD ([], [])).1).map
        (column response.parts (searched response scope)) := rfl
  rw [made, attempted, columns, usableFields, List.filterMap_map]
  generalize sought _ _ _ = fields
  induction fields with
  | nil => rfl
  | cons field fields inductionHypothesis =>
      rw [List.filterMap_cons, Function.comp_apply, column_eq, inductionHypothesis]
      cases isWarning : warning? response scope field with
      | none =>
          rw [List.filter_cons_of_pos (by simpa using warning?_eq_none_iff.mp isWarning)]
          rfl
      | some record =>
          have unusable : ¬IsUsable response scope field := fun usable => by
            simp [warning?_eq_none_iff.mpr usable] at isWarning
          rw [List.filter_cons_of_neg (by simpa using unusable)]
          rfl

/-- There is a warning for each field without a column. -/
theorem make_records (requested : List Text) (filter : Option (Text × Text)) :
    (make response scope requested filter).2 =
      (sought ((response.tree.map Element.fields).getD []) requested
        (filter.getD ([], [])).1).filterMap (warning? response scope) := by
  have laidOut : (make response scope requested filter).2 =
      records ((sought ((response.tree.map Element.fields).getD []) requested
        (filter.getD ([], [])).1).map (column response.parts (searched response scope))) :=
    (apply_ite Prod.snd _ _ _).trans (ite_self _)
  rw [laidOut, records, List.filterMap_map]
  refine List.filterMap_congr fun field _ => ?_
  rw [Function.comp_apply, column_eq]
  cases warning? response scope field <;> rfl

/-- There is a table if some column is shown. -/
theorem make_eq (requested : List Text) (filter : Option (Text × Text)) :
    (make response scope requested filter).1 =
      if made response scope requested filter = [] ∨
          (made response scope requested filter).map Column.name = [(filter.getD ([], [])).1] then
        none
      else some (table (made response scope requested filter)
        (hiddenName (made response scope requested filter) (filter.getD ([], [])).1)
        (printed response scope requested filter)) := by
  have laidOut : make response scope requested filter = layOut response.parts
      (attempts response scope requested filter) (filter.getD ([], [])).1
        (filter.getD ([], [])).2 := rfl
  rw [laidOut]
  exact apply_ite Prod.fst _ _ _

end

end ManagementShell.Report
