import ManagementShell.Extraction.Report
import ManagementShell.Proofs.Order
import ManagementShell.Proofs.Outcome
import ManagementShell.Proofs.Place
import ManagementShell.Proofs.Response

/-
This file shows that what is extracted from a response has no character that the response lacks.
-/

namespace ManagementShell
open Text

variable {c : Char}

namespace Extraction

mutual

theorem searchFrom_lacks (field : Text) (limit : Option Nat) {found : List Match}
    (parent : Option Nat) (number : Nat) (element : Element) (lacks : element.Lacks c)
    (lacksFound : ∀ occurrence ∈ found, c ∉ occurrence.value) :
    ∀ occurrence ∈ searchFrom field limit found parent number element, c ∉ occurrence.value := by
  obtain ⟨tag, text, children⟩ := element
  cases children with
  | nil =>
      rw [searchFrom]
      split
      · simp only [List.mem_append, List.mem_singleton, or_imp, forall_and, forall_eq]
        exact ⟨lacksFound, lacks.2.1⟩
      · exact lacksFound
  | cons first rest =>
      rw [searchFrom]
      exact searchAmong_lacks field limit _ _ (first :: rest) lacks.2.2 lacksFound

theorem searchAmong_lacks (field : Text) (limit : Option Nat) {found : List Match}
    (parent : Option Nat) (number : Nat) (elements : List Element)
    (lacks : Element.AllLack c elements)
    (lacksFound : ∀ occurrence ∈ found, c ∉ occurrence.value) :
    ∀ occurrence ∈ searchAmong field limit found parent number elements,
      c ∉ occurrence.value := by
  cases elements with
  | nil => exact lacksFound
  | cons first rest =>
      have now := searchFrom_lacks field limit parent number first lacks.1 lacksFound
      rw [searchAmong]
      split
      · exact now
      · exact searchAmong_lacks field limit _ _ rest lacks.2 now

end

theorem findAll_lacks {scope : Element.Place} (lacks : scope.element.Lacks c) (field : Text)
    (limit : Option Nat) : ∀ occurrence ∈ findAll scope field limit, c ∉ occurrence.value :=
  searchFrom_lacks field limit _ _ scope.element lacks (by simp)

end Extraction

theorem Query.find?_lacks {query : Query} {scope : Element.Place} {found : Match}
    (lacks : scope.element.Lacks c) (isFound : query.find? scope = some found) :
    c ∉ found.value := by
  obtain ⟨limit, isOccurrence⟩ := Query.find?_mem isFound
  exact Extraction.findAll_lacks lacks _ limit _ isOccurrence

namespace Report

theorem expandStar_lacks {observed requested : List Text} (lacks : ∀ field ∈ observed, c ∉ field)
    (lacksToo : ∀ field ∈ requested, c ∉ field) : ∀ field ∈ expandStar observed requested, c ∉ field := by
  unfold expandStar
  split
  · simp only [List.mem_append, List.mem_filter]
    rintro field ((member | ⟨member, _⟩) | ⟨member, _⟩)
    · exact lacksToo field (List.takeWhile_subset _ member)
    · exact lacks field member
    · exact lacksToo field (List.dropWhile_subset _ (List.mem_of_mem_drop member))
  · exact lacksToo

theorem sought_lacks {observed requested : List Text} {key : Text}
    (lacks : ∀ field ∈ observed, c ∉ field) (lacksToo : ∀ field ∈ requested, c ∉ field)
    (lacksKey : c ∉ key) : ∀ field ∈ sought observed requested key, c ∉ field := by
  have expanded := expandStar_lacks lacks lacksToo
  unfold sought
  dsimp only
  split
  · simp only [List.mem_append, List.mem_singleton, or_imp, forall_and, forall_eq]
    exact ⟨expanded, lacksKey⟩
  · exact expanded

/-- Neither the name nor a value of the column has the character. -/
def Column.Lacks (c : Char) (column : Column) : Prop :=
  c ∉ column.name ∧ ∀ value ∈ column.values, c ∉ value

theorem column_lacks (fresh : Fresh c) (parts : Nat) {scope : Option Element.Place} {field : Text}
    (lacks : ∀ place ∈ scope, place.element.Lacks c) (lacksField : c ∉ field) :
    Gives (column parts scope field) (fun column => column.Lacks c) fun record =>
      c ∉ record.message := by
  have warning {before after : List Char} (first : areFixed before = true)
      (last : areFixed after = true) :
      c ∉ (String.ofList before).toList ++ field ++ (String.ofList after).toList := by
    simp only [List.mem_append, not_or]
    exact ⟨⟨fresh.literal first, lacksField⟩, fresh.literal last⟩
  have noData : c ∉ ("No data for field '" : Text) ++ field ++ "', skipping" :=
    warning (by decide) (by decide)
  have multiValue : c ∉ ("Multi-value field '" : Text) ++ field ++ "', skipping" :=
    warning (by decide) (by decide)
  cases scope with
  | none => exact noData
  | some place =>
      have values : ∀ value ∈ (Extraction.findAll place field none).map Match.value, c ∉ value := by
        intro value member
        obtain ⟨occurrence, isOccurrence, rfl⟩ := List.mem_map.mp member
        exact Extraction.findAll_lacks (lacks place rfl) _ _ occurrence isOccurrence
      unfold column
      dsimp only
      split
      · exact noData
      · split
        · exact multiValue
        · exact ⟨lacksField, values⟩

section

variable {found : List Column} (lacks : ∀ column ∈ found, column.Lacks c)
include lacks

theorem rows_lacks (parts : Nat) : ∀ row ∈ rows parts found, ∀ cell ∈ row, c ∉ cell := by
  intro row isRow cell isCell
  obtain ⟨index, _, rfl⟩ := List.mem_map.mp isRow
  obtain ⟨column, isColumn, rfl⟩ := List.mem_map.mp isCell
  rw [List.getD_eq_getElem?_getD]
  cases isValue : column.values[index]? with
  | none => exact List.not_mem_nil
  | some value => exact (lacks column isColumn).2 value (List.mem_of_getElem? isValue)

omit lacks in
theorem kept_subset (key value : Text) (rows : List (List Text)) :
    ∀ row ∈ kept found key value rows, row ∈ rows := by
  unfold kept
  split
  · exact fun row member => (List.mem_filter.mp member).1
  · exact fun row member => member

omit lacks in
theorem visible_subset {α : Type} (hidden : Text) (cells : List α) :
    ∀ cell ∈ visible found hidden cells, cell ∈ cells := by
  intro cell member
  obtain ⟨entry, isEntry, rfl⟩ := List.mem_map.mp member
  exact (List.of_mem_zip (List.mem_filter.mp isEntry).1).2

omit lacks in
theorem line_lacks (fresh : Fresh c) (widths : List Nat) {cells : List Text}
    (lacksCells : ∀ cell ∈ cells, c ∉ cell) : c ∉ line widths cells := by
  have ends : c ∉ ("\n" : Text) := fresh.literal (by decide)
  have padded : ∀ part ∈ List.zipWith padRight widths cells, c ∉ part := by
    intro part member
    obtain ⟨entry, isEntry, rfl⟩ := List.mem_map.mp (List.map_uncurry_zip_eq_zipWith ▸ member)
    exact padRight_lacks fresh (lacksCells _ (List.of_mem_zip isEntry).2)
  unfold line
  rw [List.mem_append, not_or]
  exact ⟨trimEnd_lacks (join_lacks (fresh.literal (by decide)) padded), ends⟩

theorem table_lacks (fresh : Fresh c) (hidden : Text) {shownRows : List (List Text)}
    (lacksRows : ∀ row ∈ shownRows, ∀ cell ∈ row, c ∉ cell) :
    c ∉ table found hidden shownRows := by
  have ends : c ∉ ("\n" : Text) := fresh.literal (by decide)
  have names : ∀ name ∈ visible found hidden (found.map Column.name), c ∉ name := by
    intro name member
    obtain ⟨column, isColumn, rfl⟩ := List.mem_map.mp (visible_subset hidden _ name member)
    exact (lacks column isColumn).1
  have rule (width : Nat) : c ∉ List.replicate width '-' := by
    have dash : c ≠ '-' := fresh.ne (by decide)
    simp [dash]
  unfold table
  simp only [List.mem_append, not_or, List.mem_flatMap, not_exists, not_and]
  refine ⟨⟨⟨⟨ends, line_lacks fresh _ names⟩, line_lacks fresh _ ?_⟩, ?_⟩, ends⟩
  · intro part member
    obtain ⟨width, _, rfl⟩ := List.mem_map.mp member
    exact rule width
  · intro row isRow
    exact line_lacks fresh _ fun cell member => lacksRows row isRow cell (visible_subset hidden _ cell member)

end

theorem columns_lacks {attempts : List (Except Record Column)}
    (lacks : ∀ attempt ∈ attempts, Gives attempt (fun column => column.Lacks c) fun record =>
      c ∉ record.message) : ∀ column ∈ columns attempts, column.Lacks c := by
  intro column member
  obtain ⟨attempt, isAttempt, isColumn⟩ := List.mem_filterMap.mp member
  have given := lacks attempt isAttempt
  cases attempt with
  | error record => cases isColumn
  | ok made =>
      cases isColumn
      exact given

theorem records_lacks {attempts : List (Except Record Column)}
    (lacks : ∀ attempt ∈ attempts, Gives attempt (fun column => column.Lacks c) fun record =>
      c ∉ record.message) : ∀ record ∈ records attempts, c ∉ record.message := by
  intro record member
  obtain ⟨attempt, isAttempt, isRecord⟩ := List.mem_filterMap.mp member
  have given := lacks attempt isAttempt
  cases attempt with
  | error made =>
      cases isRecord
      exact given
  | ok column => cases isRecord

theorem layOut_lacks (fresh : Fresh c) (parts : Nat) {attempts : List (Except Record Column)}
    (lacks : ∀ attempt ∈ attempts, Gives attempt (fun column => column.Lacks c) fun record =>
      c ∉ record.message) (key value : Text) :
    (∀ text ∈ (layOut parts attempts key value).1, c ∉ text) ∧
      ∀ record ∈ (layOut parts attempts key value).2, c ∉ record.message := by
  have found := columns_lacks lacks
  have warnings := records_lacks lacks
  unfold layOut
  dsimp only
  split
  · exact ⟨by simp, warnings⟩
  · refine ⟨?_, warnings⟩
    rintro _ ⟨⟩
    apply table_lacks found fresh
    intro row isRow
    exact rows_lacks found parts row (kept_subset _ _ _ row (mem_sort.mp isRow))

/-- Neither the table nor a warning has a character that the response and the request lack. -/
theorem make_lacks (fresh : Fresh c) {response : Response} {scope : Option Element.Place}
    {requested : List Text} {filter : Option (Text × Text)} (lacks : response.Lacks c)
    (lacksScope : ∀ place ∈ scope, place.element.Lacks c)
    (lacksRequested : ∀ field ∈ requested, c ∉ field)
    (lacksFilter : ∀ pair ∈ filter, c ∉ pair.1) :
    (∀ text ∈ (make response scope requested filter).1, c ∉ text) ∧
      ∀ record ∈ (make response scope requested filter).2, c ∉ record.message := by
  have observed : ∀ field ∈ (response.tree.map Element.fields).getD [], c ∉ field := by
    cases isTree : response.tree with
    | none => simp
    | some root => exact Element.fields_lacks (lacks.tree root isTree)
  have lacksKey : c ∉ (filter.getD ([], [])).1 := by
    cases filter with
    | none => exact List.not_mem_nil
    | some pair => exact lacksFilter pair rfl
  have root : ∀ place ∈ response.tree.map Element.rootPlace, place.element.Lacks c := by
    intro place isPlace
    obtain ⟨root, isRoot, rfl⟩ := Option.map_eq_some_iff.mp isPlace
    exact lacks.tree root isRoot
  apply layOut_lacks fresh
  intro attempt member
  obtain ⟨field, isField, rfl⟩ := List.mem_map.mp member
  refine column_lacks fresh _ ?_ (sought_lacks observed lacksRequested lacksKey field isField)
  cases scope with
  | none => exact root
  | some place => exact lacksScope

end Report

end ManagementShell
