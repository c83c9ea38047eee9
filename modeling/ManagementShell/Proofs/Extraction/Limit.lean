import ManagementShell.Proofs.Extraction.Listing

/-
This file shows that a limited search gives the first occurrences of the search without a limit, and
that a query is what it says about all occurrences.
-/

namespace ManagementShell

namespace Extraction
open Text

section

variable {field : Text} {count : Nat}

mutual

/-- As long as the limit is not reached, nothing was left out. -/
theorem searchFrom_take {found : List Match} (parent : Option Nat) (number : Nat)
    (element : Element) (room : found.length < count) :
    searchFrom field (some count) found parent number element =
      (searchFrom field none found parent number element).take count := by
  obtain ⟨tag, text, children⟩ := element
  cases children with
  | nil =>
      rw [searchFrom, searchFrom, List.take_of_length_le]
      split
      · rw [List.length_append, List.length_singleton]
        exact room
      · exact room.le
  | cons first rest =>
      rw [searchFrom, searchFrom]
      exact searchAmong_take _ _ (first :: rest) room

theorem searchAmong_take {found : List Match} (parent : Option Nat) (number : Nat)
    (elements : List Element) (room : found.length < count) :
    searchAmong field (some count) found parent number elements =
      (searchAmong field none found parent number elements).take count := by
  cases elements with
  | nil => rw [searchAmong, searchAmong, List.take_of_length_le room.le]
  | cons first rest =>
      have unlimited : searchAmong field none found parent number (first :: rest) = searchAmong field
          none (searchFrom field none found parent number first) parent (number + first.size) rest := by
        rw [searchAmong, isReached, if_neg Bool.false_ne_true]
      rw [searchAmong, unlimited, searchFrom_take parent number first room]
      by_cases few : (searchFrom field none found parent number first).length < count
      · -- All occurrences in the first element are kept, and the search goes on with them.
        rw [List.take_of_length_le few.le, if_neg (by simpa [isReached] using few)]
        exact searchAmong_take parent _ rest few
      · -- The limit is reached; what the rest of the elements add comes after it.
        have enough := Nat.le_of_not_lt few
        rw [if_pos (by simpa [isReached] using enough), searchAmong_eq,
          List.take_append_of_le_length enough]

end

end

theorem findAll_take (scope : Element.Place) (field : Text) (count : Nat) :
    findAll scope field (some (count + 1)) = (findAll scope field none).take (count + 1) :=
  searchFrom_take scope.parent scope.number scope.element (Nat.succ_pos count)

end Extraction

namespace Query
open Text

/-- What a query asks for among all occurrences of its field: that at a position, which must have
the expected value if there is one, or the first, or the first with the expected value. -/
def select (query : Query) (occurrences : List Match) : Option Match :=
  match query.position, query.expected with
  | some 0, _ => none
  | some (index + 1), expected =>
      occurrences[index]?.filter fun found => expected.all fun value => found.value == value
  | none, none => occurrences.head?
  | none, some value => occurrences.find? fun found => found.value == value

theorem find?_at (query : Query) (scope : Element.Place) (index : Nat) :
    (match (Extraction.findAll scope query.field (some (index + 1)))[index]? with
      | some found =>
          if query.expected = none ∨ query.expected = some found.value then some found else none
      | none => none) =
      (Extraction.findAll scope query.field none)[index]?.filter fun found =>
        query.expected.all fun value => found.value == value := by
  rw [Extraction.findAll_take, List.getElem?_take_of_lt (Nat.lt_succ_self index)]
  cases (Extraction.findAll scope query.field none)[index]? with
  | none => rfl
  | some found =>
      rw [Option.filter_some]
      cases query.expected with
      | none => rfl
      | some value =>
          simp only [reduceCtorEq, false_or, Option.some.injEq, Option.all_some, beq_iff_eq,
            eq_comm (a := value)]

theorem find?_eq_select (query : Query) (scope : Element.Place) :
    query.find? scope = query.select (Extraction.findAll scope query.field none) := by
  obtain ⟨field, expected, position⟩ := query
  cases position with
  | none =>
      cases expected with
      | none =>
          -- Without a position and a value, the limit is that of the first position.
          refine (find?_at ⟨field, none, none⟩ scope 0).trans ?_
          rw [select, List.head?_eq_getElem?]
          cases (Extraction.findAll scope field none)[0]? <;> rfl
      | some value => rfl
  | some position =>
      cases position with
      | zero => rfl
      | succ index => exact find?_at ⟨field, expected, some (index + 1)⟩ scope index

/-- A search with a limit agrees with the full one, and so does every query. -/
theorem limited_agrees (scope : Element.Place) (field : Text) :
    (∀ count, Extraction.findAll scope field (some (count + 1)) =
      (Extraction.findAll scope field none).take (count + 1)) ∧
    ∀ expected position, (Query.mk field expected position).find? scope =
      (Query.mk field expected position).select (Extraction.findAll scope field none) :=
  ⟨Extraction.findAll_take scope field, fun expected position =>
    find?_eq_select ⟨field, expected, position⟩ scope⟩

end Query

end ManagementShell
