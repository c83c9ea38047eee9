import ManagementShell.Extraction

/-
This file shows that places and matches stay inside the tree: their numbers are those of nodes, and
every node has a place.
-/

namespace ManagementShell

namespace Element

mutual

theorem length_nodesFrom (parent : Option Nat) (start : Nat) (element : Element) :
    (nodesFrom parent start element).length = element.size := by
  obtain ⟨tag, text, children⟩ := element
  rw [nodesFrom, size, List.length_cons, length_nodesOfAll]

theorem length_nodesOfAll (parent : Option Nat) (start : Nat) (elements : List Element) :
    (nodesOfAll parent start elements).length = sizeAll elements := by
  cases elements with
  | nil => rfl
  | cons first rest =>
      rw [nodesOfAll, sizeAll, List.length_append, length_nodesFrom, length_nodesOfAll]

end

theorem length_nodes (root : Element) : root.nodes.length = root.size := length_nodesFrom _ _ _

/-- The elements at the place and their parent have numbers below the bound. -/
structure Place.Within (bound : Nat) (place : Place) : Prop where
  elements : place.number + place.element.size ≤ bound
  parent : ∀ parent ∈ place.parent, parent < bound

section

variable {bound : Nat}

mutual

theorem placeFrom_within (parent : Option Nat) (start number : Nat) (element : Element)
    (fits : start + element.size ≤ bound) (above : ∀ outer ∈ parent, outer < bound) :
    ∀ place ∈ placeFrom parent start number element, place.Within bound := by
  obtain ⟨tag, text, children⟩ := element
  rw [placeFrom]
  split
  · rintro _ ⟨⟩
    exact ⟨fits, above⟩
  · rw [size] at fits
    refine placeAmong_within _ _ _ children (by omega) ?_
    rintro _ ⟨⟩
    omega

theorem placeAmong_within (parent : Option Nat) (start number : Nat) (elements : List Element)
    (fits : start + sizeAll elements ≤ bound) (above : ∀ outer ∈ parent, outer < bound) :
    ∀ place ∈ placeAmong parent start number elements, place.Within bound := by
  cases elements with
  | nil => exact fun _ none => by cases none
  | cons first rest =>
      rw [sizeAll] at fits
      rw [placeAmong]
      split
      · exact placeFrom_within _ _ _ first (by omega) above
      · exact placeAmong_within _ _ _ rest (by omega) above

end

end

theorem rootPlace_within (root : Element) : root.rootPlace.Within root.nodes.length :=
  ⟨by simp [rootPlace, length_nodes], fun _ none => by cases none⟩

theorem place?_within {root : Element} {number : Nat} {place : Place}
    (isPlace : root.place? number = some place) : place.Within root.nodes.length :=
  placeFrom_within none 0 number root (by simp [length_nodes]) (fun _ none => by cases none)
    place isPlace

mutual

theorem placeFrom_isSome (parent : Option Nat) {start number : Nat} (element : Element)
    (atLeast : start ≤ number) (below : number < start + element.size) :
    (placeFrom parent start number element).isSome = true := by
  obtain ⟨tag, text, children⟩ := element
  rw [placeFrom]
  split
  · rfl
  · rw [size] at below
    exact placeAmong_isSome _ children (by omega) (by omega)

theorem placeAmong_isSome (parent : Option Nat) {start number : Nat} (elements : List Element)
    (atLeast : start ≤ number) (below : number < start + sizeAll elements) :
    (placeAmong parent start number elements).isSome = true := by
  cases elements with
  | nil =>
      rw [sizeAll] at below
      omega
  | cons first rest =>
      rw [sizeAll] at below
      rw [placeAmong]
      split
      · exact placeFrom_isSome _ first atLeast ‹_›
      · exact placeAmong_isSome _ rest (by omega) (by omega)

end

/-- Every node has a place. -/
theorem place?_isSome {root : Element} {number : Nat} (isNode : number < root.nodes.length) :
    (root.place? number).isSome = true := by
  rw [length_nodes] at isNode
  exact placeFrom_isSome none root (Nat.zero_le _) (by omega)

end Element

/-- The match and its parent have numbers below the bound. -/
structure Match.Within (bound : Nat) (found : Match) : Prop where
  node : found.node < bound
  parent : ∀ parent ∈ found.parent, parent < bound

namespace Extraction

section

variable {bound : Nat} (field : Text) (limit : Option Nat)

mutual

theorem searchFrom_within {found : List Match} (parent : Option Nat) (number : Nat)
    (element : Element) (fits : number + element.size ≤ bound)
    (above : ∀ outer ∈ parent, outer < bound)
    (before : ∀ occurrence ∈ found, occurrence.Within bound) :
    ∀ occurrence ∈ searchFrom field limit found parent number element,
      occurrence.Within bound := by
  obtain ⟨tag, text, children⟩ := element
  rw [Element.size] at fits
  cases children with
  | nil =>
      rw [searchFrom]
      split
      · simp only [List.mem_append, List.mem_singleton, or_imp, forall_and, forall_eq]
        exact ⟨before, by dsimp only; omega, above⟩
      · exact before
  | cons first rest =>
      rw [searchFrom]
      refine searchAmong_within _ _ (first :: rest) (by omega) ?_ before
      rintro _ ⟨⟩
      omega

theorem searchAmong_within {found : List Match} (parent : Option Nat) (number : Nat)
    (elements : List Element) (fits : number + Element.sizeAll elements ≤ bound)
    (above : ∀ outer ∈ parent, outer < bound)
    (before : ∀ occurrence ∈ found, occurrence.Within bound) :
    ∀ occurrence ∈ searchAmong field limit found parent number elements,
      occurrence.Within bound := by
  cases elements with
  | nil => exact before
  | cons first rest =>
      rw [Element.sizeAll] at fits
      have now := searchFrom_within parent number first (by omega) above before
      rw [searchAmong]
      split
      · exact now
      · exact searchAmong_within _ _ rest (by omega) above now

end

end

theorem findAll_within {bound : Nat} {scope : Element.Place} (inside : scope.Within bound)
    (field : Text) (limit : Option Nat) :
    ∀ occurrence ∈ findAll scope field limit, occurrence.Within bound :=
  searchFrom_within field limit _ _ scope.element inside.elements inside.parent
    (List.forall_mem_nil _)

end Extraction

/-- What a query finds is one of the occurrences of its field. -/
theorem Query.find?_mem {query : Query} {scope : Element.Place} {found : Match}
    (isFound : query.find? scope = some found) :
    ∃ limit, found ∈ Extraction.findAll scope query.field limit := by
  unfold Query.find? at isFound
  split at isFound
  · exact ⟨_, List.mem_of_find?_eq_some isFound⟩
  · split at isFound
    · cases isFound
    · split at isFound
      · rename_i occurrence isOccurrence
        split at isFound
        · cases isFound
          exact ⟨_, List.mem_of_getElem? isOccurrence⟩
        · cases isFound
      · cases isFound

end ManagementShell
