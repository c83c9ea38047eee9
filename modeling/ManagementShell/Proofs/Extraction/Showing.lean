import ManagementShell.Proofs.Extraction.Filtering

/-
This file shows for which fields there is a table: for usable ones other than the key, or for a key
that is requested more than once.
-/

namespace ManagementShell.Report
open Text

/-- A list has another member or the member twice unless it is empty or has nothing but the member
once. -/
theorem other_or_twice {α : Type} [BEq α] [LawfulBEq α] {items : List α} {item : α} :
    (items ≠ [] ∧ items ≠ [item]) ↔ (∃ other ∈ items, other ≠ item) ∨ 1 < items.count item := by
  by_cases all : ∀ other ∈ items, other = item
  · have same := List.eq_replicate_of_mem all
    have isCount : items.count item = items.length := List.count_eq_length.mpr fun other member =>
      (all other member).symm
    have none : ¬∃ other ∈ items, other ≠ item := fun ⟨other, member, differs⟩ =>
      differs (all other member)
    rw [or_iff_right none, isCount]
    constructor
    · rintro ⟨nonempty, notSingle⟩
      have notOne : items.length ≠ 1 := fun isOne => notSingle (by rw [same, isOne]; rfl)
      have positive := List.length_pos_iff.mpr nonempty
      omega
    · intro several
      constructor <;>
        · rintro rfl
          simp at several
  · push Not at all
    obtain ⟨other, member, differs⟩ := all
    refine iff_of_true ⟨List.ne_nil_of_mem member, ?_⟩ (.inl ⟨other, member, differs⟩)
    rintro rfl
    exact differs (List.mem_singleton.mp member)

section

variable {observed requested : List Text} {key : Text}

/-- A filter adds nothing to the fields but its key. -/
theorem mem_sought_of_ne {field : Text} (differs : field ≠ key) :
    field ∈ sought observed requested key ↔ field ∈ expandStar observed requested := by
  unfold sought
  dsimp only
  split
  · rw [List.mem_append, List.mem_singleton, or_iff_left differs]
  · rfl

/-- A key that is not requested is added once. -/
theorem one_lt_count_sought : 1 < (sought observed requested key).count key ↔
    1 < (expandStar observed requested).count key := by
  unfold sought
  dsimp only
  split
  · rename_i isNew
    have absent : key ∉ expandStar observed requested := by simpa using isNew.2
    rw [List.count_append, List.count_eq_zero_of_not_mem absent, List.count_singleton_self]
    omega
  · rfl

end

/-- The fields of a table without the key of its filter, with the observed ones for a star. -/
def fieldsOf (response : Response) (requested : List Text) : List Text :=
  expandStar ((response.tree.map Element.fields).getD []) requested

section

variable {response : Response} {scope : Option Element.Place} {requested : List Text}
  {filter : Option (Text × Text)}

/-- There is a table if a field other than the key is usable, or if the key is usable and requested
more than once. Where there is no filter, the empty name is taken for its key. -/
theorem isSome_make : (make response scope requested filter).1.isSome = true ↔
    (∃ field ∈ fieldsOf response requested,
        field ≠ (filter.getD ([], [])).1 ∧ IsUsable response scope field) ∨
      1 < (fieldsOf response requested).count (filter.getD ([], [])).1 ∧
        IsUsable response scope (filter.getD ([], [])).1 := by
  have shows : (make response scope requested filter).1.isSome = true ↔
      usableFields response scope requested (filter.getD ([], [])).1 ≠ [] ∧
        usableFields response scope requested (filter.getD ([], [])).1 ≠
          [(filter.getD ([], [])).1] := by
    rw [make_eq, made_eq, map_name_columnOf, ← not_or]
    simp only [List.map_eq_nil_iff]
    split <;> simp_all
  rw [shows, other_or_twice]
  generalize (filter.getD ([], [])).1 = key
  refine or_congr (exists_congr fun field => ?_) ?_
  · rw [usableFields, List.mem_filter, decide_eq_true_iff]
    constructor
    · rintro ⟨⟨isSought, usable⟩, differs⟩
      exact ⟨(mem_sought_of_ne differs).mp isSought, differs, usable⟩
    · rintro ⟨isField, differs, usable⟩
      exact ⟨⟨(mem_sought_of_ne differs).mpr isField, usable⟩, differs⟩
  · by_cases usable : IsUsable response scope key
    · rw [and_iff_left usable, usableFields, List.count_filter (by simpa using usable),
        one_lt_count_sought, fieldsOf]
    · have absent : key ∉ usableFields response scope requested key := by
        simp [usableFields, usable]
      rw [List.count_eq_zero_of_not_mem absent]
      exact iff_of_false (by omega) fun both => usable both.2

/-- There is a table if and only if a field is usable that is not the key of the filter, unless the
key is requested more than once or, where there is no filter, a field has an empty name. -/
theorem make_displays
    (once : ∀ entry ∈ filter, (fieldsOf response requested).count entry.1 ≤ 1)
    (named : filter = none → [] ∉ fieldsOf response requested) :
    (make response scope requested filter).1.isSome = true ↔
      ∃ field ∈ fieldsOf response requested,
        (∀ entry ∈ filter, field ≠ entry.1) ∧ IsUsable response scope field := by
  rw [isSome_make]
  cases filter with
  | none =>
      have absent := named rfl
      have never : ¬1 < (fieldsOf response requested).count [] := by
        rw [List.count_eq_zero_of_not_mem absent]
        omega
      rw [Option.getD_none, or_iff_left fun both => never both.1]
      refine exists_congr fun field => and_congr_right fun isField => and_congr_left' ?_
      refine iff_of_true (fun isEmpty => absent ?_) fun _ none => by cases none
      exact (show field = [] from isEmpty) ▸ isField
  | some entry =>
      have atMost := once entry rfl
      rw [Option.getD_some, or_iff_left fun both => by omega]
      refine exists_congr fun field => and_congr_right fun _ => and_congr_left' ?_
      exact ⟨fun differs _ given => by cases given; exact differs, fun differs => differs entry rfl⟩

end

/-- All observed fields are requested, and one of them is the key. -/
theorem make_displays_star :
    (∀ entry ∈ some (("Slot", "4") : Text × Text),
        (fieldsOf (Response.ofOutput twoAnswers) ["*"]).count entry.1 ≤ 1) ∧
      (make (Response.ofOutput twoAnswers) none ["*"] (some ("Slot", "4"))).1.isSome = true := by
  have once : ∀ entry ∈ some (("Slot", "4") : Text × Text),
      (fieldsOf (Response.ofOutput twoAnswers) ["*"]).count entry.1 ≤ 1 := by decide +kernel
  have shown : ∃ field ∈ fieldsOf (Response.ofOutput twoAnswers) ["*"],
      (∀ entry ∈ some (("Slot", "4") : Text × Text), field ≠ entry.1) ∧
        IsUsable (Response.ofOutput twoAnswers) none field := by decide +kernel
  exact ⟨once, (make_displays once fun none => by cases none).mpr shown⟩

/-- A selector whose name is empty. -/
def nameless : Text := answer "PullResponse" (enclose "View" "<Selector Name=''>NIC.1</Selector>")

/-- If the key is requested twice, there is a table without a column to show. If there is no filter,
there is no table of a field whose name is empty. -/
theorem make_not_displays :
    (∀ field ∈ fieldsOf (Response.ofOutput twoAnswers) ["FQDD", "FQDD"], field = ("FQDD" : Text)) ∧
      (make (Response.ofOutput twoAnswers) none ["FQDD", "FQDD"] (some ("FQDD", "RAID.1"))).1 =
        some ("\n\n\n\n\n" : Text) ∧
      [] ∈ fieldsOf (Response.ofOutput nameless) [[]] ∧
      IsUsable (Response.ofOutput nameless) none [] ∧
      (make (Response.ofOutput nameless) none [[]] none).1 = none := by
  decide +kernel

end ManagementShell.Report
