import ManagementShell.Proofs.Xml.Reading
import ManagementShell.Proofs.Xml.Writing

/-
This file shows that every element of a document has a name, which is written in the characters of
names, and that its text is trimmed and made of characters that a document can hold, as are the
values of its attributes.
-/

namespace ManagementShell
open Text

/-- The element and all elements inside it have names. -/
def Element.AllNamed (root : Element) : Prop := ∀ inner ∈ root.inOrder, Xml.IsBase inner.tag.base

namespace Xml

theorem IsBase.ne_nil {name : Text} (isBase : IsBase name) : name ≠ [] := by
  rintro rfl
  exact absurd isBase.start (by decide)

theorem isBase_of_splitOn {written base : Text} (areMembers : written.all isNameCharacter = true)
    (isPart : base ∈ Text.splitOn written ':') (start : base.head?.any isNameStart = true) :
    IsBase base where
  start := start
  characters := by
    refine List.all_eq_true.mpr fun character member => List.all_eq_true.mp areMembers _ ?_
    exact not_not.mp fun absent => splitOn_lacks absent base isPart member
  noColon := splitOn_separator written ':' base isPart

theorem name?_isBase {text rest : Text} {name : Name} (isName : name? text = some (name, rest)) :
    IsBase name.base := by
  have members : (text.takeWhile isNameCharacter).all isNameCharacter = true := List.all_takeWhile
  have isBase {base : Text} (isPart : base ∈ Text.splitOn _ ':')
      (start : base.head?.any isNameStart = true) : IsBase base :=
    isBase_of_splitOn members isPart start
  unfold name? at isName
  dsimp only at isName
  split at isName
  · rename_i base isSplit
    split at isName
    · rename_i start
      cases isName
      exact isBase (isSplit ▸ List.mem_singleton_self base) start
    · cases isName
  · rename_i qualifier base isSplit
    split at isName
    · rename_i starts
      cases isName
      exact isBase (isSplit ▸ by simp) (Bool.and_eq_true _ _ ▸ starts).2
    · cases isName
  · cases isName

theorem Unclosed.tag_close (unclosed : Unclosed) : unclosed.close.tag = unclosed.tag := by
  obtain ⟨name, scope, tag, text, children⟩ := unclosed
  cases children <;> rfl

theorem resolved?_values {scope : Scope} {seen : List (Option Text × Text)}
    {attributes : List (Name × Text)} {kept : List (Text × Text)}
    (resolves : resolved? scope seen attributes = some kept) :
    kept.map Prod.snd = attributes.map Prod.snd := by
  induction attributes generalizing seen kept with
  | nil =>
      cases resolves
      rfl
  | cons entry rest inductionHypothesis =>
      unfold resolved? at resolves
      split at resolves
      · cases resolves
      split at resolves
      · cases resolves
      · obtain ⟨others, areOthers, rfl⟩ := Option.map_eq_some_iff.mp resolves
        rw [List.map_cons, List.map_cons, inductionHypothesis areOthers]

/-- The base of a tag is that of the name, and the values of its attributes are given ones. -/
theorem tag?_eq_some {outer scope : Scope} {name : Name} {attributes : List (Name × Text)} {tag : Tag}
    (isTag : tag? outer name attributes = some (scope, tag)) :
    tag.base = name.base ∧ tag.attributes.map Prod.snd ⊆ attributes.map Prod.snd := by
  unfold tag? at isTag
  split at isTag
  · cases isTag
  split at isTag
  · cases isTag
  dsimp only at isTag
  split at isTag
  · cases isTag
  rename_i kept resolves
  split at isTag
  · cases isTag
  · cases isTag
    refine ⟨rfl, ?_⟩
    rw [resolved?_values resolves]
    exact List.map_subset _ (List.filter_subset_self _)

theorem parse?_allNamed {document : Text} {root : Element} (parsed : parse? document = some root) :
    root.AllNamed := by
  refine parse?_forall (fun tag _ => IsBase tag.base) (fun element => IsBase element.tag.base)
    (fun unclosed isBase => unclosed.tag_close ▸ isBase) (fun piece isRead => ?_) parsed
  cases isRead with
  | opening isName _ =>
      intro outer scope tag isTag
      exact (tag?_eq_some isTag).1 ▸ name?_isBase isName
  | text | blank => exact fun _ _ isBase => isBase
  | closing | silent => trivial

/-- An element that is closed has children or the text that is left between its tags. -/
theorem Unclosed.text_close (unclosed : Unclosed) :
    ∀ text ∈ unclosed.close.text?, text = trim unclosed.text := by
  obtain ⟨name, scope, tag, content, children⟩ := unclosed
  intro text isText
  cases children with
  | nil => exact (Option.some.inj isText).symm
  | cons first rest =>
      have isClosed : Unclosed.close ⟨name, scope, tag, content, first :: rest⟩ =
          .mk tag [] (first :: rest).reverse := rfl
      obtain ⟨child, others, areChildren⟩ :=
        List.exists_cons_of_ne_nil (mt List.reverse_eq_nil_iff.mp (List.cons_ne_nil first rest))
      rw [isClosed, areChildren] at isText
      cases isText

/-- The text of an element is trimmed when its end is read. -/
theorem parse?_trimmed {document : Text} {root : Element} (parsed : parse? document = some root) :
    ∀ inner ∈ root.inOrder, ∀ text ∈ inner.text?, Trimmed text := by
  refine parse?_forall (fun _ _ => True) (fun element => ∀ text ∈ element.text?, Trimmed text)
    (fun unclosed _ text isText => ?_) (fun piece _ => ?_) parsed
  · exact unclosed.text_close text isText ▸ trimmed_trim unclosed.text
  · cases piece with
    | opening => exact fun _ _ _ _ => trivial
    | text | blank => exact fun _ _ _ => trivial
    | closing | silent => trivial

theorem attribute?_proper {text value rest : Text} {name : Name}
    (isAttribute : attribute? text = some (name, value, rest)) : IsProper value := by
  obtain ⟨_, _, quote, inside, _, _, _, _, isValue⟩ := attribute?_eq_some.mp isAttribute
  unfold quotedValue? at isValue
  split at isValue
  · rename_i isCut
    split at isValue
    · cases isValue
    · cases isValue
      exact upTo?_proper isCut
  · cases isValue

/-- The induction is on the attributes that are left. -/
theorem attributes?_proper {text rest : Text} {attributes : List (Name × Text)} {isEmpty : Bool}
    (areAttributes : attributes? text = some (attributes, isEmpty, rest)) :
    ∀ value ∈ attributes.map Prod.snd, IsProper value := by
  induction attributes generalizing text with
  | nil => exact List.forall_mem_nil _
  | cons entry others inductionHypothesis =>
      rcases attributes?_cases areAttributes with ⟨-, none, -⟩ | ⟨-, none, -⟩ |
        ⟨name, written, after, data, more, -, isAttribute, -, isData, areOthers, same⟩
      · cases none
      · cases none
      · cases same
        have proper := attributeValue_proper (dataFrom_proper (attribute?_proper isAttribute) isData)
        exact List.forall_mem_cons.mpr ⟨proper, inductionHypothesis areOthers⟩

/-- What an element says is made of characters that a document can hold. -/
theorem parse?_proper {document : Text} {root : Element} (parsed : parse? document = some root) :
    ∀ inner ∈ root.inOrder, (∀ value ∈ inner.tag.attributes.map Prod.snd, IsProper value) ∧
      ∀ text ∈ inner.text?, IsProper text := by
  refine parse?_forall
    (fun tag text => (∀ value ∈ tag.attributes.map Prod.snd, IsProper value) ∧ IsProper text)
    (fun element => (∀ value ∈ element.tag.attributes.map Prod.snd, IsProper value) ∧
      ∀ text ∈ element.text?, IsProper text)
    (fun unclosed proper => ⟨unclosed.tag_close ▸ proper.1, fun text isText => ?_⟩)
    (fun piece isRead => ?_) parsed
  · rw [unclosed.text_close text isText]
    exact proper.2.subset fun character member => by
      by_contra absent
      exact trim_lacks absent member
  · cases isRead with
    | opening _ areAttributes =>
        intro outer scope tag isTag
        have given := attributes?_proper areAttributes
        exact ⟨fun value member => given value ((tag?_eq_some isTag).2 member), List.forall_mem_nil _⟩
    | text proper | blank proper =>
        exact fun tag text allowed =>
          ⟨allowed.1, allowed.2.append (contentFrom_proper false false proper)⟩
    | closing | silent => trivial

end Xml

end ManagementShell
