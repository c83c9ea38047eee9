import ManagementShell.Proofs.Normalisation
import ManagementShell.Proofs.Pairing
import ManagementShell.Proofs.Xml.Naming

/-
This file shows what the reference to an endpoint is read as, and that the endpoint is found again
in it if its texts are no markup.
-/

namespace ManagementShell
open Text Xml

/-- The tags of a payload have the qualifier `p`. -/
theorem opening_parameter (parameter ending : Text) :
    Name.opening ⟨"p", parameter⟩ ending = "<p:" ++ (parameter ++ ending) := rfl

theorem closing_parameter (parameter : Text) :
    Name.closing ⟨"p", parameter⟩ = "</p:" ++ (parameter ++ ">") := rfl

namespace Xml

/-- The qualifier stands for a space of names. -/
def Scope.Knows (scope : Scope) (qualifier : Text) : Prop :=
  (scope.lookup qualifier).isSome = true

theorem Scope.knows_iff {scope : Scope} {qualifier : Text} :
    scope.Knows qualifier ↔ ∃ entry ∈ scope, qualifier = entry.1 := by
  simp only [Knows, List.lookup_isSome_iff, beq_iff_eq]

/-- A qualifier that is known around an element or declared by it is known inside. The induction is
on the declarations around it; each is added unless it is hidden. -/
theorem Scope.enter_knows {outer own : Scope} {qualifier : Text}
    (known : outer.Knows qualifier ∨ own.Knows qualifier) : (outer.enter own).Knows qualifier := by
  simp only [knows_iff] at known ⊢
  unfold Scope.enter
  split
  · rename_i none
    subst none
    exact known.resolve_right fun ⟨_, member, _⟩ => nomatch member
  · clear * - known
    induction outer generalizing own with
    | nil => exact known.resolve_left fun ⟨_, member, _⟩ => nomatch member
    | cons first rest inductionHypothesis =>
        refine inductionHypothesis ?_
        rcases known with ⟨entry, member, same⟩ | ⟨entry, member, same⟩
        · rcases List.mem_cons.mp member with rfl | isLater
          · right
            dsimp only
            split
            · rename_i hidden
              obtain ⟨other, isOther, sameToo⟩ := List.any_eq_true.mp hidden
              exact ⟨other, isOther, same.trans (beq_iff_eq.mp sameToo).symm⟩
            · exact ⟨entry, List.mem_append_right _ (List.mem_singleton_self entry), same⟩
          · exact .inl ⟨entry, isLater, same⟩
        · refine .inr ⟨entry, ?_, same⟩
          dsimp only
          split
          · exact member
          · exact List.mem_append_left _ member

end Xml

namespace Endpoint

/-- No text of the endpoint is markup. -/
structure IsPlain (endpoint : Endpoint) : Prop where
  resource : IsLiteral endpoint.resource
  selectors : ∀ selector ∈ endpoint.selectors, IsAttributeValue selector.1 ∧ IsLiteral selector.2

/-- The element is what a selector is read as. The name that its tag is shown with does not matter. -/
def IsSelector (selector : Text × Text) (element : Element) : Prop :=
  ∃ shown, element = .mk ⟨shown, "Selector", [("Name", attributeValue (literalData selector.1))]⟩
    (trim selector.2) []

/-- The element is what the reference to an endpoint is read as. -/
inductive IsReference (parameter : Text) (endpoint : Endpoint) : Element → Prop
  | mk (reference address parameters resource set : Text) {children : List Element}
      (areSelectors : List.Forall₂ IsSelector endpoint.selectors children) :
      IsReference parameter endpoint
        (.mk ⟨reference, parameter, []⟩ [] [
          .mk ⟨address, "Address", []⟩ (trim anonymousRole) [],
          .mk ⟨parameters, "ReferenceParameters", []⟩ [] [
            .mk ⟨resource, "ResourceURI", []⟩ (trim endpoint.resource) [],
            .mk ⟨set, "SelectorSet", []⟩ [] children]])

theorem IsReference.base_eq {parameter : Text} {endpoint : Endpoint} {element : Element}
    (isReference : IsReference parameter endpoint element) : element.tag.base = parameter := by
  cases isReference
  rfl

section

variable {scope : Scope} (known : scope.Knows "w")
include known

theorem selectorLine_isChild {selector : Text × Text} (isName : IsAttributeValue selector.1)
    (isValue : IsLiteral selector.2) :
    ∃ child, IsChild scope (selectorLine selector) child ∧ IsSelector selector child := by
  have writable : Name.IsWritable ⟨"w", "Selector"⟩ := ⟨by decide, by decide⟩
  have reads := attributes?_single ⟨[], "Name"⟩ "Name" (by decide) rfl isName
  obtain ⟨shown, isElement⟩ := writable.element scope []
    (lacking_cons (by decide) _) reads (by decide) rfl rfl known
  have isChild := isElement.child isValue.contents (fun some => absurd rfl some) "        " []
    rfl rfl
  have same : selectorLine selector = ("        " : Text) ++ (Name.opening ⟨"w", "Selector"⟩
      (' ' :: ("Name" ++ ("=\"" ++ (selector.1 ++ "\">")))) ++ (selector.2 ++
        (Name.closing ⟨"w", "Selector"⟩ ++ []))) := by
    unfold selectorLine
    simp only [Name.opening, List.append_assoc, List.cons_append, List.append_nil]
    rfl
  exact ⟨_, same ▸ isChild, shown, rfl⟩

theorem selectorLines_areChildren {selectors : List (Text × Text)}
    (plain : ∀ selector ∈ selectors, IsAttributeValue selector.1 ∧ IsLiteral selector.2) :
    ∃ children, List.Forall₂ (IsChild scope)
        (selectors.map fun selector => "\n" ++ selectorLine selector) children ∧
      List.Forall₂ IsSelector selectors children := by
  induction selectors with
  | nil => exact ⟨[], .nil, .nil⟩
  | cons selector rest inductionHypothesis =>
      rw [List.forall_mem_cons] at plain
      obtain ⟨child, isChild, isSelector⟩ := selectorLine_isChild known plain.1.1 plain.1.2
      obtain ⟨others, areChildren, areSelectors⟩ := inductionHypothesis plain.2
      exact ⟨child :: others, .cons (isChild.spaced rfl) areChildren, .cons isSelector areSelectors⟩

/-- The selectors are the children of their set. -/
theorem selectors_areContents {selectors : List (Text × Text)}
    (plain : ∀ selector ∈ selectors, IsAttributeValue selector.1 ∧ IsLiteral selector.2) :
    ∃ children, IsContents scope
        ("\n" ++ (join "\n" (selectors.map selectorLine) ++ "\n\t  ")) [] children ∧
      List.Forall₂ IsSelector selectors children := by
  obtain ⟨children, areChildren, areSelectors⟩ := selectorLines_areChildren known plain
  refine ⟨children, ?_, areSelectors⟩
  cases selectors with
  | nil => exact isContents_children areChildren "\n" "\n\t  " rfl rfl
  | cons first rest =>
      have joined : join "\n" ((first :: rest).map selectorLine) =
          (selectorLine first :: rest.map fun selector => "\n" ++ selectorLine selector).flatten := by
        rw [List.map_cons, join_cons, List.map_map]
        rfl
      have contents := isContents_children areChildren [] "\n\t  " rfl rfl
      rw [joined]
      exact contents

end

/-- The qualifiers that are known inside the reference to an endpoint. -/
def addressScope (scope : Scope) : Scope :=
  scope.enter [("a", addressingSpace), ("w", managementSpace)]

/-- The fixed parts of a reference are tags and the spaces around them. -/
theorem address_pieces :
    ("  <p:" : Text) = ("  " : Text) ++ ("<p:" : Text) ∧
    ("\">\n" : Text) = ("\">" : Text) ++ ("\n" : Text) ∧
    ("\t<a:Address>" : Text) = ("\t" : Text) ++ Name.opening ⟨"a", "Address"⟩ ">" ∧
    ("</a:Address>\n" : Text) = Name.closing ⟨"a", "Address"⟩ ++ ("\n" : Text) ∧
    ("\t<a:ReferenceParameters>\n" : Text) =
      ("\t" : Text) ++ (Name.opening ⟨"a", "ReferenceParameters"⟩ ">" ++ ("\n" : Text)) ∧
    ("\t  <w:ResourceURI>" : Text) = ("\t  " : Text) ++ Name.opening ⟨"w", "ResourceURI"⟩ ">" ∧
    ("</w:ResourceURI>\n" : Text) = Name.closing ⟨"w", "ResourceURI"⟩ ++ ("\n" : Text) ∧
    ("\t  <w:SelectorSet>\n" : Text) =
      ("\t  " : Text) ++ (Name.opening ⟨"w", "SelectorSet"⟩ ">" ++ ("\n" : Text)) ∧
    ("\t  </w:SelectorSet>\n" : Text) =
      ("\t  " : Text) ++ (Name.closing ⟨"w", "SelectorSet"⟩ ++ ("\n" : Text)) ∧
    ("\t</a:ReferenceParameters>\n  </p:" : Text) =
      ("\t" : Text) ++ (Name.closing ⟨"a", "ReferenceParameters"⟩ ++
        (("\n  " : Text) ++ ("</p:" : Text))) ∧
    ("\n\t  " : Text) = ("\n" : Text) ++ ("\t  " : Text) ∧
    (">\n" : Text) = (">" : Text) ++ ("\n" : Text) := by decide

section

variable {scope : Scope} (known : scope.Knows "p")
include known

/-- The tags of a reference say which spaces its names are in. -/
theorem reference_isElement {parameter : Text} (isName : IsBase parameter) :
    ∃ shown, IsElement scope (addressScope scope)
      (Name.opening ⟨"p", parameter⟩ (" xmlns:a=\"" ++ addressingSpace ++ "\" xmlns:w=\"" ++
        managementSpace ++ "\">")) (Name.closing ⟨"p", parameter⟩) ⟨shown, parameter, []⟩ := by
  have writable : Name.IsWritable ⟨"p", parameter⟩ := ⟨(by decide : IsBase "p"), isName⟩
  have reads : attributes? (" xmlns:a=\"" ++ addressingSpace ++ "\" xmlns:w=\"" ++
      managementSpace ++ "\">") =
        some ([(⟨"xmlns", "a"⟩, addressingSpace), (⟨"xmlns", "w"⟩, managementSpace)], false, []) := by
    decide +kernel
  exact writable.element _ [("a", addressingSpace), ("w", managementSpace)]
    (lacking_cons (by decide) _) reads (by decide : ("p" : Text) ≠ "xmlns") (by decide +kernel)
    rfl (Scope.enter_knows (.inl known))

/-- The reference to an endpoint is one element, named like the parameter. -/
theorem address_isChild {endpoint : Endpoint} (plain : endpoint.IsPlain) {parameter : Text}
    (isName : IsBase parameter) :
    ∃ child, IsChild scope (endpoint.address parameter) child ∧
      IsReference parameter endpoint child := by
  have isRole : IsLiteral anonymousRole := by decide
  have role : Name.IsWritable ⟨"a", "Address"⟩ := ⟨by decide, by decide⟩
  have resource : Name.IsWritable ⟨"w", "ResourceURI"⟩ := ⟨by decide, by decide⟩
  have set : Name.IsWritable ⟨"w", "SelectorSet"⟩ := ⟨by decide, by decide⟩
  have parameters : Name.IsWritable ⟨"a", "ReferenceParameters"⟩ := ⟨by decide, by decide⟩
  have addressing : (addressScope scope).Knows "a" := Scope.enter_knows (.inr rfl)
  have management : (addressScope scope).Knows "w" := Scope.enter_knows (.inr rfl)
  obtain ⟨selectors, areContents, areSelectors⟩ := selectors_areContents management plain.selectors
  obtain ⟨_, isAddress⟩ := role.child (addressScope scope) (by decide) addressing isRole.contents
    (fun some => absurd rfl some) "\t" "\n" rfl rfl
  obtain ⟨_, isResource⟩ := resource.child (addressScope scope) (by decide) management
    plain.resource.contents (fun some => absurd rfl some) "\t  " "\n" rfl rfl
  obtain ⟨_, isSet⟩ := set.child (addressScope scope) (by decide) management areContents
    (fun _ => rfl) "\t  " "\n" rfl rfl
  obtain ⟨_, areParameters⟩ := parameters.child (addressScope scope) (by decide) addressing
    (isContents_children (.cons isResource (.cons isSet .nil)) "\n" "\t" rfl rfl) (fun _ => rfl)
    "\t" "\n  " rfl rfl
  obtain ⟨shown, isReference⟩ := reference_isElement known isName
  have isChild := isReference.child
    (isContents_children (.cons isAddress (.cons areParameters .nil)) "\n" [] rfl rfl) (fun _ => rfl)
    "  " "\n" rfl rfl
  refine ⟨_, isChild.of_eq ?_, .mk _ _ _ _ _ areSelectors⟩
  unfold address
  rw [opening_parameter, closing_parameter]
  simp only [address_pieces, List.flatten_cons, List.flatten_nil, List.append_assoc, List.append_nil]

end

/-- A text that stands for itself inside an element. -/
structure IsVerbatim (text : Text) : Prop where
  noMarkup : '<' ∉ text
  noReference : '&' ∉ text
  noEnd : text.includes "]]>" = false
  noReturn : '\r' ∉ text

instance (text : Text) : Decidable (IsVerbatim text) :=
  decidable_of_iff ('<' ∉ text ∧ '&' ∉ text ∧ text.includes "]]>" = false ∧ '\r' ∉ text)
    ⟨fun ⟨noMarkup, noReference, noEnd, noReturn⟩ => ⟨noMarkup, noReference, noEnd, noReturn⟩,
      fun ⟨noMarkup, noReference, noEnd, noReturn⟩ => ⟨noMarkup, noReference, noEnd, noReturn⟩⟩

/-- The characters that do not stand for themselves between quotation marks. -/
def quotedMarks : Text := ['<', '&', '"', '\t', '\n', '\r']

/-- A text that stands for itself between quotation marks. -/
def IsVerbatimName (name : Text) : Prop := ∀ mark ∈ quotedMarks, mark ∉ name

instance (name : Text) : Decidable (IsVerbatimName name) :=
  List.decidableBAll (fun mark => mark ∉ name) quotedMarks

/-- Every text of the endpoint stands for itself where a reference has it. -/
structure IsReadable (endpoint : Endpoint) : Prop where
  resource : IsVerbatim endpoint.resource
  names : ∀ selector ∈ endpoint.selectors, IsVerbatimName selector.1
  values : ∀ selector ∈ endpoint.selectors, IsVerbatim selector.2

instance (endpoint : Endpoint) : Decidable endpoint.IsReadable :=
  decidable_of_iff (IsVerbatim endpoint.resource ∧
      (∀ selector ∈ endpoint.selectors, IsVerbatimName selector.1) ∧
      ∀ selector ∈ endpoint.selectors, IsVerbatim selector.2)
    ⟨fun ⟨resource, names, values⟩ => ⟨resource, names, values⟩,
      fun ⟨resource, names, values⟩ => ⟨resource, names, values⟩⟩

/-- The texts of the endpoint are such as can be read from a document. -/
structure IsGiven (endpoint : Endpoint) : Prop where
  resource : IsProper endpoint.resource ∧ Trimmed endpoint.resource
  names : ∀ selector ∈ endpoint.selectors, selector.1 ≠ [] ∧ IsProper selector.1
  values : ∀ selector ∈ endpoint.selectors, IsProper selector.2 ∧ Trimmed selector.2

theorem choose_given {document : Text} {root : Element} (parsed : parse? document = some root)
    {parameter : Text} {filter : Filter} {endpoint : Endpoint}
    (chosen : choose root parameter filter = .ok endpoint) : endpoint.IsGiven := by
  obtain ⟨isResource, areSelectors⟩ := choose_mem chosen
  have trimmedEmpty : Trimmed [] := ⟨fun _ => nofun, fun _ => nofun⟩
  have texts : ∀ inner ∈ root.inOrder, ∀ text ∈ inner.text?, IsProper text ∧ Trimmed text :=
    fun inner member text isText =>
      ⟨(parse?_proper parsed inner member).2 text isText, parse?_trimmed parsed inner member text isText⟩
  have empty : IsProper [] ∧ Trimmed [] := ⟨List.forall_mem_nil _, trimmedEmpty⟩
  refine ⟨mem_resources texts empty _ isResource, fun selector member => ?_, fun selector member => ?_⟩
  · obtain ⟨inner, isInner, isRead⟩ := mem_selectorSets areSelectors selector member
    obtain ⟨nonempty, isName, -⟩ := selector?_eq_some isRead
    exact ⟨nonempty, (parse?_proper parsed inner isInner).1 _ isName⟩
  · obtain ⟨inner, isInner, isRead⟩ := mem_selectorSets areSelectors selector member
    rw [(selector?_eq_some isRead).2.2]
    cases isText : inner.text? with
    | none => exact empty
    | some text => exact texts inner isInner text isText

theorem IsVerbatimName.read {name : Text} (lacks : IsVerbatimName name) :
    attributeValue (literalData name) = name := by
  have noTab := lacks '\t' (by decide)
  have noFeed := lacks '\n' (by decide)
  have noReturn := lacks '\r' (by decide)
  clear lacks
  induction name with
  | nil => rfl
  | cons character rest inductionHypothesis =>
      rw [List.mem_cons, not_or] at noTab noFeed noReturn
      have later := inductionHypothesis noTab.2 noFeed.2 noReturn.2
      simpa [literalData, attributeValue, Ne.symm noTab.1, Ne.symm noFeed.1, Ne.symm noReturn.1]
        using later

theorem IsVerbatim.literal {text : Text} (verbatim : IsVerbatim text) (proper : IsProper text) :
    IsLiteral text where
  proper := List.all_eq_true.mpr proper
  noMarkup := verbatim.noMarkup
  noReference := verbatim.noReference
  noEnd := verbatim.noEnd
  noReturn := trim_lacks verbatim.noReturn

theorem IsReadable.plain {endpoint : Endpoint} (readable : endpoint.IsReadable)
    (given : endpoint.IsGiven) : endpoint.IsPlain where
  resource := readable.resource.literal given.resource.1
  selectors selector member := by
    have lacks := readable.names selector member
    have isName : IsAttributeValue selector.1 :=
      ⟨List.all_eq_true.mpr (given.names selector member).2, lacks '<' (by decide),
        lacks '&' (by decide), lacks '"' (by decide)⟩
    exact ⟨isName, (readable.values selector member).literal (given.values selector member).1⟩

theorem IsSelector.reads {selector : Text × Text} {element : Element}
    (isSelector : IsSelector selector element) (nonempty : selector.1 ≠ [])
    (sameName : attributeValue (literalData selector.1) = selector.1)
    (sameValue : trim selector.2 = selector.2) : selector? element = some selector := by
  obtain ⟨shown, rfl⟩ := isSelector
  obtain ⟨name, value⟩ := selector
  obtain ⟨first, rest, rfl⟩ := List.exists_cons_of_ne_nil nonempty
  rw [sameName, sameValue]
  rfl

theorem named_self {base : Text} {tag : Tag} (isNamed : tag.base = base) (text : Text)
    (children : List Element) : named (.mk tag text children) base =
      .mk tag text children :: children.flatMap fun child => named child base := by
  unfold named
  rw [Element.inOrder, Element.inOrderAll_eq, ← List.filter_flatMap]
  exact List.filter_cons_of_pos (beq_iff_eq.mpr isNamed)

theorem named_other {base : Text} {tag : Tag} (other : tag.base ≠ base) (text : Text)
    (children : List Element) :
    named (.mk tag text children) base = children.flatMap fun child => named child base := by
  unfold named
  rw [Element.inOrder, Element.inOrderAll_eq, ← List.filter_flatMap]
  exact List.filter_cons_of_neg fun same => other (beq_iff_eq.mp same)

section

variable {selectors : List (Text × Text)} {children : List Element}
  (areSelectors : List.Forall₂ IsSelector selectors children)
include areSelectors

theorem named_selectors {base : Text} (isPart : base ∈ partNames) :
    (children.flatMap fun child => named child base) = [] := by
  have other : ("Selector" : Text) ≠ base := by
    rintro rfl
    exact absurd isPart (by decide)
  induction areSelectors with
  | nil => rfl
  | cons isSelector _ inductionHypothesis =>
      obtain ⟨shown, rfl⟩ := isSelector
      rw [List.flatMap_cons, inductionHypothesis, named_other other]
      rfl

theorem filterMap_selectors (kept : ∀ selector ∈ selectors, selector.1 ≠ [] ∧
      attributeValue (literalData selector.1) = selector.1 ∧ trim selector.2 = selector.2) :
    children.filterMap selector? = selectors := by
  induction areSelectors with
  | nil => rfl
  | cons isSelector _ inductionHypothesis =>
      obtain ⟨⟨nonempty, sameName, sameValue⟩, others⟩ := List.forall_mem_cons.mp kept
      rw [List.filterMap_cons_some (isSelector.reads nonempty sameName sameValue),
        inductionHypothesis others]

end

variable {parameter : Text} {endpoint : Endpoint} {element : Element}

/-- A reference has one set of selectors and one resource, if it is named like neither. -/
theorem IsReference.named_eq (isReference : IsReference parameter endpoint element)
    (other : parameter ∉ partNames) :
    ∃ resource set children, List.Forall₂ IsSelector endpoint.selectors children ∧
      named element "ResourceURI" = [.mk ⟨resource, "ResourceURI", []⟩ (trim endpoint.resource) []] ∧
      named element "SelectorSet" = [.mk ⟨set, "SelectorSet", []⟩ [] children] := by
  cases isReference with
  | @mk reference address parameters resource set children areSelectors =>
      have inside {base : Text} (isPart : base ∈ partNames) :
          named (.mk ⟨reference, parameter, []⟩ [] [
            .mk ⟨address, "Address", []⟩ (trim anonymousRole) [],
            .mk ⟨parameters, "ReferenceParameters", []⟩ [] [
              .mk ⟨resource, "ResourceURI", []⟩ (trim endpoint.resource) [],
              .mk ⟨set, "SelectorSet", []⟩ [] children]]) base =
          named (.mk ⟨resource, "ResourceURI", []⟩ (trim endpoint.resource) []) base ++
            named (.mk ⟨set, "SelectorSet", []⟩ [] children) base := by
        have outer : parameter ≠ base := fun same => other (same ▸ isPart)
        have role : ("Address" : Text) ≠ base := by
          rintro rfl
          exact absurd isPart (by decide)
        have holder : ("ReferenceParameters" : Text) ≠ base := by
          rintro rfl
          exact absurd isPart (by decide)
        rw [named_other outer, List.flatMap_cons, named_other role, List.flatMap_cons,
          named_other holder, List.flatMap_cons, List.flatMap_cons]
        simp only [List.flatMap_nil, List.nil_append, List.append_nil]
      have isResource : ("ResourceURI" : Text) ∈ partNames := by decide
      have isSet : ("SelectorSet" : Text) ∈ partNames := by decide
      have apart : ("ResourceURI" : Text) ≠ "SelectorSet" := by decide
      refine ⟨resource, set, children, areSelectors, ?_, ?_⟩
      · rw [inside isResource, named_self rfl, named_other (Ne.symm apart),
          named_selectors areSelectors isResource]
        rfl
      · rw [inside isSet, named_other apart, named_self rfl, named_selectors areSelectors isSet]
        rfl

/-- The parts of the reference are those of the endpoint. -/
theorem IsReference.parts_eq (isReference : IsReference parameter endpoint element)
    (other : parameter ∉ partNames) (readable : endpoint.IsReadable) (given : endpoint.IsGiven) :
    resources element = [endpoint.resource] ∧ selectorSets element = [endpoint.selectors] := by
  obtain ⟨resource, set, children, areSelectors, isResource, isSet⟩ := isReference.named_eq other
  have kept : ∀ selector ∈ endpoint.selectors, selector.1 ≠ [] ∧
      attributeValue (literalData selector.1) = selector.1 ∧ trim selector.2 = selector.2 :=
    fun selector member => ⟨(given.names selector member).1,
      (readable.names selector member).read,
      (given.values selector member).2.trim_eq⟩
  have areRead : children.filterMap selector? = endpoint.selectors :=
    filterMap_selectors areSelectors kept
  rw [resources, selectorSets, isResource, isSet, ← areRead, given.resource.2.trim_eq]
  exact ⟨rfl, rfl⟩

theorem choose_single {root : Element} (areResources : resources root = [endpoint.resource])
    (areSets : selectorSets root = [endpoint.selectors]) (sought : Text) :
    choose root sought .empty = .ok endpoint := by
  have unfiltered : Filter.empty.pair? sought = none := rfl
  unfold choose
  rw [unfiltered, areResources, areSets]
  rfl

/-- The tags of an element that a reference can be written into: it declares the qualifier of the
reference and is itself no part of one. -/
def IsWrapper (opening closing : Text) : Prop :=
  ∃ scope tag, IsElement [] scope opening closing tag ∧ scope.Knows "p" ∧ tag.base ∉ partNames

/-- An endpoint that comes from an answer is chosen again from the reference that is written for it
if its texts stand for themselves there. The reference may not be named like a part of it. -/
theorem choose_address {document : Text} {root : Element} (parsed : parse? document = some root)
    {sought : Text} {filter : Filter} (chosen : choose root sought filter = .ok endpoint)
    (readable : endpoint.IsReadable) (isName : IsBase parameter) (noPart : parameter ∉ partNames)
    {opening closing : Text} (isWrapper : IsWrapper opening closing) :
    ∃ again, parse? (opening ++ (endpoint.address parameter ++ closing)) = some again ∧
      ∀ other, choose again other .empty = .ok endpoint := by
  have given := choose_given parsed chosen
  obtain ⟨scope, tag, isElement, known, noPartEither⟩ := isWrapper
  obtain ⟨child, isChild, isReference⟩ := address_isChild known (readable.plain given) isName
  obtain ⟨areResources, areSets⟩ := isReference.parts_eq noPart readable given
  have contents := isContents_children (.cons isChild .nil) [] [] rfl rfl
  obtain ⟨name, attributes, isOpening, -⟩ := isElement.opens
  have isDocument := isElement.document contents (fun _ => rfl) [] rfl (isOpening.body?_eq _)
  simp only [List.flatten_cons, List.flatten_nil, List.append_nil, List.nil_append] at isDocument
  have inside {base : Text} (isPart : base ∈ partNames) :
      named (.mk tag [] [child]) base = named child base := by
    rw [named_other fun same => noPartEither (same ▸ isPart), List.flatMap_cons, List.flatMap_nil,
      List.append_nil]
  refine ⟨_, isDocument, choose_single ?_ ?_⟩
  · rw [resources, inside (by decide)]
    exact areResources
  · rw [selectorSets, inside (by decide)]
    exact areSets

/-- The answer to a discovery with one endpoint, the value of whose selector is written like this. -/
def answerWith (written : Text) : Text :=
  "<a><ResourceURI>http://h/Service</ResourceURI><SelectorSet><Selector Name=\"It's\">" ++
    written ++ "</Selector></SelectorSet></a>"

def serviceOf (value : Text) : Endpoint := ⟨"http://h/Service", [("It's", value)]⟩

def wrapperOpening : Text := "<r xmlns:p=\"u\">"

def wrapperClosing : Text := "</r>"

theorem isWrapper_plain : IsWrapper wrapperOpening wrapperClosing := by
  have isOpening : IsMarkup wrapperOpening (.opening ⟨[], "r"⟩ [(⟨"xmlns", "p"⟩, "u")] false) :=
    exists_markup_of_piece? rfl (by decide +kernel)
  have isClosing : IsMarkup wrapperClosing (.closing ⟨[], "r"⟩) :=
    exists_markup_of_piece? rfl (by decide +kernel)
  exact ⟨[("p", "u")], ⟨"r", "r", []⟩, ⟨_, _, isOpening, by decide +kernel, isClosing⟩, rfl, by decide⟩

/-- Quotation marks in a value and an apostrophe in a name are read as they are. -/
theorem choose_address_quoted : ∃ again,
    parse? (wrapperOpening ++ ((serviceOf "\"a\" > b").address "Service" ++ wrapperClosing)) =
        some again ∧
      choose again "Service" .empty = .ok (serviceOf "\"a\" > b") := by
  have isRead : (parse? (answerWith "&quot;a&quot; &gt; b")).map
      (fun root => choose root "Service" .empty) = some (.ok (serviceOf "\"a\" > b")) := by
    decide +kernel
  obtain ⟨root, parsed, chosen⟩ := Option.map_eq_some_iff.mp isRead
  have readable : (serviceOf "\"a\" > b").IsReadable := by decide +kernel
  obtain ⟨again, isAgain, same⟩ := choose_address parsed chosen readable
    (by decide : IsBase "Service") (by decide) isWrapper_plain
  exact ⟨again, isAgain, same "Service"⟩

/-- An ampersand that was written as a reference comes back as a bare one, which is no document. -/
theorem choose_address_unread :
    (parse? (answerWith "a&amp;b")).map (fun root => choose root "Service" .empty) =
        some (.ok (serviceOf "a&b")) ∧
      IsBase "Service" ∧ ("Service" : Text) ∉ partNames ∧ IsWrapper wrapperOpening wrapperClosing ∧
      (parse? (wrapperOpening ++ ((serviceOf "a&b").address "Service" ++ wrapperClosing))).isSome =
        false :=
  ⟨by decide +kernel, by decide, by decide, isWrapper_plain, by decide +kernel⟩

end Endpoint

end ManagementShell
