import ManagementShell.Proofs.Host
import ManagementShell.Proofs.Xml.Collection
import ManagementShell.Proofs.Xml.Margins

/-
This file shows that elements that are written one after the other, with spaces around them, are
read as the children of the element that they are written into.
-/

namespace ManagementShell

open Text

namespace Xml

/-- This is a name without a colon in it, so that it can stand behind a qualifier. -/
structure IsBase (name : Text) : Prop where
  start : name.head?.any isNameStart = true
  characters : name.all isNameCharacter = true
  noColon : ':' ∉ name

instance (name : Text) : Decidable (IsBase name) :=
  decidable_of_iff (name.head?.any isNameStart = true ∧ name.all isNameCharacter = true ∧ ':' ∉ name)
    ⟨fun ⟨start, characters, noColon⟩ => ⟨start, characters, noColon⟩,
      fun ⟨start, characters, noColon⟩ => ⟨start, characters, noColon⟩⟩

theorem IsBase.append {name more : Text} (isName : IsBase name)
    (characters : more.all isNameCharacter = true) (noColon : ':' ∉ more) :
    IsBase (name ++ more) where
  start := by
    obtain ⟨start, -, -⟩ := isName
    cases name with
    | nil => cases start
    | cons first rest => exact start
  characters := by
    rw [List.all_append, isName.characters, characters]
    rfl
  noColon := by
    rw [List.mem_append, not_or]
    exact ⟨isName.noColon, noColon⟩

theorem all_of_any {holds : Char → Bool} {first : Option Char} (any : first.any holds = true) :
    first.all holds = true := by
  cases first with
  | none => rfl
  | some character => exact any

theorem name?_append {written rest : Text} (members : written.all isNameCharacter = true)
    (lacking : Lacking isNameCharacter rest) :
    name? (written ++ rest) = (nameOf? written).map (·, rest) := by
  obtain ⟨taken, dropped⟩ := takeWhile_append_of_lacking members lacking
  rw [name?_eq, taken, dropped]

/-- The name as it is written. -/
def Name.written (name : Name) : Text := name.qualifier ++ ':' :: name.base

def Name.opening (name : Name) (ending : Text) : Text := '<' :: (name.written ++ ending)

def Name.closing (name : Name) : Text := "</" ++ (name.written ++ ">")

structure Name.IsWritable (name : Name) : Prop where
  qualifier : IsBase name.qualifier
  base : IsBase name.base

variable {name : Name}

theorem Name.IsWritable.reads (writable : name.IsWritable) {rest : Text}
    (lacking : Lacking isNameCharacter rest) :
    name? (name.written ++ rest) = some (name, rest) := by
  obtain ⟨isQualifier, isBase⟩ := writable
  have members : name.written.all isNameCharacter = true := by
    rw [Name.written, List.all_append, isQualifier.characters, List.all_cons, isBase.characters]
    rfl
  have read : nameOf? name.written = some name := by
    rw [nameOf?, Name.written, splitOn_append isQualifier.noColon, splitOn_of_not_mem isBase.noColon]
    simp only [all_of_any isQualifier.start, isBase.start, Bool.and_self, if_true]
  rw [name?_append members lacking, read]
  rfl

/-- The first character is one of a name, so that the tag is not taken for another kind of markup. -/
theorem Name.IsWritable.first (writable : name.IsWritable) :
    ∃ first rest, name.written = first :: rest ∧ isNameCharacter first = true := by
  obtain ⟨⟨start, characters, -⟩, -⟩ := writable
  unfold Name.written
  cases isQualifier : name.qualifier with
  | nil => rw [isQualifier] at start; cases start
  | cons first rest =>
      rw [isQualifier, List.all_cons, Bool.and_eq_true] at characters
      exact ⟨first, _, rfl, characters.1⟩

theorem lacking_cons {isMember : Char → Bool} {first : Char} (other : isMember first = false)
    (rest : Text) : Lacking isMember (first :: rest) := fun character isHead => by
  cases isHead
  exact other

/-- An opening tag with the attributes that its ending is read as. -/
theorem Name.IsWritable.opening (writable : name.IsWritable) {ending : Text}
    {attributes : List (Name × Text)} (lacking : Lacking isNameCharacter ending)
    (reads : attributes? ending = some (attributes, false, [])) :
    IsMarkup (name.opening ending) (.opening name attributes false) := by
  refine exists_markup_of_piece? rfl ?_
  obtain ⟨first, rest, isWritten, inName⟩ := writable.first
  have isName := writable.reads lacking
  rw [Name.opening]
  rw [isWritten, List.cons_append] at isName ⊢
  rw [piece?_opening inName, opening?, isName]
  simp only [reads]

theorem Name.IsWritable.closing (writable : name.IsWritable) :
    IsMarkup name.closing (.closing name) := by
  refine exists_markup_of_piece? rfl ?_
  have ends : Lacking isNameCharacter (">" : Text) := lacking_cons (by decide) []
  have isName := writable.reads ends
  change closing? (name.written ++ ">") = _
  rw [closing?, isName]
  rfl

theorem attributes?_none : attributes? ">" = some ([], false, []) := by
  rw [attributes?]
  rfl

/-- A value that can stand between quotation marks. -/
structure IsAttributeValue (value : Text) : Prop where
  proper : value.all isCharacter = true
  noMarkup : '<' ∉ value
  noReference : '&' ∉ value
  noQuote : '"' ∉ value

instance (value : Text) : Decidable (IsAttributeValue value) :=
  decidable_of_iff (value.all isCharacter = true ∧ '<' ∉ value ∧ '&' ∉ value ∧ '"' ∉ value)
    ⟨fun ⟨proper, noMarkup, noReference, noQuote⟩ => ⟨proper, noMarkup, noReference, noQuote⟩,
      fun ⟨proper, noMarkup, noReference, noQuote⟩ => ⟨proper, noMarkup, noReference, noQuote⟩⟩

theorem attributes?_single (key : Name) (written : Text) {value : Text}
    (members : written.all isNameCharacter = true) (isKey : nameOf? written = some key)
    (isValue : IsAttributeValue value) :
    attributes? (' ' :: (written ++ ("=\"" ++ (value ++ "\">")))) =
      some ([(key, attributeValue (literalData value))], false, []) := by
  have isQuoted : quotedValue? '"' (value ++ "\">") = some (value, (">" : Text)) := by
    have split : cut? (value ++ "\">") ['"'] = some (value, (">" : Text)) :=
      cut?_append isValue.noQuote
    unfold quotedValue? upTo?
    simp only [split, if_pos isValue.proper, if_neg isValue.noMarkup]
  have starting : Lacking isSpace (written ++ ("=\"" ++ (value ++ "\">"))) := by
    cases written with
    | nil => cases isKey
    | cons first rest =>
        rw [List.all_cons, Bool.and_eq_true] at members
        exact lacking_cons (isSpace_of_isNameCharacter members.1) _
  have skipped : skipSpaces (' ' :: (written ++ ("=\"" ++ (value ++ "\">")))) =
      written ++ ("=\"" ++ (value ++ "\">")) := @skipSpaces_append [' '] _ rfl starting
  have isName : name? (written ++ ("=\"" ++ (value ++ "\">"))) =
      some (key, "=\"" ++ (value ++ "\">")) := by
    have ends : Lacking isNameCharacter ("=\"" ++ (value ++ "\">")) := lacking_cons (by decide) _
    rw [name?_append members ends, isKey]
    rfl
  have isAttribute : attribute? (written ++ ("=\"" ++ (value ++ "\">"))) =
      some (key, value, (">" : Text)) :=
    attribute?_eq_some.mpr ⟨[], [], '"', value ++ "\">", rfl, rfl, .inl rfl, isName, isQuoted⟩
  rw [attributes?_more rfl (skipped ▸ isAttribute) (data?_of_not_mem isValue.noReference),
    attributes?_none]
  rfl

/-- Between quotation marks, spaces are all that can come in. -/
theorem attributeValue_cases (value : Text) : attributeValue (literalData value) = value ∨
    ' ' ∈ attributeValue (literalData value) := by
  induction value with
  | nil => exact .inl rfl
  | cons character rest inductionHypothesis =>
      rw [literalData, List.map_cons, attributeValue, ← literalData]
      dsimp only
      rw [if_neg (by decide)]
      split
      · -- The line feed behind this carriage return is read as a space.
        rename_i isEnd
        rw [Bool.and_eq_true, beq_iff_eq, beq_iff_eq] at isEnd
        cases rest with
        | nil => cases isEnd.2
        | cons next others =>
            cases isEnd.2
            exact .inr List.mem_cons_self
      · split
        · exact .inr List.mem_cons_self
        · exact inductionHypothesis.imp (congrArg (character :: ·)) (List.mem_cons_of_mem character)

/-- A character that is no carriage return is read as it is. -/
theorem content_cons {character : Char} (noReturn : character ≠ '\r') (rest : Text) :
    content (literalData (character :: rest)) = character :: content (literalData rest) := by
  simp [content, literalData, contentFrom, noReturn]

theorem content_append {text : Text} (noReturn : '\r' ∉ text) (rest : Text) :
    content (literalData (text ++ rest)) = text ++ content (literalData rest) := by
  induction text with
  | nil => rfl
  | cons character text inductionHypothesis =>
      rw [List.mem_cons, not_or] at noReturn
      rw [List.cons_append, content_cons (Ne.symm noReturn.1), inductionHypothesis noReturn.2,
        List.cons_append]

/-- A text is read as itself, blanks around it apart, if it has no line ends of its own but line
feeds. -/
theorem trim_content {text : Text} (noReturn : '\r' ∉ trim text) :
    trim (content (literalData text)) = trim text := by
  obtain ⟨front, back, isText, areBlank, areBlankToo⟩ := exists_trim text
  have asItself : content (literalData (trim text)) = trim text := by
    conv_lhs => rw [← List.append_nil (trim text), content_append noReturn]
    exact List.append_nil _
  have apart : StartsApart (literalData (trim text)) := by
    intro datum isHead
    rw [literalData, List.head?_map] at isHead
    obtain ⟨first, isFirst, rfl⟩ := Option.map_eq_some_iff.mp isHead
    exact .inr ((trimmed_trim text).head first isFirst)
  conv_lhs => rw [isText, literalData_append, literalData_append,
    trim_content_between areBlank areBlankToo apart, asItself]
  exact (trimmed_trim text).trim_eq

/-- A text that is read as itself inside an element, blanks around it apart. -/
structure IsLiteral (text : Text) : Prop where
  proper : text.all isCharacter = true
  noMarkup : '<' ∉ text
  noReference : '&' ∉ text
  noEnd : text.includes "]]>" = false
  noReturn : '\r' ∉ trim text

instance (text : Text) : Decidable (IsLiteral text) :=
  decidable_of_iff (text.all isCharacter = true ∧ '<' ∉ text ∧ '&' ∉ text ∧
      text.includes "]]>" = false ∧ '\r' ∉ trim text)
    ⟨fun ⟨proper, noMarkup, noReference, noEnd, noReturn⟩ =>
        ⟨proper, noMarkup, noReference, noEnd, noReturn⟩,
      fun ⟨proper, noMarkup, noReference, noEnd, noReturn⟩ =>
        ⟨proper, noMarkup, noReference, noEnd, noReturn⟩⟩

theorem IsLiteral.span?_eq {text : Text} (literal : IsLiteral text) (inner : Unclosed)
    (outer : List Unclosed) : span? (.inside inner outer) text =
      some (.inside { inner with text := inner.text ++ content (literalData text) } outer) := by
  by_cases empty : text = []
  · subst empty
    simp [span?, content, literalData, contentFrom]
  · rw [span?_run literal.noMarkup empty,
      runPiece?_eq literal.proper literal.noEnd (data?_of_not_mem literal.noReference)]
    split
    · rfl
    · rfl

theorem IsSpaces.literal {text : Text} (spaces : IsSpaces text) : IsLiteral text where
  proper := spaces.proper
  noMarkup := spaces.idle.lacks rfl (by decide)
  noReference := spaces.idle.lacks rfl (by decide)
  noEnd := includes_of_lacks (by decide) (spaces.idle.lacks rfl (by decide : ']' ≠ '\uFEFF'))
  noReturn := by
    rw [spaces.trim_eq]
    exact List.not_mem_nil

/-- Between the tags of an element, the contents are read as the children, or as the text if there
are none. -/
def IsContents (scope : Scope) (contents text : Text) (children : List Element) : Prop :=
  ∀ inner outer rest, inner.scope = scope → inner.text = [] → inner.children = [] →
    StartsMarkup rest → ∃ written, (children = [] → trim written = text) ∧
      progress? (.inside inner outer) (contents ++ rest) =
        progress? (.inside { inner with text := written, children := children.reverse } outer) rest

/-- Wherever the text is written into an element, it is read as one more child, and what is left of
it are spaces. -/
def IsChild (scope : Scope) (text : Text) (child : Element) : Prop :=
  ∃ back, IsSpaces back ∧ ∀ front inner outer rest, IsSpaces front → inner.scope = scope →
    ∃ written, progress? (.inside inner outer) (front ++ (text ++ rest)) =
      progress? (.inside { inner with text := written, children := child :: inner.children } outer)
        (back ++ rest)

section

variable {scope own : Scope} {children : List Element} {text : Text}

theorem IsLiteral.contents (literal : IsLiteral text) : IsContents scope text (trim text) [] := by
  intro inner outer rest _ noText noChildren starts
  refine ⟨content (literalData text), fun _ => trim_content literal.noReturn, ?_⟩
  rw [progress?_run literal.noMarkup starts, literal.span?_eq, noText, List.reverse_nil, ← noChildren]
  rfl

/-- The induction is on the children; the spaces that are left of one stand in front of the next. -/
theorem progress?_children {texts : List Text}
    (areChildren : List.Forall₂ (IsChild scope) texts children) {front : Text}
    (spaces : IsSpaces front) :
    ∃ back, IsSpaces back ∧ ∀ inner outer rest, inner.scope = scope →
      ∃ written, progress? (.inside inner outer) (front ++ (texts.flatten ++ rest)) =
        progress? (.inside { inner with
          text := written, children := children.reverse ++ inner.children } outer)
          (back ++ rest) := by
  induction areChildren generalizing front with
  | nil => exact ⟨front, spaces, fun inner outer rest _ => ⟨inner.text, rfl⟩⟩
  | @cons first child texts children isChild others inductionHypothesis =>
      obtain ⟨between, areSpaces, reads⟩ := isChild
      obtain ⟨back, areSpacesToo, readsOthers⟩ := inductionHypothesis areSpaces
      refine ⟨back, areSpacesToo, fun inner outer rest isScope => ?_⟩
      obtain ⟨written, isRead⟩ := reads front inner outer (texts.flatten ++ rest) spaces isScope
      obtain ⟨more, areRead⟩ := readsOthers
        { inner with text := written, children := child :: inner.children } outer rest isScope
      refine ⟨more, ?_⟩
      rw [List.flatten_cons, List.append_assoc, isRead, areRead, List.reverse_cons, List.append_assoc]
      rfl

/-- Children with spaces around them are the contents of an element. -/
theorem isContents_children {texts : List Text}
    (areChildren : List.Forall₂ (IsChild scope) texts children) (front back : Text)
    (spaces : IsSpaces front) (more : IsSpaces back) :
    IsContents scope (front ++ (texts.flatten ++ back)) [] children := by
  cases areChildren with
  | nil =>
      have all := spaces.append more
      have contents : IsContents scope (front ++ back) (trim (front ++ back)) [] :=
        all.literal.contents
      rwa [all.trim_eq] at contents
  | cons isChild others =>
      obtain ⟨left, areSpaces, reads⟩ := progress?_children (.cons isChild others) spaces
      intro inner outer rest isScope noText noChildren starts
      obtain ⟨written, isRead⟩ := reads inner outer (back ++ rest) isScope
      have ends := (areSpaces.append more).literal
      refine ⟨written ++ content (literalData (left ++ back)),
        fun empty => absurd empty (List.cons_ne_nil _ _), ?_⟩
      rw [List.append_assoc, List.append_assoc, isRead, ← List.append_assoc left,
        progress?_run ends.noMarkup starts, ends.span?_eq, noChildren, List.append_nil]
      rfl

/-- The tags of an element, with the scope and the tag that it is read with. -/
structure IsElement (scope own : Scope) (opening closing : Text) (tag : Tag) : Prop where
  opens : ∃ name attributes, IsMarkup opening (.opening name attributes false) ∧
    tag? scope name attributes = some (own, tag) ∧ IsMarkup closing (.closing name)

variable {opening closing contents : Text} {tag : Tag}

/-- An element is read up to its end. -/
theorem IsElement.reads (isElement : IsElement scope own opening closing tag)
    (areContents : IsContents own contents text children) (alone : children ≠ [] → text = [])
    (progress : Progress) (stack : List Unclosed)
    (enters : ∀ name attributes, advance? progress (.opening name attributes false) =
      enter? stack name attributes false) (isScope : scopeOf stack = scope) (rest : Text) :
    progress? progress (opening ++ (contents ++ (closing ++ rest))) =
      progress? (attach (.mk tag text children) stack) rest := by
  obtain ⟨name, attributes, isOpening, isTag, isClosing⟩ := isElement.opens
  have entered : advance? progress (.opening name attributes false) =
      some (.inside ⟨name, own, tag, [], []⟩ stack) := by
    rw [enters, enter?_eq, isScope, isTag]
    rfl
  have starts : StartsMarkup (closing ++ rest) := by
    intro character isHead
    rw [head?_append_of_ends isClosing.last, isClosing.head] at isHead
    exact (Option.some.inj isHead).symm
  obtain ⟨written, isText, isRead⟩ := areContents ⟨name, own, tag, [], []⟩ stack (closing ++ rest) rfl
    rfl rfl starts
  have closes :
      Unclosed.close ⟨name, own, tag, written, children.reverse⟩ = .mk tag text children := by
    cases children with
    | nil =>
        rw [Unclosed.close, isText rfl]
        rfl
    | cons first others =>
        rw [Unclosed.close_of_ne_nil (by simp), List.reverse_reverse, alone (List.cons_ne_nil _ _)]
  rw [progress?_markup isOpening, isOpening.span?_eq, entered, Option.bind_some, isRead,
    progress?_markup isClosing, isClosing.span?_eq, advance?, if_pos rfl, closes]
  rfl

/-- An element with spaces around it is read as a child. -/
theorem IsElement.child (isElement : IsElement scope own opening closing tag)
    (areContents : IsContents own contents text children) (alone : children ≠ [] → text = [])
    (before after : Text) (spaces : IsSpaces before) (more : IsSpaces after) :
    IsChild scope (before ++ (opening ++ (contents ++ (closing ++ after))))
      (.mk tag text children) := by
  refine ⟨after, more, fun front inner outer rest areSpaces isScope => ?_⟩
  have run := (areSpaces.append spaces).literal
  obtain ⟨name, attributes, isOpening, -⟩ := isElement.opens
  have starts : StartsMarkup (opening ++ (contents ++ (closing ++ (after ++ rest)))) := by
    intro character isHead
    rw [head?_append_of_ends isOpening.last, isOpening.head] at isHead
    exact (Option.some.inj isHead).symm
  let filled := { inner with text := inner.text ++ content (literalData (front ++ before)) }
  have isRead := isElement.reads areContents alone (.inside filled outer) (filled :: outer)
    (fun _ _ => rfl) isScope (after ++ rest)
  refine ⟨filled.text, ?_⟩
  simp only [List.append_assoc]
  rw [← List.append_assoc front, progress?_run run.noMarkup starts, run.span?_eq, Option.bind_some,
    isRead]
  rfl

theorem IsSpaces.progress?_after {after : Text} (spaces : IsSpaces after) (root : Element) :
    progress? (.after root) after = some (.after root) := by
  have literal := spaces.literal
  have ended := progress?_run literal.noMarkup startsMarkup_nil (.after root)
  rw [List.append_nil] at ended
  rw [ended]
  by_cases empty : after = []
  · rw [empty]
    exact progress?_nil _
  · have all : after.all isSpace = true := spaces
    rw [span?_run literal.noMarkup empty,
      runPiece?_eq literal.proper literal.noEnd (data?_of_not_mem literal.noReference), all]
    exact progress?_nil _

/-- An element with spaces after it is a document. -/
theorem IsElement.document (isElement : IsElement [] own opening closing tag)
    (areContents : IsContents own contents text children) (alone : children ≠ [] → text = [])
    (after : Text) (spaces : IsSpaces after)
    (isBody : body? (opening ++ (contents ++ (closing ++ after))) =
      some (opening ++ (contents ++ (closing ++ after)))) :
    parse? (opening ++ (contents ++ (closing ++ after))) = some (.mk tag text children) := by
  refine parse?_of_progress? isBody ?_
  rw [isElement.reads areContents alone .before [] (fun _ _ => rfl) rfl]
  exact spaces.progress?_after _

theorem IsChild.of_eq {child : Element} {other : Text} (isChild : IsChild scope text child)
    (same : other = text) : IsChild scope other child := same ▸ isChild

theorem IsChild.spaced {child : Element} {front : Text} (isChild : IsChild scope text child)
    (spaces : IsSpaces front) : IsChild scope (front ++ text) child := by
  obtain ⟨back, areSpaces, reads⟩ := isChild
  refine ⟨back, areSpaces, fun before inner outer rest isBefore isScope => ?_⟩
  obtain ⟨written, isRead⟩ := reads (before ++ front) inner outer rest (isBefore.append spaces) isScope
  exact ⟨written, by simpa only [List.append_assoc] using isRead⟩

theorem tag?_written {name : Name} {attributes : List (Name × Text)} {kept : List (Text × Text)}
    (noDeclaration : name.qualifier ≠ "xmlns") (declares : declarations? attributes = some own)
    (resolves : resolved? (scope.enter own) []
      (attributes.filter fun entry => !isDeclaration entry.1) = some kept)
    (known : ((scope.enter own).lookup name.qualifier).isSome = true) :
    ∃ shown, tag? scope name attributes = some (scope.enter own, ⟨shown, name.base, kept⟩) := by
  have inScope : ((scope.enter own).lookup name.qualifier).isNone = false := by
    rw [← Option.not_isSome, known]
    rfl
  unfold tag?
  rw [if_neg noDeclaration, declares]
  dsimp only
  rw [resolves]
  dsimp only
  rw [inScope, Bool.false_and, if_neg Bool.false_ne_true]
  exact ⟨_, rfl⟩

theorem Name.IsWritable.element {name : Name} (writable : name.IsWritable) (scope own : Scope)
    {ending : Text}
    {attributes : List (Name × Text)} {kept : List (Text × Text)}
    (lacking : Lacking isNameCharacter ending)
    (reads : attributes? ending = some (attributes, false, []))
    (noDeclaration : name.qualifier ≠ "xmlns") (declares : declarations? attributes = some own)
    (resolves : resolved? (scope.enter own) []
      (attributes.filter fun entry => !isDeclaration entry.1) = some kept)
    (known : ((scope.enter own).lookup name.qualifier).isSome = true) :
    ∃ shown, IsElement scope (scope.enter own) (name.opening ending) name.closing
      ⟨shown, name.base, kept⟩ := by
  obtain ⟨shown, isTag⟩ := tag?_written noDeclaration declares resolves known
  exact ⟨shown, name, attributes, writable.opening lacking reads, isTag, writable.closing⟩

/-- The tags of an element without attributes, whose qualifier is known. -/
theorem Name.IsWritable.bare {name : Name} (writable : name.IsWritable) (scope : Scope)
    (noDeclaration : name.qualifier ≠ "xmlns")
    (known : (scope.lookup name.qualifier).isSome = true) :
    ∃ shown, IsElement scope scope (name.opening ">") name.closing ⟨shown, name.base, []⟩ :=
  writable.element scope [] (lacking_cons (by decide) []) attributes?_none noDeclaration rfl rfl known

/-- An element without attributes, with spaces around it, is read as a child. -/
theorem Name.IsWritable.child {name : Name} (writable : name.IsWritable) (scope : Scope)
    (noDeclaration : name.qualifier ≠ "xmlns")
    (known : (scope.lookup name.qualifier).isSome = true)
    (areContents : IsContents scope contents text children) (alone : children ≠ [] → text = [])
    (before after : Text) (spaces : IsSpaces before) (more : IsSpaces after) :
    ∃ shown, IsChild scope (before ++ (name.opening ">" ++ (contents ++ (name.closing ++ after))))
      (.mk ⟨shown, name.base, []⟩ text children) := by
  obtain ⟨shown, isElement⟩ := writable.bare scope noDeclaration known
  exact ⟨shown, isElement.child areContents alone before after spaces more⟩

end

end Xml

end ManagementShell
