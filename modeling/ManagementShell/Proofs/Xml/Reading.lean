import ManagementShell.Proofs.Extraction.Values
import ManagementShell.Proofs.Xml.Collection

/-
This file says what the pieces of a document can be, and shows that a property which every element
has when it is closed holds of all elements of a document.
-/

namespace ManagementShell
open Text

theorem Element.forall_inOrder_mk {holds : Element → Prop} {tag : Tag} {text : Text}
    {children : List Element} :
    (∀ inner ∈ (Element.mk tag text children).inOrder, holds inner) ↔
      holds (.mk tag text children) ∧ ∀ child ∈ children, ∀ inner ∈ child.inOrder, holds inner := by
  rw [inOrder, inOrderAll_eq, List.forall_mem_cons, List.forall_mem_flatMap]

namespace Xml

/-- These are characters that a document can hold. -/
def IsProper (text : Text) : Prop := ∀ character ∈ text, isCharacter character = true

theorem isProper_of_all {text : Text} (all : text.all isCharacter = true) : IsProper text :=
  List.all_eq_true.mp all

theorem IsProper.subset {text part : Text} (proper : IsProper text) (isPart : part ⊆ text) :
    IsProper part := fun character member => proper character (isPart member)

theorem IsProper.append {text more : Text} (proper : IsProper text) (properToo : IsProper more) :
    IsProper (text ++ more) :=
  List.forall_mem_append.mpr ⟨proper, properToo⟩

theorem referenced?_proper {name : Text} {character : Char}
    (isReference : referenced? name = some character) : isCharacter character = true := by
  have numbered {number : Option Nat} (isNumbered : number.bind numbered? = some character) :
      isCharacter character = true := by
    obtain ⟨code, -, isCode⟩ := Option.bind_eq_some_iff.mp isNumbered
    rw [numbered?, Option.ite_none_right_eq_some, Option.some_inj] at isCode
    exact isCode.2 ▸ isCode.1
  unfold referenced? at isReference
  split at isReference
  · exact numbered isReference
  · exact numbered isReference
  · repeat' split at isReference
    all_goals first | (cases isReference; decide) | cases isReference

/-- The characters of the data can stand in a document. -/
def IsProperData (data : List Datum) : Prop := IsProper (data.map Datum.character)

/-- The induction is on the text; a reference that is being read has no characters yet. -/
theorem dataFrom_proper {state : Option Text} {text : Text} {data : List Datum}
    (proper : IsProper text) (isData : dataFrom state text = some data) : IsProperData data := by
  induction text generalizing state data with
  | nil =>
      cases state with
      | none =>
          cases isData
          exact List.forall_mem_nil _
      | some name => cases isData
  | cons character rest inductionHypothesis =>
      obtain ⟨isFirst, areProper⟩ := List.forall_mem_cons.mp proper
      cases state with
      | none =>
          rw [dataFrom_none_cons] at isData
          split at isData
          · exact inductionHypothesis areProper isData
          · obtain ⟨others, areOthers, rfl⟩ := Option.map_eq_some_iff.mp isData
            exact List.forall_mem_cons.mpr ⟨isFirst, inductionHypothesis areProper areOthers⟩
      | some name =>
          rw [dataFrom_some_cons] at isData
          split at isData
          · obtain ⟨referenced, isReference, isRest⟩ := Option.bind_eq_some_iff.mp isData
            obtain ⟨others, areOthers, rfl⟩ := Option.map_eq_some_iff.mp isRest
            exact List.forall_mem_cons.mpr
              ⟨referenced?_proper isReference, inductionHypothesis areProper areOthers⟩
          · exact inductionHypothesis areProper isData

theorem literalData_proper {text : Text} (proper : IsProper text) :
    IsProperData (literalData text) := by
  rw [IsProperData, literalData, List.map_map]
  exact fun character member => proper character (by simpa using member)

/-- Line ends are all that comes in when data is read as content. -/
theorem contentFrom_proper (pending afterReference : Bool) {data : List Datum}
    (proper : IsProperData data) : IsProper (contentFrom pending afterReference data) := by
  have ends : isCharacter '\r' = true ∧ isCharacter '\n' = true := by decide
  induction data generalizing pending afterReference with
  | nil => cases pending <;> simp [contentFrom, IsProper, ends]
  | cons datum rest inductionHypothesis =>
      obtain ⟨isFirst, areProper⟩ := List.forall_mem_cons.mp proper
      have waiting {text : Text} (proper : IsProper text) :
          IsProper (if pending then text else []) := by
        split
        · exact proper
        · exact List.forall_mem_nil _
      have feed : IsProper ['\n'] := by simp [IsProper, ends.2]
      have carriage : IsProper ['\r'] := by simp [IsProper, ends.1]
      have first : IsProper [datum.character] := by simpa [IsProper] using isFirst
      have later (pending afterReference : Bool) :=
        inductionHypothesis pending afterReference areProper
      rw [contentFrom]
      dsimp only
      split
      · refine ((waiting carriage).append ?_).append (later _ _)
        split
        · exact List.forall_mem_nil _
        · exact first
      · split
        · split
          · exact (waiting feed).append feed
          · exact (waiting feed).append (later _ _)
        · split
          · exact (waiting feed).append (later _ _)
          · exact (waiting feed).append (first.append (later _ _))

theorem attributeValue_proper {data : List Datum} (proper : IsProperData data) :
    IsProper (attributeValue data) := by
  induction data with
  | nil => exact List.forall_mem_nil _
  | cons datum rest inductionHypothesis =>
      obtain ⟨isFirst, areProper⟩ := List.forall_mem_cons.mp proper
      have later := inductionHypothesis areProper
      rw [attributeValue]
      split
      · exact List.forall_mem_cons.mpr ⟨isFirst, later⟩
      · split
        · exact later
        · refine List.forall_mem_cons.mpr ⟨?_, later⟩
          split
          · decide
          · exact isFirst

/-- How a piece is read. -/
inductive Piece.IsRead : Piece → Prop
  | opening {text afterName rest : Text} {name : Name} {attributes : List (Name × Text)}
      {isEmpty : Bool} (isName : name? text = some (name, afterName))
      (areAttributes : attributes? afterName = some (attributes, isEmpty, rest)) :
      IsRead (.opening name attributes isEmpty)
  | closing (name : Name) : IsRead (.closing name)
  | text {data : List Datum} (proper : IsProperData data) : IsRead (.text (content data))
  | blank {data : List Datum} (proper : IsProperData data) : IsRead (.blank (content data))
  | silent : IsRead .silent

theorem upTo?_proper {text mark before after : Text}
    (isCut : upTo? text mark = some (before, after)) : IsProper before := by
  unfold upTo? at isCut
  split at isCut
  · split at isCut
    · rename_i proper
      cases isCut
      exact isProper_of_all proper
    · cases isCut
  · cases isCut

theorem characters?_isRead {text rest : Text} {piece : Piece}
    (areCharacters : characters? text = some (piece, rest)) : piece.IsRead := by
  unfold characters? at areCharacters
  dsimp only at areCharacters
  split at areCharacters
  · rename_i holds
    split at areCharacters
    · rename_i data isData
      cases areCharacters
      have proper := dataFrom_proper (isProper_of_all (Bool.and_eq_true _ _ ▸ holds).1) isData
      split
      · exact .blank proper
      · exact .text proper
    · cases areCharacters
  · cases areCharacters

theorem opening?_isRead {text rest : Text} {piece : Piece}
    (isOpening : opening? text = some (piece, rest)) : piece.IsRead := by
  unfold opening? at isOpening
  split at isOpening
  · cases isOpening
  rename_i name afterName isName
  split at isOpening
  · rename_i attributes isEmpty rest areAttributes
    cases isOpening
    exact .opening isName areAttributes
  · cases isOpening

theorem closing?_isRead {text rest : Text} {piece : Piece}
    (isClosing : closing? text = some (piece, rest)) : piece.IsRead := by
  unfold closing? at isClosing
  split at isClosing
  · cases isClosing
  · split at isClosing
    · cases isClosing
      exact .closing _
    · cases isClosing

theorem comment?_isRead {text rest : Text} {piece : Piece}
    (isComment : comment? text = some (piece, rest)) : piece.IsRead := by
  unfold comment? at isComment
  split at isComment
  · split at isComment
    · cases isComment
    · cases isComment
      exact .silent
  · cases isComment

theorem section?_isRead {text rest : Text} {piece : Piece}
    (isSection : section? text = some (piece, rest)) : piece.IsRead := by
  unfold section? at isSection
  split at isSection
  · rename_i isCut
    cases isSection
    exact .text (literalData_proper (upTo?_proper isCut))
  · cases isSection

theorem instruction?_isRead {text rest : Text} {piece : Piece}
    (isInstruction : instruction? text = some (piece, rest)) : piece.IsRead := by
  unfold instruction? at isInstruction
  split at isInstruction
  · cases isInstruction
  · split at isInstruction
    · split at isInstruction
      · cases isInstruction
        exact .silent
      · cases isInstruction
    · cases isInstruction

theorem piece?_isRead {text rest : Text} {piece : Piece}
    (isPiece : piece? text = some (piece, rest)) : piece.IsRead := by
  unfold piece? at isPiece
  split at isPiece
  · exact comment?_isRead isPiece
  · split at isPiece
    · exact section?_isRead isPiece
    · cases isPiece
  · exact instruction?_isRead isPiece
  · exact closing?_isRead isPiece
  · exact opening?_isRead isPiece
  · exact characters?_isRead isPiece

theorem pieces?_areRead {text : Text} {pieces : List Piece} (arePieces : pieces? text = some pieces) :
    ∀ piece ∈ pieces, piece.IsRead := by
  fun_induction pieces? text generalizing pieces with
  | case1 =>
      cases arePieces
      exact List.forall_mem_nil _
  | case2 => cases arePieces
  | case3 text nonempty piece rest isPiece shorter inductionHypothesis =>
      obtain ⟨others, areOthers, rfl⟩ := Option.map_eq_some_iff.mp arePieces
      exact List.forall_mem_cons.mpr ⟨piece?_isRead isPiece, inductionHypothesis areOthers⟩
  | case4 => cases arePieces

/-- Every open element is allowed with its tag and the text that it has so far, and every element
that is closed satisfies the property. -/
def Unclosed.Keeps (opens : Tag → Text → Prop) (holds : Element → Prop) (unclosed : Unclosed) : Prop :=
  opens unclosed.tag unclosed.text ∧
    ∀ child ∈ unclosed.children, ∀ inner ∈ child.inOrder, holds inner

def Progress.Keeps (opens : Tag → Text → Prop) (holds : Element → Prop) : Progress → Prop
  | .before => True
  | .inside inner outer => ∀ unclosed ∈ inner :: outer, unclosed.Keeps opens holds
  | .after root => ∀ inner ∈ root.inOrder, holds inner

/-- An element that the piece opens is allowed, and one that it gives text to stays so. -/
def Piece.Opens (opens : Tag → Text → Prop) : Piece → Prop
  | .opening name attributes _ =>
      ∀ outer scope tag, tag? outer name attributes = some (scope, tag) → opens tag []
  | .text content | .blank content => ∀ tag text, opens tag text → opens tag (text ++ content)
  | _ => True

section

variable {opens : Tag → Text → Prop} {holds : Element → Prop}
  (closes : ∀ unclosed : Unclosed, opens unclosed.tag unclosed.text → holds unclosed.close)

theorem attach_keeps {element : Element} {stack : List Unclosed}
    (keeps : ∀ inner ∈ element.inOrder, holds inner)
    (around : ∀ unclosed ∈ stack, unclosed.Keeps opens holds) :
    (attach element stack).Keeps opens holds := by
  cases stack with
  | nil => exact keeps
  | cons inner outer =>
      rw [List.forall_mem_cons] at around
      exact List.forall_mem_cons.mpr
        ⟨⟨around.1.1, List.forall_mem_cons.mpr ⟨keeps, around.1.2⟩⟩, around.2⟩

theorem Progress.Keeps.gets {inner : Unclosed} {outer : List Unclosed} {content : Text}
    (keeps : (Progress.inside inner outer).Keeps opens holds)
    (allowed : ∀ tag text, opens tag text → opens tag (text ++ content)) :
    (Progress.inside { inner with text := inner.text ++ content } outer).Keeps opens holds := by
  obtain ⟨⟨isAllowed, keepsInner⟩, keepsOuter⟩ := List.forall_mem_cons.mp keeps
  exact List.forall_mem_cons.mpr ⟨⟨allowed _ _ isAllowed, keepsInner⟩, keepsOuter⟩

include closes

theorem Unclosed.Keeps.close {unclosed : Unclosed} (keeps : unclosed.Keeps opens holds) :
    ∀ inner ∈ unclosed.close.inOrder, holds inner := by
  have isClosed := closes unclosed keeps.1
  obtain ⟨name, scope, tag, text, children⟩ := unclosed
  cases children with
  | nil => exact Element.forall_inOrder_mk.mpr ⟨isClosed, List.forall_mem_nil _⟩
  | cons first rest =>
      exact Element.forall_inOrder_mk.mpr
        ⟨isClosed, fun child member => keeps.2 child (List.mem_reverse.mp member)⟩

theorem enter?_keeps {stack : List Unclosed} {name : Name} {attributes : List (Name × Text)}
    {isEmpty : Bool} {after : Progress}
    (allowed : (Piece.opening name attributes isEmpty).Opens opens)
    (around : ∀ unclosed ∈ stack, unclosed.Keeps opens holds)
    (isAfter : enter? stack name attributes isEmpty = some after) : after.Keeps opens holds := by
  rw [enter?_eq] at isAfter
  obtain ⟨⟨scope, tag⟩, isTag, rfl⟩ := Option.map_eq_some_iff.mp isAfter
  have keeps : Unclosed.Keeps opens holds ⟨name, scope, tag, [], []⟩ :=
    ⟨allowed _ scope tag isTag, List.forall_mem_nil _⟩
  cases isEmpty with
  | true => exact attach_keeps (keeps.close closes) around
  | false => exact List.forall_mem_cons.mpr ⟨keeps, around⟩

theorem advance?_keeps {progress after : Progress} {piece : Piece}
    (keeps : progress.Keeps opens holds) (allowed : piece.Opens opens)
    (isAfter : advance? progress piece = some after) : after.Keeps opens holds := by
  unfold advance? at isAfter
  split at isAfter
  · cases isAfter
    exact keeps
  · cases isAfter
    exact keeps
  · exact enter?_keeps closes allowed (List.forall_mem_nil _) isAfter
  · cases isAfter
  · cases isAfter
    exact keeps.gets allowed
  · cases isAfter
    exact keeps.gets allowed
  · exact enter?_keeps closes allowed keeps isAfter
  · rename_i inner outer name
    split at isAfter
    · cases isAfter
      obtain ⟨keepsInner, keepsOuter⟩ := List.forall_mem_cons.mp keeps
      exact attach_keeps (keepsInner.close closes) keepsOuter
    · cases isAfter
  · cases isAfter
    exact keeps
  · cases isAfter

theorem foldlM_keeps {pieces : List Piece} {progress after : Progress}
    (keeps : progress.Keeps opens holds) (allowed : ∀ piece ∈ pieces, piece.Opens opens)
    (isAfter : pieces.foldlM advance? progress = some after) : after.Keeps opens holds := by
  induction pieces generalizing progress with
  | nil =>
      cases isAfter
      exact keeps
  | cons piece pieces inductionHypothesis =>
      rw [List.foldlM_cons] at isAfter
      obtain ⟨middle, isMiddle, later⟩ := Option.bind_eq_some_iff.mp isAfter
      rw [List.forall_mem_cons] at allowed
      exact inductionHypothesis (advance?_keeps closes keeps allowed.1 isMiddle) allowed.2 later

variable (opens holds) in
/-- What holds of every element when it is closed holds of all elements of a document. -/
theorem parse?_forall (allowed : ∀ piece : Piece, piece.IsRead → piece.Opens opens)
    {document : Text} {root : Element} (parsed : parse? document = some root) :
    ∀ inner ∈ root.inOrder, holds inner := by
  obtain ⟨body, _, isRoot⟩ := progress?_of_parse? parsed
  obtain ⟨pieces, arePieces, played⟩ := Option.bind_eq_some_iff.mp isRoot
  have atStart : Progress.before.Keeps opens holds := trivial
  have areAllowed : ∀ piece ∈ pieces, piece.Opens opens := fun piece member =>
    allowed piece (pieces?_areRead arePieces piece member)
  exact foldlM_keeps closes atStart areAllowed played

end

end Xml

end ManagementShell
