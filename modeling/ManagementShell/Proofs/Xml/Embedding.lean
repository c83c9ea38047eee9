import ManagementShell.Proofs.Xml.Segment

/-
This file shows that a document is read inside an outer element as it is read alone, and that blanks
in character data do not matter for it.
-/

namespace ManagementShell

namespace Text

theorem dense_trim (text : Text) : dense (trim text) = dense text := by
  have started : dense (trimStart text) = dense text := by
    conv_rhs => rw [← List.takeWhile_append_dropWhile (p := isBlank) (l := text)]
    rw [dense_append, dense_blanks List.all_takeWhile, List.nil_append, trimStart]
  have ended (front : Text) : dense (trimEnd front) = dense front := by
    conv_rhs => rw [← List.rdropWhile_append_rtakeWhile (p := isBlank) (l := front)]
    have blanks : dense (front.rtakeWhile isBlank) = [] :=
      dense_blanks (List.all_eq_true.mpr fun _ => List.mem_rtakeWhile_imp)
    rw [dense_append, blanks, List.append_nil]
    rfl
  rw [trim, ended, started]

theorem trim_dense (text : Text) : trim (dense text) = dense text := by
  have visible : ∀ character ∈ dense text, isBlank character = false := by simp [dense]
  exact Trimmed.trim_eq ⟨fun character isHead => visible character (List.mem_of_mem_head? isHead),
    fun character isLast => visible character (List.mem_of_mem_getLast? isLast)⟩

end Text

open Text

mutual

/-- The element without the blanks of its texts. -/
def Element.dense : Element → Element
  | .mk tag text children => .mk tag (Text.dense text) (Element.denseAll children)

def Element.denseAll : List Element → List Element
  | [] => []
  | first :: rest => first.dense :: Element.denseAll rest

end

theorem Element.denseAll_eq (elements : List Element) :
    Element.denseAll elements = elements.map Element.dense := by
  induction elements with
  | nil => rfl
  | cons first rest inductionHypothesis => rw [denseAll, inductionHypothesis, List.map_cons]

namespace Xml

def Unclosed.dense (unclosed : Unclosed) : Unclosed :=
  { unclosed with
    text := Text.dense unclosed.text, children := unclosed.children.map Element.dense }

def Progress.dense : Progress → Progress
  | .before => .before
  | .inside inner outer => .inside inner.dense (outer.map Unclosed.dense)
  | .after root => .after root.dense

/-- The progress of a document that stands inside an element. -/
def Progress.within (around : Unclosed) : Progress → Progress
  | .before => .inside around []
  | .inside inner outer => .inside inner (outer ++ [around])
  | .after root => .inside { around with children := root :: around.children } []

theorem Unclosed.dense_close (unclosed : Unclosed) :
    unclosed.dense.close = unclosed.close.dense := by
  cases unclosed with
  | mk name scope tag text children =>
      cases children with
      | nil => simp [Unclosed.close, Unclosed.dense, Element.dense, Element.denseAll, trim_dense,
          dense_trim]
      | cons first rest =>
          simp [Unclosed.close, Unclosed.dense, Element.dense, Element.denseAll_eq, Text.dense]

theorem attach_dense (element : Element) (stack : List Unclosed) :
    attach element.dense (stack.map Unclosed.dense) = (attach element stack).dense := by
  cases stack <;> rfl

def scopeOf : List Unclosed → Scope
  | [] => []
  | inner :: _ => inner.scope

theorem enter?_eq (stack : List Unclosed) (name : Name) (attributes : List (Name × Text))
    (isEmpty : Bool) : enter? stack name attributes isEmpty =
      (tag? (scopeOf stack) name attributes).map fun entered =>
        let unclosed : Unclosed := ⟨name, entered.1, entered.2, [], []⟩
        if isEmpty then attach unclosed.close stack else .inside unclosed stack := by
  cases stack with
  | nil =>
      unfold enter? scopeOf
      cases isTag : tag? [] name attributes <;> simp [isTag]
  | cons inner outer =>
      unfold enter? scopeOf
      cases isTag : tag? inner.scope name attributes <;> simp [isTag]

theorem enter?_dense (stack : List Unclosed) (name : Name) (attributes : List (Name × Text))
    (isEmpty : Bool) : enter? (stack.map Unclosed.dense) name attributes isEmpty =
      (enter? stack name attributes isEmpty).map Progress.dense := by
  have sameScope : scopeOf (stack.map Unclosed.dense) = scopeOf stack := by cases stack <;> rfl
  rw [enter?_eq, enter?_eq, sameScope, Option.map_map]
  refine congrFun (congrArg Option.map (funext fun entered => ?_)) _
  cases isEmpty with
  | true => exact attach_dense (Unclosed.close ⟨name, entered.1, entered.2, [], []⟩) stack
  | false => rfl

/-- Blanks in character data do not change what comes after it. -/
theorem advance?_dense (inner : Unclosed) (outer : List Unclosed) (piece : Piece) :
    advance? (Progress.inside inner outer).dense piece.dense =
      (advance? (.inside inner outer) piece).map Progress.dense := by
  cases piece with
  | opening name attributes isEmpty => exact enter?_dense (inner :: outer) name attributes isEmpty
  | closing name =>
      change advance? (.inside inner.dense (outer.map Unclosed.dense)) (.closing name) = _
      rw [advance?, advance?]
      split
      · rename_i isName
        have isInner : name = inner.name := isName
        rw [if_pos isInner, Unclosed.dense_close, attach_dense]
        rfl
      · rename_i otherName
        have notInner : name ≠ inner.name := otherName
        rw [if_neg notInner]
        rfl
  | text content | blank content =>
      simp [Progress.dense, Piece.dense, advance?, Unclosed.dense, dense_append]
  | silent => rfl

theorem attach_within (around : Unclosed) (element : Element) (stack : List Unclosed) :
    attach element (stack ++ [around]) = (attach element stack).within around := by
  cases stack <;> rfl

theorem enter?_within {around : Unclosed} (noScope : around.scope = []) (stack : List Unclosed)
    (name : Name) (attributes : List (Name × Text)) (isEmpty : Bool) :
    enter? (stack ++ [around]) name attributes isEmpty =
      (enter? stack name attributes isEmpty).map (Progress.within around) := by
  have sameScope : scopeOf (stack ++ [around]) = scopeOf stack := by
    cases stack with
    | nil => exact noScope
    | cons inner outer => rfl
  rw [enter?_eq, enter?_eq, sameScope, Option.map_map]
  refine congrFun (congrArg Option.map (funext fun entered => ?_)) _
  cases isEmpty with
  | true => exact attach_within around _ stack
  | false => rfl

/-- What stands between documents only adds to the text of the element around them. -/
theorem advance?_within {around : Unclosed} (noScope : around.scope = []) {alone after : Progress}
    {piece : Piece} (advanced : advance? alone piece = some after) :
    ∃ text, advance? (alone.within around) piece =
      some (after.within { around with text := text }) := by
  cases piece with
  | opening name attributes isEmpty =>
      refine ⟨around.text, ?_⟩
      cases alone with
      | before =>
          have entered := enter?_within noScope [] name attributes isEmpty
          rw [advance?] at advanced
          rw [advanced] at entered
          exact entered
      | inside inner outer =>
          have entered := enter?_within noScope (inner :: outer) name attributes isEmpty
          rw [advance?] at advanced
          rw [advanced] at entered
          exact entered
      | after root => cases advanced
  | closing name =>
      refine ⟨around.text, ?_⟩
      cases alone with
      | before => cases advanced
      | inside inner outer =>
          rw [advance?] at advanced
          split at advanced
          · rename_i isName
            cases advanced
            exact (if_pos isName).trans (congrArg some (attach_within around _ outer))
          · cases advanced
      | after root => cases advanced
  | text content =>
      cases alone with
      | before => cases advanced
      | inside inner outer =>
          cases advanced
          exact ⟨around.text, rfl⟩
      | after root => cases advanced
  | blank content =>
      cases alone with
      | before =>
          cases advanced
          exact ⟨around.text ++ content, rfl⟩
      | inside inner outer =>
          cases advanced
          exact ⟨around.text, rfl⟩
      | after root =>
          cases advanced
          exact ⟨around.text ++ content, rfl⟩
  | silent =>
      rw [advance?] at advanced
      cases advanced
      exact ⟨around.text, by rw [advance?]⟩

/-- Blanks in character data apart, the whole is where the document alone is, but inside the element
around it. -/
def Embeds (around : Unclosed) (alone whole : Progress) : Prop :=
  ∃ text, whole.dense = (alone.within { around with text := text }).dense

variable {around : Unclosed} {alone whole after : Progress}

theorem exists_inside (around : Unclosed) (alone : Progress) :
    ∃ inner outer, alone.within around = .inside inner outer := by
  cases alone with
  | before => exact ⟨_, _, rfl⟩
  | inside inner outer => exact ⟨_, _, rfl⟩
  | after root => exact ⟨_, _, rfl⟩

/-- A step of the document alone is a step of the whole. -/
theorem Embeds.advance {piece other : Piece} (embeds : Embeds around alone whole)
    (noScope : around.scope = []) (advanced : advance? alone piece = some after)
    (same : other.dense = piece.dense) :
    ∃ next, advance? whole other = some next ∧ Embeds around after next := by
  obtain ⟨text, isWhole⟩ := embeds
  have noScopeThere : ({ around with text := text } : Unclosed).scope = [] := noScope
  obtain ⟨more, isMore⟩ := advance?_within noScopeThere advanced
  obtain ⟨inner, outer, isInside⟩ := exists_inside { around with text := text } alone
  rw [isInside] at isWhole isMore
  cases whole with
  | before => cases isWhole
  | after root => cases isWhole
  | inside innerThere outerThere =>
      have there := advance?_dense innerThere outerThere other
      rw [isWhole, same, advance?_dense inner outer piece, isMore, Option.map_some] at there
      obtain ⟨next, isNext, sameNext⟩ := Option.map_eq_some_iff.mp there.symm
      exact ⟨next, isNext, more, sameNext⟩

/-- Blanks add nothing that matters. -/
theorem Embeds.skip {piece : Piece} (embeds : Embeds around alone whole)
    (advanced : advance? alone piece = some after) (isBlank : piece.dense = .text []) :
    Embeds around after whole := by
  obtain ⟨text, isWhole⟩ := embeds
  refine ⟨text, isWhole.trans ?_⟩
  cases piece with
  | opening => cases isBlank
  | closing => cases isBlank
  | silent => cases isBlank
  | text content =>
      have noContent : Text.dense content = [] := Piece.text.inj isBlank
      cases alone with
      | before => cases advanced
      | after => cases advanced
      | inside inner outer =>
          cases advanced
          simp [Progress.within, Progress.dense, Unclosed.dense, dense_append, noContent]
  | blank content =>
      have noContent : Text.dense content = [] := Piece.text.inj isBlank
      cases alone with
      | before =>
          cases advanced
          rfl
      | after =>
          cases advanced
          rfl
      | inside inner outer =>
          cases advanced
          simp [Progress.within, Progress.dense, Unclosed.dense, dense_append, noContent]

/-- Markup that survives is read in the whole as it is read alone. -/
theorem Embeds.markup {markup : Text} {piece : Piece} (embeds : Embeds around alone whole)
    (noScope : around.scope = []) (isMarkup : IsMarkup markup piece) (survives : Survives markup)
    (advanced : span? alone markup = some after) :
    ∃ next, span? whole (Text.joined markup) = some next ∧ Embeds around after next := by
  obtain ⟨other, isJoined, same⟩ := isMarkup.joined survives
  rw [isMarkup.span?_eq] at advanced
  rw [isJoined.span?_eq]
  exact embeds.advance noScope advanced same

theorem joined_noMarkup {run : Text} (noMarkup : '<' ∉ run) : '<' ∉ Text.joined run :=
  fun member => noMarkup ((thinned_joined run).subset member)

theorem dense_runPiece (areSpaces : Bool) (content : Text) :
    Piece.dense ((if areSpaces then Piece.blank else Piece.text) content) =
      .text (Text.dense content) := by
  cases areSpaces <;> rfl

theorem runPiece?_eq {run : Text} {data : List Datum} (proper : run.all isCharacter = true)
    (noEnd : run.includes "]]>" = false) (isData : data? run = some data) : runPiece? run =
      some ((if run.all isSpace then Piece.blank else Piece.text) (content data)) := by
  rw [runPiece?, proper, noEnd, isData]
  rfl

theorem runPiece?_eq_some {run : Text} {piece : Piece} (isPiece : runPiece? run = some piece) :
    ∃ data, run.all isCharacter = true ∧ run.includes "]]>" = false ∧ data? run = some data ∧
      piece = (if run.all isSpace then Piece.blank else Piece.text) (content data) := by
  unfold runPiece? at isPiece
  split at isPiece
  · rename_i proper
    rw [Bool.and_eq_true, Bool.not_eq_true'] at proper
    obtain ⟨data, isData, rfl⟩ := Option.map_eq_some_iff.mp isPiece
    exact ⟨data, proper.1, proper.2, isData, rfl⟩
  · cases isPiece

theorem runPiece?_joined {run : Text} {piece : Piece} (isPiece : runPiece? run = some piece)
    (noEnd : (Text.joined run).includes "]]>" = false) :
    ∃ other, runPiece? (Text.joined run) = some other ∧ other.dense = piece.dense := by
  obtain ⟨data, proper, -, isData, rfl⟩ := runPiece?_eq_some isPiece
  obtain ⟨less, isLess, same⟩ := content_thinned (thinned_joined run) isData
  have properThere : (Text.joined run).all isCharacter = true :=
    List.all_eq_true.mpr fun character member =>
      List.all_eq_true.mp proper character ((thinned_joined run).subset member)
  refine ⟨_, runPiece?_eq properThere noEnd isLess, ?_⟩
  rw [dense_runPiece, dense_runPiece, same]

/-- Character data that survives is read in the whole as it is read alone; when nothing is left of
it, it was blank. -/
theorem Embeds.run {run : Text} (embeds : Embeds around alone whole) (noScope : around.scope = [])
    (noMarkup : '<' ∉ run) (survives : Survives run) (advanced : span? alone run = some after) :
    ∃ next, span? whole (Text.joined run) = some next ∧ Embeds around after next := by
  by_cases empty : run = []
  · rw [span?, if_pos empty] at advanced
    cases advanced
    exact ⟨whole, by rw [empty]; rfl, embeds⟩
  have noHead : run.head? ≠ some '<' := fun isHead => noMarkup (List.mem_of_mem_head? isHead)
  rw [Survives, if_neg noHead] at survives
  rw [span?_run noMarkup empty] at advanced
  obtain ⟨piece, isPiece, isAfter⟩ := Option.bind_eq_some_iff.mp advanced
  obtain ⟨other, isOther, same⟩ := runPiece?_joined isPiece survives
  by_cases nothing : Text.joined run = []
  · rw [nothing] at isOther
    cases isOther
    exact ⟨whole, by rw [span?, if_pos nothing], embeds.skip isAfter same.symm⟩
  · rw [span?_run (joined_noMarkup noMarkup) nothing, isOther]
    exact embeds.advance noScope isAfter same

theorem Segment.IsValid.joined {segment : Segment} (valid : segment.IsValid)
    (survives : Survives segment.markup) : segment.joined.IsValid := by
  obtain ⟨piece, isMarkup⟩ := valid.markup
  obtain ⟨other, isJoined, -⟩ := isMarkup.joined survives
  exact ⟨joined_noMarkup valid.run, other, isJoined⟩

/-- A segment that survives is read in the whole as it is read alone. -/
theorem Embeds.segment {segment : Segment} (embeds : Embeds around alone whole)
    (noScope : around.scope = []) (valid : segment.IsValid)
    (survives : Survives segment.run ∧ Survives segment.markup)
    (advanced : segment? alone segment = some after) :
    ∃ next, segment? whole segment.joined = some next ∧ Embeds around after next := by
  obtain ⟨piece, isMarkup⟩ := valid.markup
  obtain ⟨between, isBetween, isAfter⟩ := Option.bind_eq_some_iff.mp advanced
  obtain ⟨middle, isMiddle, embedsMiddle⟩ := embeds.run noScope valid.run survives.1 isBetween
  obtain ⟨next, isNext, embedsNext⟩ := embedsMiddle.markup noScope isMarkup survives.2 isAfter
  refine ⟨next, ?_, embedsNext⟩
  rw [segment?, Segment.joined, isMiddle]
  exact isNext

theorem Embeds.segments {segments : List Segment} (embeds : Embeds around alone whole)
    (noScope : around.scope = [])
    (each : ∀ segment ∈ segments, segment.IsValid ∧ Survives segment.run ∧ Survives segment.markup)
    (advanced : segments.foldlM segment? alone = some after) :
    ∃ next, (segments.map Segment.joined).foldlM segment? whole = some next ∧
      Embeds around after next := by
  induction segments generalizing alone whole with
  | nil =>
      cases advanced
      exact ⟨whole, rfl, embeds⟩
  | cons segment others inductionHypothesis =>
      rw [List.forall_mem_cons] at each
      rw [List.foldlM_cons] at advanced
      obtain ⟨between, isBetween, isAfter⟩ := Option.bind_eq_some_iff.mp advanced
      obtain ⟨middle, isMiddle, embedsMiddle⟩ :=
        embeds.segment noScope each.1.1 each.1.2 isBetween
      obtain ⟨next, isNext, embedsNext⟩ := inductionHypothesis embedsMiddle each.2 isAfter
      refine ⟨next, ?_, embedsNext⟩
      rw [List.map_cons, List.foldlM_cons, isMiddle]
      exact isNext

/-- The text is made of the spaces that may stand between elements. -/
def IsSpaces (text : Text) : Prop := text.all isSpace = true

theorem IsSpaces.append {first second : Text} (spaces : IsSpaces first) (more : IsSpaces second) :
    IsSpaces (first ++ second) := by
  rw [IsSpaces, List.all_append, spaces, more]
  rfl

theorem isBlank_of_isSpace {character : Char} (space : isSpace character = true) :
    isBlank character = true := by
  simp only [isSpace, Bool.or_eq_true, beq_iff_eq] at space
  rcases space with ((rfl | rfl) | rfl) | rfl
  · rfl
  · rfl
  · rfl
  · rfl

theorem IsSpaces.areBlank {text : Text} (spaces : IsSpaces text) : text.all isBlank = true :=
  List.all_eq_true.mpr fun character member =>
    isBlank_of_isSpace (List.all_eq_true.mp spaces character member)

theorem IsSpaces.trim_eq {text : Text} (spaces : IsSpaces text) : trim text = [] :=
  trim_eq_nil.mpr spaces.areBlank

/-- Spaces and byte order marks are all that stands between documents. -/
def IsIdle (text : Text) : Prop :=
  ∀ character ∈ text, isSpace character = true ∨ character = '\uFEFF'

theorem IsSpaces.idle {text : Text} (spaces : IsSpaces text) : IsIdle text :=
  fun character member => .inl (List.all_eq_true.mp spaces character member)

theorem IsIdle.lacks {text : Text} (idle : IsIdle text) {mark : Char}
    (noSpace : isSpace mark = false) (noMark : mark ≠ '\uFEFF') : mark ∉ text := by
  intro member
  rcases idle mark member with space | same
  · rw [noSpace] at space
    cases space
  · exact noMark same

theorem IsIdle.append {first second : Text} (idle : IsIdle first) (more : IsIdle second) :
    IsIdle (first ++ second) := List.forall_mem_append.mpr ⟨idle, more⟩

theorem IsIdle.joined {text : Text} (idle : IsIdle text) : IsIdle (Text.joined text) :=
  fun character member => idle character ((thinned_joined text).subset member)

theorem data?_of_not_mem {text : Text} (noReference : '&' ∉ text) :
    data? text = some (literalData text) := by
  unfold data?
  induction text with
  | nil => rfl
  | cons character rest inductionHypothesis =>
      rw [List.mem_cons, not_or] at noReference
      rw [dataFrom_none_cons, if_neg (Ne.symm noReference.1), inductionHypothesis noReference.2]
      rfl

theorem isCharacter_of_isSpace {character : Char} (space : isSpace character = true) :
    isCharacter character = true := by
  simp only [isSpace, Bool.or_eq_true, beq_iff_eq] at space
  rcases space with ((rfl | rfl) | rfl) | rfl <;> decide

theorem IsSpaces.proper {text : Text} (spaces : IsSpaces text) : text.all isCharacter = true :=
  List.all_eq_true.mpr fun character member =>
    isCharacter_of_isSpace (List.all_eq_true.mp spaces character member)

theorem IsIdle.runPiece? {text : Text} (idle : IsIdle text) :
    ∃ piece content, Xml.runPiece? text = some piece ∧ piece.dense = (Piece.blank content).dense := by
  have proper : text.all isCharacter = true := by
    rw [List.all_eq_true]
    intro character member
    rcases idle character member with space | rfl
    · exact isCharacter_of_isSpace space
    · decide
  have noEnd : text.includes "]]>" = false :=
    includes_of_lacks (by decide) (idle.lacks rfl (by decide : ']' ≠ '\uFEFF'))
  have isData := data?_of_not_mem (idle.lacks rfl (by decide : '&' ≠ '\uFEFF'))
  exact ⟨_, _, runPiece?_eq proper noEnd isData, dense_runPiece _ _⟩

/-- The progress is not in the root element. -/
def Progress.IsOutside : Progress → Prop
  | .inside _ _ => False
  | _ => True

theorem Progress.isOutside_before : Progress.before.IsOutside := trivial

theorem Progress.isOutside_after (root : Element) : (Progress.after root).IsOutside := trivial

theorem Progress.IsOutside.blank {alone : Progress} (outside : alone.IsOutside) (content : Text) :
    advance? alone (.blank content) = some alone := by
  cases alone with
  | inside inner outer => exact outside.elim
  | before => rfl
  | after root => rfl

/-- What stands between documents leaves the whole where it is. -/
theorem Embeds.idle {text : Text} (embeds : Embeds around alone whole) (noScope : around.scope = [])
    (outside : alone.IsOutside) (idle : IsIdle text) :
    ∃ next, span? whole (Text.joined text) = some next ∧ Embeds around alone next := by
  by_cases nothing : Text.joined text = []
  · exact ⟨whole, by rw [span?, if_pos nothing], embeds⟩
  · obtain ⟨piece, content, isPiece, same⟩ := idle.joined.runPiece?
    rw [span?_run (idle.joined.lacks rfl (by decide)) nothing, isPiece]
    exact embeds.advance noScope (outside.blank content) same

/-- Outside the root element there is nothing but spaces. -/
theorem spaces_of_outside {run : Text} (outside : alone.IsOutside) (noMarkup : '<' ∉ run)
    (advanced : span? alone run = some after) : after = alone ∧ IsSpaces run := by
  by_cases empty : run = []
  · rw [span?, if_pos empty] at advanced
    cases advanced
    rw [empty]
    exact ⟨rfl, rfl⟩
  rw [span?_run noMarkup empty] at advanced
  obtain ⟨piece, isPiece, isAfter⟩ := Option.bind_eq_some_iff.mp advanced
  obtain ⟨data, -, -, -, rfl⟩ := runPiece?_eq_some isPiece
  split at isAfter
  · rename_i areSpaces
    rw [outside.blank] at isAfter
    cases isAfter
    exact ⟨rfl, areSpaces⟩
  · cases alone with
    | inside inner outer => exact outside.elim
    | before => cases isAfter
    | after root => cases isAfter

end Xml

end ManagementShell
