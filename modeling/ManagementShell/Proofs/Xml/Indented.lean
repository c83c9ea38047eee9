import ManagementShell.Proofs.Xml.Collection
import ManagementShell.Proofs.Xml.Declaration
import ManagementShell.Proofs.Xml.Runs
import ManagementShell.Xml.Indented

/-
This file shows that a document with one tag on a line, indented by its depth, has the elements that
it had before.
-/

namespace ManagementShell.Xml
open Text

/-- The text begins with the bracket that opens a tag and ends with the first that closes one. -/
def IsTag (text : Text) : Prop := ∃ inside, '>' ∉ inside ∧ text = '<' :: (inside ++ ['>'])

theorem isTag_of_ends {text : Text} (head : text.head? = some '<') (last : text.getLast? = some '>')
    (closes : '>' ∉ text.dropLast) : IsTag text := by
  obtain ⟨body, rfl⟩ := List.head?_eq_some_iff.mp head
  obtain ⟨front, isFront⟩ := List.getLast?_eq_some_iff.mp last
  cases front with
  | nil => cases isFront
  | cons first inside =>
      obtain ⟨rfl, rfl⟩ := List.cons.inj isFront
      have front : (('<' :: inside) ++ ['>']).dropLast = '<' :: inside := List.dropLast_concat
      exact ⟨inside, fun member => closes (front ▸ List.mem_cons_of_mem _ member), rfl⟩

/-- Character data is gathered until a tag begins. -/
theorem indentedFrom_run {run : Text} (noMarkup : '<' ∉ run) (cursor : Cursor) (text rest : Text) :
    indentedFrom cursor text none (run ++ rest) = indentedFrom cursor (text ++ run) none rest := by
  induction run generalizing text with
  | nil => rw [List.nil_append, List.append_nil]
  | cons character run inductionHypothesis =>
      rw [List.mem_cons, not_or] at noMarkup
      rw [List.cons_append, indentedFrom, if_neg (Ne.symm noMarkup.1),
        inductionHypothesis noMarkup.2, List.append_assoc]
      rfl

theorem indentedFrom_inside {inside : Text} (unclosed : '>' ∉ inside) (cursor : Cursor)
    (text tag rest : Text) : indentedFrom cursor text (some tag) (inside ++ '>' :: rest) =
      (writeTag cursor (trim text) (tag ++ (inside ++ ['>'])) rest).2 ++
        indentedFrom (writeTag cursor (trim text) (tag ++ (inside ++ ['>'])) rest).1 [] none rest := by
  induction inside generalizing tag with
  | nil =>
      rw [List.nil_append, indentedFrom, if_pos rfl]
      rfl
  | cons character inside inductionHypothesis =>
      rw [List.mem_cons, not_or] at unclosed
      rw [List.cons_append, indentedFrom, if_neg (Ne.symm unclosed.1),
        inductionHypothesis unclosed.2, List.append_assoc]
      rfl

theorem IsTag.indentedFrom_eq {tag : Text} (isTag : IsTag tag) (cursor : Cursor) (text rest : Text) :
    indentedFrom cursor text none (tag ++ rest) = (writeTag cursor (trim text) tag rest).2 ++
      indentedFrom (writeTag cursor (trim text) tag rest).1 [] none rest := by
  obtain ⟨inside, unclosed, rfl⟩ := isTag
  rw [List.cons_append, indentedFrom, if_pos rfl, List.append_assoc]
  exact indentedFrom_inside unclosed cursor text "<" rest

theorem isSpaces_margin (depth : Nat) : IsSpaces (margin depth) := by
  rw [IsSpaces, margin, List.all_eq_true]
  intro character member
  rw [List.eq_of_mem_replicate member]
  rfl

/-- A tag is written after the text before it, with nothing but spaces around it. -/
theorem writeTag_spaces (cursor : Cursor) (text tag rest : Text) :
    ∃ start stop, IsSpaces start ∧ IsSpaces stop ∧
      (writeTag cursor text tag rest).2 = text ++ (start ++ (tag ++ stop)) := by
  unfold writeTag
  split
  · refine ⟨if text = [] && cursor.endsLine then margin (cursor.depth - 1) else [], "\n", ?_, rfl, ?_⟩
    · split
      · exact isSpaces_margin _
      · rfl
    · dsimp only
      simp only [List.append_assoc]
  · have regrouped (stop : Text) : text ++ margin cursor.depth ++ tag ++ stop =
        text ++ (margin cursor.depth ++ (tag ++ stop)) := by simp only [List.append_assoc]
    dsimp only
    split
    · exact ⟨margin cursor.depth, "\n", isSpaces_margin _, rfl, regrouped _⟩
    · split
      · exact ⟨margin cursor.depth, "\n", isSpaces_margin _, rfl, regrouped _⟩
      · refine ⟨margin cursor.depth, [], isSpaces_margin _, rfl, ?_⟩
        rw [← regrouped, List.append_nil]

/-- A declaration is written where it stands, with the end of its line behind it. -/
theorem writeTag_declaration {tag : Text} (starts : "<?xml " <+: tag) (text rest : Text) :
    writeTag ⟨0, false⟩ text tag rest = (⟨0, true⟩, text ++ (tag ++ "\n")) := by
  obtain ⟨more, rfl⟩ := starts
  have isInstruction : (after? ("<?xml " ++ more) "<?").isSome = true := rfl
  unfold writeTag
  split
  · rename_i same
    cases same
  · dsimp only
    rw [isInstruction]
    simp [margin]

/-- The same markup after the same character data, with other spaces around the data. -/
structure Segment.Respaced (segment other : Segment) : Prop where
  markup : other.markup = segment.markup
  run : ∃ front back, IsSpaces front ∧ IsSpaces back ∧
    other.run = front ++ (trim segment.run ++ back)

/-- A segment whose markup is all a tag. -/
structure Segment.IsClear (segment : Segment) : Prop extends segment.IsValid where
  tag : IsTag segment.markup

theorem Segment.IsClear.indentedFrom_eq {segment : Segment} (clear : segment.IsClear)
    (cursor : Cursor) (text rest : Text) : ∃ next start stop, IsSpaces start ∧ IsSpaces stop ∧
      indentedFrom cursor text none (segment.run ++ (segment.markup ++ rest)) =
        trim (text ++ segment.run) ++
          (start ++ (segment.markup ++ (stop ++ indentedFrom next [] none rest))) := by
  obtain ⟨start, stop, areSpaces, areSpacesToo, isWritten⟩ :=
    writeTag_spaces cursor (trim (text ++ segment.run)) segment.markup rest
  refine ⟨(writeTag cursor (trim (text ++ segment.run)) segment.markup rest).1, start, stop, areSpaces,
    areSpacesToo, ?_⟩
  rw [indentedFrom_run clear.run, clear.tag.indentedFrom_eq, isWritten]
  simp only [List.append_assoc]

/-- The induction is on the segments; the spaces that are written behind a tag go in front of the
character data after it. -/
theorem indentedFrom_written {segments : List Segment}
    (clear : ∀ segment ∈ segments, segment.IsClear) {last : Text} (noMarkup : '<' ∉ last)
    {front : Text} (spaces : IsSpaces front) (cursor : Cursor) : ∃ others stop,
      front ++ indentedFrom cursor [] none (written segments last) = written others stop ∧
        List.Forall₂ Segment.Respaced segments others ∧ IsSpaces stop := by
  induction segments generalizing front cursor with
  | nil =>
      refine ⟨[], front, ?_, .nil, spaces⟩
      have ended := indentedFrom_run noMarkup cursor [] []
      rw [List.append_nil] at ended
      rw [written, List.flatMap_nil, List.nil_append, ended, indentedFrom, List.append_nil]
      rfl
  | cons segment segments inductionHypothesis =>
      rw [List.forall_mem_cons] at clear
      obtain ⟨next, start, stop, areSpaces, areSpacesToo, isWritten⟩ :=
        clear.1.indentedFrom_eq cursor [] (written segments last)
      obtain ⟨others, final, areOthers, respaced, areFinal⟩ :=
        inductionHypothesis clear.2 areSpacesToo next
      refine ⟨⟨front ++ (trim segment.run ++ start), segment.markup⟩ :: others, final, ?_,
        .cons ⟨rfl, front, start, spaces, areSpaces, rfl⟩ respaced, areFinal⟩
      rw [written_cons, written_cons, isWritten, areOthers, List.nil_append]
      simp only [List.append_assoc]

/-- The pieces of segments with other spaces around their character data. -/
theorem pieces?_respaced {segments others : List Segment}
    (respaced : List.Forall₂ Segment.Respaced segments others)
    (valid : ∀ segment ∈ segments, segment.IsValid) {last stop : Text} (spaces : IsSpaces last)
    (more : IsSpaces stop) {pieces : List Piece}
    (arePieces : pieces? (written segments last) = some pieces) :
    ∃ piecesToo, pieces? (written others stop) = some piecesToo ∧ Respaced pieces piecesToo := by
  induction respaced generalizing pieces with
  | nil =>
      have ended {run : Text} (spaces : IsSpaces run) : pieces? (written [] run) = runPieces? run := by
        have alone := pieces?_run (spaces.idle.lacks rfl (by decide)) startsMarkup_nil
        rw [List.append_nil, pieces?_nil] at alone
        rw [written, List.flatMap_nil, List.nil_append, alone]
        cases runPieces? run with
        | none => rfl
        | some pieces => exact congrArg some (List.append_nil pieces)
      rw [ended spaces] at arePieces
      obtain ⟨piecesToo, areOthers, goesOn⟩ :=
        runPieces?_between more (rfl : IsSpaces []) arePieces
      rw [spaces.trim_eq, List.nil_append, List.append_nil] at areOthers
      refine ⟨piecesToo, (ended more).trans areOthers, ?_⟩
      simpa using goesOn [] [] .nil
  | @cons segment other segments others same _ inductionHypothesis =>
      rw [List.forall_mem_cons] at valid
      obtain ⟨sameMarkup, front, back, areFront, areBack, isRun⟩ := same
      obtain ⟨piece, isMarkup⟩ := valid.1.markup
      have noMarkup : '<' ∉ other.run := by
        obtain ⟨before, behind, isTrimmed, -⟩ := exists_trim segment.run
        have absent := valid.1.run
        rw [isTrimmed, List.mem_append, List.mem_append] at absent
        rw [isRun, List.mem_append, List.mem_append]
        rintro (member | member | member)
        · exact areFront.idle.lacks rfl (by decide) member
        · exact absent (.inr (.inl member))
        · exact areBack.idle.lacks rfl (by decide) member
      rw [written_cons, pieces?_run valid.1.run (isMarkup.startsMarkup _)] at arePieces
      obtain ⟨run, areRun, arePieces⟩ := Option.bind_eq_some_iff.mp arePieces
      rw [pieces?_markup isMarkup] at arePieces
      obtain ⟨rest, isRest, rfl⟩ := Option.map_eq_some_iff.mp arePieces
      obtain ⟨rest, areRest, rfl⟩ := Option.map_eq_some_iff.mp isRest
      obtain ⟨runToo, areRunToo, goesOn⟩ := runPieces?_between areFront areBack areRun
      obtain ⟨restToo, areRestToo, respaced⟩ := inductionHypothesis valid.2 areRest
      refine ⟨runToo ++ piece :: restToo, ?_, goesOn _ _ (.same piece respaced)⟩
      rw [written_cons, sameMarkup, pieces?_run noMarkup (isMarkup.startsMarkup _), isRun, areRunToo,
        Option.bind_some, pieces?_markup isMarkup, areRestToo]
      rfl

/-- A text that begins with spaces and markup has no declaration in front of it. -/
theorem Segment.IsValid.bare {segment : Segment} (valid : segment.IsValid)
    (spaces : IsSpaces segment.run) (rest : Text) :
    IsBare (segment.run ++ (segment.markup ++ rest)) := by
  cases isRun : segment.run with
  | nil =>
      obtain ⟨piece, isMarkup⟩ := valid.markup
      exact isMarkup.bare rest
  | cons first run =>
      rw [isRun, IsSpaces, List.all_cons, Bool.and_eq_true] at spaces
      constructor
      · rintro isHead
        cases isHead
        cases spaces.1
      · rw [after?_eq_none]
        rintro ⟨more, same⟩
        cases (List.cons.inj same).1
        cases spaces.1

end ManagementShell.Xml
