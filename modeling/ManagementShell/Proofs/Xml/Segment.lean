import ManagementShell.Proofs.Xml.Locality
import ManagementShell.Proofs.Xml.Reference
import ManagementShell.Xml.Document

/-
This file cuts a document at its markup, and shows that joining its lines joins the lines of each
part.
-/

namespace ManagementShell.Xml
open Text

/-- The parts of a text that its pieces are read from. -/
def spans (text : Text) : List Text :=
  match piece? text with
  | none => []
  | some (_, rest) =>
      if rest.length < text.length then text.take (text.length - rest.length) :: spans rest else []
termination_by text.length

/-- Character data, which may be empty, and the markup after it. -/
structure Segment where
  run : Text
  markup : Text

namespace Segment

def written (segment : Segment) : Text := segment.run ++ segment.markup

structure IsValid (segment : Segment) : Prop where
  run : '<' ∉ segment.run
  markup : ∃ piece, IsMarkup segment.markup piece

def joined (segment : Segment) : Segment := ⟨Text.joined segment.run, Text.joined segment.markup⟩

end Segment

/-- The segments as a text, with the character data after the last markup. -/
def written (segments : List Segment) (last : Text) : Text :=
  segments.flatMap Segment.written ++ last

/-- The progress after a part of a document, which is one piece or empty. -/
def span? (progress : Progress) (span : Text) : Option Progress :=
  if span = [] then some progress else (piece? span).bind fun part => advance? progress part.1

def segment? (progress : Progress) (segment : Segment) : Option Progress :=
  (span? progress segment.run).bind (span? · segment.markup)

/-- The progress after all pieces of a text. -/
def progress? (start : Progress) (text : Text) : Option Progress :=
  (pieces? text).bind (List.foldlM advance? start)

theorem written_cons (segment : Segment) (segments : List Segment) (last : Text) :
    written (segment :: segments) last = segment.run ++ (segment.markup ++ written segments last) := by
  simp [written, Segment.written]

theorem pieces?_nil : pieces? [] = some [] := by
  rw [pieces?, if_pos rfl]

theorem progress?_nil (progress : Progress) : progress? progress [] = some progress := by
  rw [progress?, pieces?_nil]
  rfl

theorem pieces?_of_piece {text rest : Text} {piece : Piece}
    (isPiece : piece? text = some (piece, rest)) (shorter : rest.length < text.length) :
    pieces? text = (pieces? rest).map (piece :: ·) := by
  have nonempty : text ≠ [] := by
    rintro rfl
    exact absurd shorter (Nat.not_lt_zero _)
  rw [pieces?, if_neg nonempty, isPiece]
  exact if_pos shorter

theorem progress?_of_piece {text rest : Text} {piece : Piece} {progress : Progress}
    (isPiece : piece? text = some (piece, rest)) (shorter : rest.length < text.length) :
    progress? progress text = (advance? progress piece).bind (progress? · rest) := by
  rw [progress?, pieces?_of_piece isPiece shorter]
  unfold progress?
  cases pieces? rest with
  | none => cases advance? progress piece <;> rfl
  | some pieces =>
      rw [Option.map_some, Option.bind_some, List.foldlM_cons]
      rfl

theorem progress?_of_none {text : Text} {progress : Progress} (nonempty : text ≠ [])
    (noPiece : piece? text = none) : progress? progress text = none := by
  rw [progress?, pieces?, if_neg nonempty, noPiece]
  rfl

/-- The piece that character data is read as. -/
def runPiece? (run : Text) : Option Piece :=
  if run.all isCharacter && !includes run "]]>" then
    (data? run).map fun data =>
      (if run.all isSpace then Piece.blank else Piece.text) (content data)
  else none

theorem characters?_eq (text : Text) : characters? text =
    (runPiece? (text.takeWhile (· != '<'))).map (·, text.dropWhile (· != '<')) := by
  unfold characters? runPiece?
  dsimp only
  split
  · cases data? (text.takeWhile (· != '<')) <;> rfl
  · rfl

/-- The text is empty or begins with markup. -/
def StartsMarkup (text : Text) : Prop := ∀ character ∈ text.head?, character = '<'

theorem startsMarkup_nil : StartsMarkup [] := fun _ isHead => by cases isHead

theorem piece?_of_head {text : Text} (noMarkup : text.head? ≠ some '<') :
    piece? text = characters? text := by
  cases text with
  | nil => rfl
  | cons first others =>
      have noMark : first ≠ '<' := by simpa using noMarkup
      rw [piece?] <;> simp [noMark]

theorem piece?_run {run rest : Text} (noMarkup : '<' ∉ run) (nonempty : run ≠ [])
    (starts : StartsMarkup rest) : piece? (run ++ rest) = (runPiece? run).map (·, rest) := by
  have isRun : piece? (run ++ rest) = characters? (run ++ rest) := by
    obtain ⟨first, others, rfl⟩ := List.exists_cons_of_ne_nil nonempty
    exact piece?_of_head fun isHead => noMarkup (by cases isHead; exact List.mem_cons_self)
  have all : run.all (· != '<') = true := by
    rw [List.all_eq_true]
    intro character member
    simpa using fun same : character = '<' => noMarkup (same ▸ member)
  have lacking : Lacking (· != '<') rest := fun character isHead => by
    simp [starts character isHead]
  obtain ⟨taken, dropped⟩ := takeWhile_append_of_lacking all lacking
  rw [isRun, characters?_eq, taken, dropped]

theorem span?_run {run : Text} (noMarkup : '<' ∉ run) (nonempty : run ≠ []) (progress : Progress) :
    span? progress run = (runPiece? run).bind (advance? progress) := by
  have alone := piece?_run noMarkup nonempty startsMarkup_nil
  rw [List.append_nil] at alone
  rw [span?, if_neg nonempty, alone]
  cases runPiece? run <;> rfl

theorem progress?_run {run rest : Text} (noMarkup : '<' ∉ run) (starts : StartsMarkup rest)
    (progress : Progress) :
    progress? progress (run ++ rest) = (span? progress run).bind (progress? · rest) := by
  by_cases empty : run = []
  · rw [span?, if_pos empty, empty]
    rfl
  · have whole := piece?_run noMarkup empty starts
    rw [span?_run noMarkup empty]
    cases isPiece : runPiece? run with
    | none =>
        rw [isPiece] at whole
        rw [progress?_of_none (by simp [empty]) whole]
        rfl
    | some piece =>
        rw [isPiece] at whole
        have shorter : rest.length < (run ++ rest).length := by
          have := List.length_pos_of_ne_nil empty
          simp
          omega
        rw [progress?_of_piece whole shorter]
        rfl

theorem IsMarkup.nonempty {markup : Text} {piece : Piece} (isMarkup : IsMarkup markup piece) :
    markup ≠ [] := by
  rintro rfl
  cases isMarkup.head

theorem IsMarkup.startsMarkup {markup : Text} {piece : Piece} (isMarkup : IsMarkup markup piece)
    (rest : Text) : StartsMarkup (markup ++ rest) := by
  intro character isHead
  rw [head?_append_of_ends isMarkup.last, isMarkup.head] at isHead
  exact (Option.some.inj isHead).symm

theorem IsMarkup.span?_eq {markup : Text} {piece : Piece} (isMarkup : IsMarkup markup piece)
    (progress : Progress) : span? progress markup = advance? progress piece := by
  have alone := isMarkup.reads []
  rw [List.append_nil] at alone
  rw [span?, if_neg isMarkup.nonempty, alone]
  rfl

theorem progress?_markup {markup : Text} {piece : Piece} (isMarkup : IsMarkup markup piece)
    (rest : Text) (progress : Progress) : progress? progress (markup ++ rest) =
      (span? progress markup).bind (progress? · rest) := by
  have shorter : rest.length < (markup ++ rest).length := by
    have := List.length_pos_of_ne_nil isMarkup.nonempty
    simp
    omega
  rw [isMarkup.span?_eq, progress?_of_piece (isMarkup.reads rest) shorter]

/-- A document is read segment by segment. -/
theorem progress?_written {segments : List Segment} (valid : ∀ segment ∈ segments, segment.IsValid)
    {last : Text} (noMarkup : '<' ∉ last) (progress : Progress) :
    progress? progress (written segments last) =
      (segments.foldlM segment? progress).bind (span? · last) := by
  induction segments generalizing progress with
  | nil =>
      have ended := progress?_run noMarkup startsMarkup_nil progress
      rw [List.append_nil] at ended
      rw [written, List.flatMap_nil, List.nil_append, ended]
      exact (Option.bind_congr fun after _ => progress?_nil after).trans (Option.bind_fun_some _)
  | cons segment others inductionHypothesis =>
      rw [List.forall_mem_cons] at valid
      obtain ⟨piece, isMarkup⟩ := valid.1.markup
      rw [written_cons, progress?_run valid.1.run (isMarkup.startsMarkup _), List.foldlM_cons, segment?]
      cases span? progress segment.run with
      | none => rfl
      | some next =>
          dsimp only [Option.bind_some]
          rw [progress?_markup isMarkup]
          cases span? next segment.markup with
          | none => rfl
          | some after => exact inductionHypothesis valid.2 after

theorem startsMarkup_append {run rest : Text} (noMarkup : '<' ∉ run)
    (starts : StartsMarkup (run ++ rest)) : run = [] := by
  cases run with
  | nil => rfl
  | cons first others => exact absurd (starts first rfl ▸ List.mem_cons_self) noMarkup

/-- The text is cut at its markup, and what is said holds of every part. -/
def IsCut (holds : Text → Prop) (text : Text) : Prop :=
  ∃ segments last, text = written segments last ∧ '<' ∉ last ∧ holds last ∧
    ∀ segment ∈ segments, segment.IsValid ∧ holds segment.run ∧ holds segment.markup

section
variable {holds : Text → Prop}

theorem IsCut.markup {markup rest : Text} {piece : Piece} (cut : IsCut holds rest)
    (isMarkup : IsMarkup markup piece) (empty : holds []) (holdsMarkup : holds markup) :
    IsCut holds (markup ++ rest) := by
  obtain ⟨segments, last, rfl, noMarkup, holdsLast, each⟩ := cut
  refine ⟨⟨[], markup⟩ :: segments, last, ?_, noMarkup, holdsLast, ?_⟩
  · rw [written_cons]
    rfl
  · exact List.forall_mem_cons.mpr
      ⟨⟨⟨List.not_mem_nil, piece, isMarkup⟩, empty, holdsMarkup⟩, each⟩

theorem IsCut.run {run rest : Text} (cut : IsCut holds rest) (noMarkup : '<' ∉ run)
    (starts : StartsMarkup rest) (holdsRun : holds run) : IsCut holds (run ++ rest) := by
  obtain ⟨segments, last, rfl, noMarkupLast, holdsLast, each⟩ := cut
  cases segments with
  | nil =>
      rw [written, List.flatMap_nil, List.nil_append] at starts ⊢
      have noLast : last = [] :=
        startsMarkup_append noMarkupLast ((List.append_nil last).symm ▸ starts)
      refine ⟨[], run, ?_, noMarkup, holdsRun, List.forall_mem_nil _⟩
      rw [noLast, List.append_nil, written, List.flatMap_nil, List.nil_append]
  | cons segment others =>
      rw [List.forall_mem_cons] at each
      obtain ⟨⟨valid, holdsParts⟩, more⟩ := each
      rw [written_cons] at starts
      have noRun : segment.run = [] := startsMarkup_append valid.run starts
      refine ⟨⟨run, segment.markup⟩ :: others, last, ?_, noMarkupLast, holdsLast, ?_⟩
      · rw [written_cons, written_cons, noRun]
        rfl
      · exact List.forall_mem_cons.mpr
          ⟨⟨⟨noMarkup, valid.markup⟩, holdsRun, holdsParts.2⟩, more⟩

/-- A piece that does not begin with markup is all the character data in front of the next. -/
theorem exists_run {text rest : Text} {piece : Piece} (noMarkup : text.head? ≠ some '<')
    (isPiece : piece? text = some (piece, rest)) :
    ∃ run, text = run ++ rest ∧ '<' ∉ run ∧ StartsMarkup rest := by
  rw [piece?_of_head noMarkup, characters?_eq] at isPiece
  obtain ⟨read, -, isParts⟩ := Option.map_eq_some_iff.mp isPiece
  have isRest : text.dropWhile (· != '<') = rest := (Prod.mk.inj isParts).2
  refine ⟨text.takeWhile (· != '<'), ?_, fun member => ?_, fun character isHead => ?_⟩
  · rw [← isRest, List.takeWhile_append_dropWhile]
  · cases List.all_eq_true.mp List.all_takeWhile _ member
  · simpa using lacking_dropWhile (· != '<') text character (by rwa [isRest])

/-- What is said of every span is said of the runs and the markup of a text. -/
theorem isCut_of_spans (empty : holds []) {text : Text} {pieces : List Piece}
    (arePieces : pieces? text = some pieces) (all : ∀ span ∈ spans text, holds span) :
    IsCut holds text := by
  by_cases isEmpty : text = []
  · exact ⟨[], [], isEmpty, List.not_mem_nil, empty, List.forall_mem_nil _⟩
  rw [pieces?, if_neg isEmpty] at arePieces
  split at arePieces
  · cases arePieces
  rename_i piece rest isPiece
  split at arePieces
  · rename_i shorter
    obtain ⟨later, areLater, -⟩ := Option.map_eq_some_iff.mp arePieces
    rw [spans, isPiece] at all
    dsimp only at all
    rw [if_pos shorter, List.forall_mem_cons] at all
    have cut : IsCut holds rest := isCut_of_spans empty areLater all.2
    have taken (front : Text) (isText : text = front ++ rest) :
        text.take (text.length - rest.length) = front := by simp [isText]
    by_cases isHead : text.head? = some '<'
    · obtain ⟨body, isBody⟩ := List.head?_eq_some_iff.mp isHead
      obtain ⟨markup, isText, isMarkup⟩ := exists_markup (isBody ▸ isPiece)
      rw [taken markup (isBody.trans isText)] at all
      rw [isBody, isText]
      exact cut.markup isMarkup empty all.1
    · obtain ⟨run, isText, noMarkup, starts⟩ := exists_run isHead isPiece
      rw [taken run isText] at all
      rw [isText]
      exact cut.run noMarkup starts all.1
  · cases arePieces
termination_by text.length

end

/-- A piece without the blanks of its character data. -/
def Piece.dense : Piece → Piece
  | .text content | .blank content => .text (Text.dense content)
  | piece => piece

/-- What a part of a document is read as, blanks in character data apart, and what is left of it. -/
def reading? (span : Text) : Option (Piece × Text) :=
  (piece? span).map fun part => (part.1.dense, part.2)

/-- Markup is read the same after its lines are joined, and character data gets no end of a section.
-/
def Survives (span : Text) : Prop :=
  if span.head? = some '<' then reading? (Text.joined span) = reading? span
  else (Text.joined span).includes "]]>" = false

instance (span : Text) : Decidable (Survives span) :=
  inferInstanceAs (Decidable (if span.head? = some '<' then reading? (Text.joined span) = reading? span
    else (Text.joined span).includes "]]>" = false))

theorem survives_nil : Survives [] := by decide

/-- Everything that is on one line survives. -/
theorem survives_of_oneLine {span : Text} {piece : Piece} (isPiece : piece? span = some (piece, []))
    (oneLine : '\n' ∉ span) : Survives span := by
  unfold Survives
  rw [joined_of_oneLine oneLine]
  split
  · rfl
  · rename_i noMarkup
    rw [piece?_of_head noMarkup, characters?_eq] at isPiece
    obtain ⟨read, isRead, isParts⟩ := Option.map_eq_some_iff.mp isPiece
    have whole : span.takeWhile (· != '<') = span := by
      conv_rhs => rw [← List.takeWhile_append_dropWhile (p := (· != '<')) (l := span),
        (Prod.mk.inj isParts).2, List.append_nil]
    rw [whole, runPiece?] at isRead
    split at isRead
    · rename_i proper
      rw [Bool.and_eq_true, Bool.not_eq_true'] at proper
      exact proper.2
    · cases isRead

theorem IsMarkup.joined {markup : Text} {piece : Piece} (isMarkup : IsMarkup markup piece)
    (survives : Survives markup) :
    ∃ other, IsMarkup (Text.joined markup) other ∧ other.dense = piece.dense := by
  have alone := isMarkup.reads []
  rw [List.append_nil] at alone
  rw [Survives, if_pos isMarkup.head, reading?, reading?, alone] at survives
  obtain ⟨⟨other, rest⟩, isOther, same⟩ := Option.map_eq_some_iff.mp survives
  obtain ⟨sameOther, rfl⟩ := Prod.mk.inj same
  have starts : StartsVisible markup := by
    intro character isHead
    rw [isMarkup.head] at isHead
    cases isHead
    rfl
  have isHead := (thinned_joined markup).head starts
  rw [isMarkup.head] at isHead
  obtain ⟨body, isBody⟩ := List.head?_eq_some_iff.mp isHead
  rw [isBody] at isOther
  obtain ⟨used, isUsed, isJoined⟩ := exists_markup isOther
  rw [List.append_nil] at isUsed
  exact ⟨other, by rwa [isBody, isUsed], sameOther⟩

theorem joined_written {segments : List Segment} (valid : ∀ segment ∈ segments, segment.IsValid)
    (last : Text) : Text.joined (written segments last) =
      written (segments.map Segment.joined) (Text.joined last) := by
  induction segments with
  | nil => rfl
  | cons segment others inductionHypothesis =>
      rw [List.forall_mem_cons] at valid
      obtain ⟨piece, isMarkup⟩ := valid.1.markup
      have ends : EndsVisible segment.markup := by
        intro character isLast
        rw [isMarkup.last] at isLast
        cases isLast
        rfl
      have starts : StartsVisible (segment.markup ++ written others last) := by
        intro character isHead
        rw [head?_append_of_ends isMarkup.last, isMarkup.head] at isHead
        cases isHead
        rfl
      rw [List.map_cons, written_cons, written_cons, joined_append_of_starts _ starts,
        joined_append_of_ends ends, inductionHypothesis valid.2]
      rfl

end ManagementShell.Xml
