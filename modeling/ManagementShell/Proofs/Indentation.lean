import ManagementShell.Proofs.Xml.Indented

/-
This file shows that a document with one tag on a line is read as it was before, and what must be said
of a document for that.
-/

namespace ManagementShell.Xml
open Text

/-- No markup has a bracket that closes a tag but at its end. -/
def IsBracketed (document : Text) : Prop :=
  ∀ body ∈ body? document, '>' ∉ (document.take (document.length - body.length)).dropLast ∧
    ∀ span ∈ spans body, span.head? = some '<' → '>' ∉ span.dropLast

instance (document : Text) : Decidable (IsBracketed document) :=
  inferInstanceAs (Decidable (∀ body ∈ body? document,
    '>' ∉ (document.take (document.length - body.length)).dropLast ∧
      ∀ span ∈ spans body, span.head? = some '<' → '>' ∉ span.dropLast))

/-- Neither a comment nor a section nor an instruction divides the text of an element without elements
inside. -/
def IsUnbroken (document : Text) : Prop :=
  ∀ body ∈ body? document, ∀ pieces ∈ pieces? body, unbrokenFrom none pieces = true

instance (document : Text) : Decidable (IsUnbroken document) :=
  inferInstanceAs (Decidable (∀ body ∈ body? document, ∀ pieces ∈ pieces? body,
    unbrokenFrom none pieces = true))

/-- A document begins and ends with spaces, and there is markup in it. -/
theorem exists_segments {body : Text} {root : Element}
    (isRoot : progress? .before body = some (.after root))
    (closes : ∀ span ∈ spans body, span.head? = some '<' → '>' ∉ span.dropLast) :
    ∃ segment segments last, body = written (segment :: segments) last ∧
      (∀ each ∈ segment :: segments, each.IsClear) ∧ IsSpaces segment.run ∧ IsSpaces last := by
  obtain ⟨pieces, arePieces, -⟩ := Option.bind_eq_some_iff.mp isRoot
  obtain ⟨segments, last, rfl, noMarkup, -, each⟩ :=
    isCut_of_spans (fun isHead : ([] : Text).head? = some '<' => nomatch isHead) arePieces closes
  have clear : ∀ segment ∈ segments, segment.IsClear := by
    intro segment member
    obtain ⟨valid, -, closes⟩ := each segment member
    obtain ⟨piece, isMarkup⟩ := valid.markup
    exact ⟨valid, isTag_of_ends isMarkup.head isMarkup.last (closes isMarkup.head)⟩
  rw [progress?_written (fun segment member => (each segment member).1) noMarkup] at isRoot
  obtain ⟨progress, played, ended⟩ := Option.bind_eq_some_iff.mp isRoot
  obtain ⟨rfl, spaces⟩ := after_of_span? noMarkup ended
  cases segments with
  | nil => cases played
  | cons segment segments =>
      rw [List.foldlM_cons] at played
      obtain ⟨entered, isEntered, -⟩ := Option.bind_eq_some_iff.mp played
      obtain ⟨between, isBetween, -⟩ := Option.bind_eq_some_iff.mp isEntered
      have first := (clear segment List.mem_cons_self).run
      exact ⟨segment, segments, last, rfl, clear,
        (spaces_of_outside Progress.isOutside_before first isBetween).2, spaces⟩

section

variable {mark declaration : Text} (isMark : mark = [] ∨ mark = ['\uFEFF'])
  (isDeclaration : declaration = [] ∨ IsDeclaration declaration)
  (closes : '>' ∉ (mark ++ declaration).dropLast)
include isMark isDeclaration closes

/-- What stands in front of the document stays in front of it. -/
theorem indented_written {segment : Segment} {segments : List Segment} {last : Text}
    (clear : ∀ each ∈ segment :: segments, each.IsClear) (spaces : IsSpaces segment.run)
    (noMarkup : '<' ∉ last) : ∃ others stop,
      indented (mark ++ (declaration ++ written (segment :: segments) last)) =
        mark ++ (declaration ++ written others stop) ∧
      List.Forall₂ Segment.Respaced (segment :: segments) others ∧ IsSpaces stop := by
  have noTag : '<' ∉ mark := by
    rcases isMark with rfl | rfl <;> decide
  have trimmed : trim mark = mark := by
    rcases isMark with rfl | rfl <;> decide
  rw [indented, indentedFrom_run noTag]
  rcases isDeclaration with rfl | isDeclaration
  · -- The mark is written in front of the first tag.
    obtain ⟨isClear, clear⟩ := List.forall_mem_cons.mp clear
    obtain ⟨next, start, stop, areStart, areStop, isWritten⟩ :=
      isClear.indentedFrom_eq ⟨0, false⟩ mark (written segments last)
    obtain ⟨others, final, areOthers, respaced, areFinal⟩ :=
      indentedFrom_written clear noMarkup areStop next
    refine ⟨⟨start, segment.markup⟩ :: others, final, ?_,
      .cons ⟨rfl, start, [], areStart, rfl, ?_⟩ respaced, areFinal⟩
    · rw [List.nil_append, List.nil_append, List.nil_append, written_cons, written_cons, isWritten,
        areOthers, trim_append_blanks _ spaces.areBlank, trimmed]
    · rw [spaces.trim_eq, List.append_nil, List.append_nil]
  · have nonempty : declaration ≠ [] := by
      rintro rfl
      cases isDeclaration.last
    have isHead : declaration.head? = some '<' := by
      obtain ⟨rest, rfl⟩ := isDeclaration.starts
      rfl
    rw [List.dropLast_append_of_ne_nil nonempty, List.mem_append, not_or] at closes
    have isTag := isTag_of_ends isHead isDeclaration.last closes.2
    obtain ⟨others, final, areOthers, respaced, areFinal⟩ :=
      indentedFrom_written clear noMarkup (rfl : IsSpaces "\n") ⟨0, true⟩
    refine ⟨others, final, ?_, respaced, areFinal⟩
    rw [isTag.indentedFrom_eq, List.nil_append, trimmed, writeTag_declaration isDeclaration.starts,
      ← areOthers]
    simp only [List.append_assoc]

end

/-- A document that is written with one tag on a line can still be read, and its elements are the same,
blanks in texts apart; without exception they are the same, and so are the nodes, if no text is divided
by what carries no data. -/
theorem parse?_indented {document : Text} {root : Element} (parsed : parse? document = some root)
    (bracketed : IsBracketed document) :
    ∃ other, parse? (indented document) = some other ∧ other.dense = root.dense ∧
      (IsUnbroken document → other = root) := by
  obtain ⟨body, isBody, isRoot⟩ := progress?_of_parse? parsed
  obtain ⟨closesFront, closes⟩ := bracketed body isBody
  obtain ⟨segment, segments, last, rfl, clear, spaces, spacesLast⟩ := exists_segments isRoot closes
  obtain ⟨mark, declaration, isDocument, isMark, isDeclaration⟩ := body?_eq_some isBody
  have isFront : document.take (document.length - (written (segment :: segments) last).length) =
      mark ++ declaration := by
    rw [isDocument, ← List.append_assoc, List.length_append, Nat.add_sub_cancel, List.take_left]
  rw [isFront] at closesFront
  obtain ⟨others, stop, isIndented, respaced, spacesStop⟩ := indented_written isMark isDeclaration
    closesFront clear spaces (spacesLast.idle.lacks rfl (by decide))
  obtain ⟨pieces, arePieces, played⟩ := Option.bind_eq_some_iff.mp isRoot
  obtain ⟨piecesToo, arePiecesToo, respacedToo⟩ := pieces?_respaced respaced
    (fun each member => (clear each member).toIsValid) spacesLast spacesStop arePieces
  have isRootOf : rootOf? pieces = some root := by rw [rootOf?, played]
  obtain ⟨other, isOther, same, unbroken⟩ := rootOf?_respaced respacedToo isRootOf
  refine ⟨other, ?_, same, fun isUnbroken => unbroken (isUnbroken _ isBody pieces arePieces)⟩
  have bare : IsBare (written others stop) := by
    cases respaced with
    | @cons _ first _ others same _ =>
        obtain ⟨sameMarkup, front, back, areFront, areBack, isRun⟩ := same
        rw [written_cons, sameMarkup, isRun, spaces.trim_eq, List.nil_append]
        have valid : Segment.IsValid ⟨front ++ back, segment.markup⟩ :=
          ⟨(areFront.append areBack).idle.lacks rfl (by decide),
            (clear segment List.mem_cons_self).markup⟩
        exact valid.bare (areFront.append areBack) _
  rw [isDocument, isIndented, parse?, bare.body?_eq isMark isDeclaration]
  dsimp only
  rw [arePiecesToo]
  exact isOther

/-- A document with a declaration, attributes, a comment and a section. -/
theorem parse?_indented_declared : ∃ root,
    parse? "<?xml version='1.0'?><r p='1'><c>x > y</c><!-- z --><d><![CDATA[<]]></d><e/></r>" =
        some root ∧
      parse? (indented
          "<?xml version='1.0'?><r p='1'><c>x > y</c><!-- z --><d><![CDATA[<]]></d><e/></r>") =
        some root := by
  obtain ⟨root, parsed⟩ := Option.isSome_iff_exists.mp (by decide +kernel :
    (parse? "<?xml version='1.0'?><r p='1'><c>x > y</c><!-- z --><d><![CDATA[<]]></d><e/></r>").isSome =
      true)
  obtain ⟨other, parsedToo, -, same⟩ := parse?_indented parsed (by decide +kernel)
  rw [same (by decide +kernel)] at parsedToo
  exact ⟨root, parsed, parsedToo⟩

/-- The blanks behind a bracket in the value of an attribute get lost. -/
theorem parse?_indented_bracket : (parse? "<a b=\"x > y\">t</a>").isSome = true ∧
    (parse? (indented "<a b=\"x > y\">t</a>")).map Element.nodes ≠
      (parse? "<a b=\"x > y\">t</a>").map Element.nodes := by
  decide +kernel

/-- What follows a bracket in the last comment is left out, and the comment does not end. -/
example : (parse? "<a/><!-- x > y -->").isSome = true ∧
    (parse? (indented "<a/><!-- x > y -->")).isNone = true := by
  decide +kernel

/-- A section in the middle of a text gets blanks in front of it. -/
example : (parse? "<a>x<![CDATA[y]]></a>").map Element.nodes =
      some [⟨⟨"a", "a", []⟩, some "xy", [], none⟩] ∧
    (parse? (indented "<a>x<![CDATA[y]]></a>")).map Element.nodes =
      some [⟨⟨"a", "a", []⟩, some "x y", [], none⟩] := by
  decide +kernel

end ManagementShell.Xml
