import ManagementShell.Proofs.Xml.Collection
import ManagementShell.Proofs.Xml.Declaration
import ManagementShell.Response

/-
This file shows that the documents of an output, each with its prologue, are the children of the tree
that the output is read as.
-/

namespace ManagementShell
open Text

namespace Xml

/-- Markup that begins in the text ends in it. -/
def IsClosed (text : Text) : Prop := ∀ front back, text = front ++ '<' :: back → '>' ∈ back

theorem IsClosed.append {first second : Text} (closed : IsClosed first)
    (more : IsClosed second) : IsClosed (first ++ second) := by
  intro front back same
  rcases List.append_eq_append_iff.mp same with ⟨between, rfl, rfl⟩ | ⟨between, rfl, isBack⟩
  · exact more between back rfl
  · cases between with
    | nil => exact more [] back (by simpa using isBack.symm)
    | cons character others =>
        obtain ⟨rfl, rfl⟩ := List.cons.inj isBack
        exact List.mem_append_left _ (closed front others rfl)

theorem isClosed_of_ends {text : Text} (ends : text.getLast? = some '>') : IsClosed text := by
  rintro front back rfl
  cases back with
  | nil => simp at ends
  | cons character others =>
      rw [List.getLast?_append_of_ne_nil _ (List.cons_ne_nil _ _), List.getLast?_cons_cons] at ends
      exact List.mem_of_mem_getLast? ends

theorem isClosed_of_noMarkup {text : Text} (noMarkup : '<' ∉ text) : IsClosed text := by
  rintro front back rfl
  simp at noMarkup

theorem isClosed_written {segments : List Segment} (valid : ∀ segment ∈ segments, segment.IsValid)
    {last : Text} (noMarkup : '<' ∉ last) : IsClosed (written segments last) := by
  induction segments with
  | nil => exact isClosed_of_noMarkup noMarkup
  | cons segment others inductionHypothesis =>
      rw [List.forall_mem_cons] at valid
      obtain ⟨piece, isMarkup⟩ := valid.1.markup
      rw [written_cons]
      exact (isClosed_of_noMarkup valid.1.run).append
        ((isClosed_of_ends isMarkup.last).append (inductionHypothesis valid.2))

def byteOrderMark (text : Text) : Text := text.take (if text.head? = some '\uFEFF' then 1 else 0)

theorem body?_closed {document body : Text} (isBody : body? document = some body) :
    ∃ front, document = front ++ body ∧ IsClosed front := by
  obtain ⟨mark, declaration, rfl, isMark, isDeclaration⟩ := body?_eq_some isBody
  refine ⟨mark ++ declaration, (List.append_assoc _ _ _).symm, IsClosed.append ?_ ?_⟩
  · refine isClosed_of_noMarkup ?_
    rcases isMark with rfl | rfl <;> decide
  · rcases isDeclaration with rfl | isDeclaration
    · exact isClosed_of_noMarkup List.not_mem_nil
    · exact isClosed_of_ends isDeclaration.last

end Xml

namespace Response

theorem withoutPrologues_skip (front rest : Text) :
    withoutPrologues front.length (front ++ rest) = withoutPrologues 0 rest := by
  induction front with
  | nil => rfl
  | cons character others inductionHypothesis =>
      rw [List.length_cons, List.cons_append, withoutPrologues, inductionHypothesis]

/-- The characters of a prologue after its beginning. -/
def isInside (character : Char) : Bool := character != '>' && character != '\n'

theorem prologueLength?_eq (text : Text) : prologueLength? text =
    (after? text "<?xml version=").bind fun rest =>
      if (rest.drop (rest.takeWhile isInside).length).head? = some '>' then
        some ((rest.takeWhile isInside).length + 15)
      else none := by
  unfold prologueLength?
  cases after? text "<?xml version=" with
  | none => rfl
  | some rest =>
      change _ = if (rest.drop (rest.takeWhile isInside).length).head? = some '>' then _ else _
      dsimp only
      split
      · rename_i tail isTail
        rw [show rest.drop (rest.takeWhile isInside).length = '>' :: tail from isTail]
        rfl
      · rename_i noEnd
        refine (if_neg fun isHead => ?_).symm
        obtain ⟨tail, isTail⟩ := List.head?_eq_some_iff.mp isHead
        exact noEnd tail isTail

theorem prologueLength?_written {inside : Text} (areInside : inside.all isInside = true)
    (rest : Text) :
    prologueLength? ("<?xml version=" ++ inside ++ '>' :: rest) = some (inside.length + 15) := by
  have lacking : Xml.Lacking isInside ('>' :: rest) := fun character isHead => by
    cases isHead
    rfl
  obtain ⟨taken, -⟩ := Xml.takeWhile_append_of_lacking areInside lacking
  rw [prologueLength?_eq, List.append_assoc, after?_append, Option.bind_some, taken, List.drop_left]
  rfl

theorem prologueLength?_le {text : Text} {length : Nat}
    (isLength : prologueLength? text = some length) : 0 < length ∧ length ≤ text.length := by
  rw [prologueLength?_eq] at isLength
  obtain ⟨rest, isRest, isInside⟩ := Option.bind_eq_some_iff.mp isLength
  split at isInside
  · rename_i isEnd
    cases isInside
    have shorter : (rest.takeWhile Response.isInside).length < rest.length := by
      by_contra whole
      rw [List.drop_eq_nil_of_le (Nat.le_of_not_lt whole)] at isEnd
      cases isEnd
    rw [← after?_eq_some.mp isRest, List.length_append]
    have mark : ("<?xml version=" : Text).length = 14 := by decide
    omega
  · cases isInside

/-- The rest of a prologue that began, up to its end. -/
theorem insideLength_append {text : Text} (ends : '>' ∈ text) (more : Text) :
    (text ++ more).takeWhile isInside = text.takeWhile isInside ∧
      ((text ++ more).drop (text.takeWhile isInside).length).head? =
        (text.drop (text.takeWhile isInside).length).head? := by
  have shorter : (text.takeWhile isInside).length < text.length := by
    refine lt_of_le_of_ne (List.takeWhile_prefix _).length_le fun same => ?_
    have whole := (List.takeWhile_prefix isInside).eq_of_length same
    have inside := List.all_eq_true.mp (List.all_takeWhile (p := isInside) (l := text)) '>'
    rw [whole] at inside
    exact absurd (inside ends) (by decide)
  constructor
  · rw [List.takeWhile_append, if_neg (Nat.ne_of_lt shorter)]
  · rw [List.drop_append_of_le_length shorter.le]
    have nonempty : text.drop (text.takeWhile isInside).length ≠ [] := by
      rw [ne_eq, List.drop_eq_nil_iff]
      omega
    exact List.head?_append_of_ne_nil _ nonempty

/-- What follows a text in which markup ends does not make a prologue of its beginning. -/
theorem prologueLength?_append {text : Text} (closed : Xml.IsClosed text) (nonempty : text ≠ [])
    (more : Text) : prologueLength? (text ++ more) = prologueLength? text := by
  rw [prologueLength?_eq, prologueLength?_eq]
  cases isRest : after? text "<?xml version=" with
  | none =>
      have noneThere : after? (text ++ more) "<?xml version=" = none := by
        rw [after?_eq_none] at isRest ⊢
        intro starts
        obtain ⟨character, others, rfl⟩ := List.exists_cons_of_ne_nil nonempty
        have isMark : character = '<' := by
          obtain ⟨tail, same⟩ := starts
          exact (List.cons.inj same).1.symm
        rw [isMark] at closed isRest starts
        have ends := closed [] others rfl
        exact isRest (prefix_of_append (List.mem_cons_of_mem _ ends) (by decide) starts)
      rw [noneThere]
  | some rest =>
      have written := after?_eq_some.mp isRest
      have someThere : after? (text ++ more) "<?xml version=" = some (rest ++ more) := by
        rw [← written, List.append_assoc, after?_append]
      have ends : '>' ∈ rest := by
        have inText := closed [] ("?xml version=" ++ rest) written.symm
        rcases List.mem_append.mp inText with inMark | inRest
        · exact absurd inMark (by decide)
        · exact inRest
      obtain ⟨taken, sameEnd⟩ := insideLength_append ends more
      rw [someThere, Option.bind_some, Option.bind_some, taken, sameEnd]

/-- A text in which markup ends is stripped of its own prologues only. -/
theorem withoutPrologues_append {skip : Nat} {first : Text} (closed : Xml.IsClosed first)
    (within : skip ≤ first.length) (second : Text) :
    withoutPrologues skip (first ++ second) =
      ((withoutPrologues skip first).1 || (withoutPrologues 0 second).1,
        (withoutPrologues skip first).2 ++ (withoutPrologues 0 second).2) := by
  induction first generalizing skip with
  | nil =>
      cases Nat.le_zero.mp within
      rfl
  | cons character rest inductionHypothesis =>
      have closedRest : Xml.IsClosed rest := fun front back same =>
        closed (character :: front) back (by rw [same, List.cons_append])
      cases skip with
      | succ skip =>
          rw [List.cons_append, withoutPrologues, withoutPrologues]
          exact inductionHypothesis closedRest (by simpa using within)
      | zero =>
          have same := prologueLength?_append closed (List.cons_ne_nil _ _) second
          rw [List.cons_append] at same ⊢
          rw [withoutPrologues, withoutPrologues, same]
          cases isLength : prologueLength? (character :: rest) with
          | none =>
              dsimp only
              rw [inductionHypothesis closedRest (Nat.zero_le _)]
              rfl
          | some length =>
              have bounds := prologueLength?_le isLength
              rw [List.length_cons] at bounds
              dsimp only
              rw [inductionHypothesis closedRest (by omega)]
              rfl

theorem withoutPrologues_written {inside : Text} (areInside : inside.all isInside = true)
    (rest : Text) : withoutPrologues 0 ("<?xml version=" ++ inside ++ ">" ++ rest) =
      (true, (withoutPrologues 0 rest).2) := by
  have isLength := prologueLength?_written areInside rest
  have skipped := withoutPrologues_skip ("?xml version=" ++ inside ++ ">") rest
  have sameLength : ("?xml version=" ++ inside ++ ">" : Text).length = inside.length + 15 - 1 := by
    have mark : ("?xml version=" : Text).length = 13 := by decide
    have ending : (">" : Text).length = 1 := by decide
    rw [List.length_append, List.length_append, mark, ending]
    omega
  have regrouped : "<?xml version=" ++ inside ++ ">" ++ rest =
      '<' :: ("?xml version=" ++ inside ++ ">" ++ rest) := rfl
  have same : "<?xml version=" ++ inside ++ ">" ++ rest =
      "<?xml version=" ++ inside ++ '>' :: rest := by simp
  rw [same, ← same, regrouped, withoutPrologues, ← regrouped, same, isLength]
  dsimp only
  rw [← sameLength, skipped]

/-- A document of an output, with a prologue in front of it. -/
structure Part where
  inside : Text
  document : Text

namespace Part

def written (part : Part) : Text := "<?xml version=" ++ part.inside ++ ">" ++ part.document

theorem written_append (part : Part) (rest : Text) : part.written ++ rest =
    "<?xml version=" ++ part.inside ++ ">" ++ (part.document ++ rest) :=
  List.append_assoc _ part.document rest

/-- What is left of the document without its prologues. -/
def kept (part : Part) : Text := (withoutPrologues 0 part.document).2

/-- The prologue is on one line, and neither the search for prologues nor the joining of lines breaks
the document: the only prologue in it is its own, and each part of it survives. -/
structure IsPlain (part : Part) : Prop where
  oneLine : '>' ∉ part.inside ∧ '\n' ∉ part.inside
  kept : ∀ body ∈ Xml.body? part.document, part.kept = Xml.byteOrderMark part.document ++ body
  spans : ∀ body ∈ Xml.body? part.document, ∀ span ∈ Xml.spans body, Xml.Survives span

variable {part : Part}

/-- The element is the root of the document, blanks in texts apart. -/
def Yields (part : Part) (element : Element) : Prop :=
  ∃ root, Xml.parse? part.document = some root ∧ element.dense = root.dense

theorem IsPlain.areInside (plain : part.IsPlain) : part.inside.all isInside = true := by
  rw [List.all_eq_true]
  intro character member
  have noEnd : character ≠ '>' := fun same => plain.oneLine.1 (same ▸ member)
  have noBreak : character ≠ '\n' := fun same => plain.oneLine.2 (same ▸ member)
  simp [isInside, noEnd, noBreak]

theorem IsPlain.stands (plain : part.IsPlain) {root : Element}
    (parsed : Xml.parse? part.document = some root) :
    Xml.Stands part.kept root ∧ Xml.IsClosed part.document := by
  obtain ⟨body, isBody, isRoot⟩ := Xml.progress?_of_parse? parsed
  refine ⟨⟨Xml.byteOrderMark part.document, body, plain.kept body isBody, ?_, isRoot,
    plain.spans body isBody⟩, ?_⟩
  · unfold Xml.byteOrderMark
    split
    · rename_i isMark
      obtain ⟨rest, isRest⟩ := List.head?_eq_some_iff.mp isMark
      rw [isRest]
      exact List.forall_mem_singleton.mpr (.inr rfl)
    · exact List.forall_mem_nil _
  · obtain ⟨front, isDocument, closed⟩ := Xml.body?_closed isBody
    obtain ⟨pieces, arePieces, -⟩ := Option.bind_eq_some_iff.mp isRoot
    obtain ⟨segments, last, rfl, noMarkup, -, each⟩ :=
      Xml.isCut_of_spans Xml.survives_nil arePieces (plain.spans body isBody)
    rw [isDocument]
    exact closed.append
      (Xml.isClosed_written (fun segment member => (each segment member).1) noMarkup)

end Part

/-- Every prologue goes, and of the documents stays what is kept of them. -/
theorem withoutPrologues_parts {parts : List Part}
    (each : ∀ part ∈ parts, part.inside.all isInside = true ∧ Xml.IsClosed part.document) :
    withoutPrologues 0 (parts.flatMap Part.written) =
      (!parts.isEmpty, (parts.map Part.kept).flatten) := by
  induction parts with
  | nil => rfl
  | cons part others inductionHypothesis =>
      rw [List.forall_mem_cons] at each
      have isRest := withoutPrologues_append each.1.2 (Nat.zero_le part.document.length)
        (others.flatMap Part.written)
      rw [List.flatMap_cons, Part.written_append, withoutPrologues_written each.1.1, isRest,
        inductionHypothesis each.2]
      rfl

theorem exists_roots {parts : List Part}
    (each : ∀ part ∈ parts, (Xml.parse? part.document).isSome = true) :
    ∃ roots, List.Forall₂ (fun part root => Xml.parse? part.document = some root) parts roots := by
  induction parts with
  | nil => exact ⟨[], .nil⟩
  | cons part others inductionHypothesis =>
      rw [List.forall_mem_cons] at each
      obtain ⟨root, isRoot⟩ := Option.isSome_iff_exists.mp each.1
      obtain ⟨roots, areRoots⟩ := inductionHypothesis each.2
      exact ⟨root :: roots, .cons isRoot areRoots⟩

theorem stand_kept {parts : List Part} {roots : List Element}
    (areRoots : List.Forall₂ (fun part root => Xml.parse? part.document = some root) parts roots)
    (plain : ∀ part ∈ parts, part.IsPlain) :
    List.Forall₂ Xml.Stands (parts.map Part.kept) roots := by
  induction areRoots with
  | nil => exact .nil
  | cons isRoot others inductionHypothesis =>
      rw [List.forall_mem_cons] at plain
      exact .cons (plain.1.stands isRoot).1 (inductionHypothesis plain.2)

/-- Elements that are the same without blanks are those of the documents. -/
theorem forall₂_of_dense {parts : List Part} {roots children : List Element}
    (areRoots : List.Forall₂ (fun part root => Xml.parse? part.document = some root) parts roots)
    (same : children.map Element.dense = roots.map Element.dense) :
    List.Forall₂ Part.Yields parts children := by
  induction areRoots generalizing children with
  | nil =>
      rw [List.map_nil, List.map_eq_nil_iff] at same
      rw [same]
      exact .nil
  | @cons part root _ _ isRoot others inductionHypothesis =>
      obtain ⟨child, more, rfl, isChild, areMore⟩ := List.map_eq_cons_iff.mp same
      exact .cons ⟨root, isRoot, isChild⟩ (inductionHypothesis areMore)

theorem tree_ofOutput (raw : Text) : (ofOutput raw).tree = Xml.parse? (normalise raw) := by
  unfold ofOutput
  dsimp only
  split
  · rename_i isRoot
    rw [isRoot]
  · rename_i noRoot
    rw [noRoot]

/-- Output with prologues is put into an element, and its lines are joined. -/
theorem normalise_of_prologues {raw kept : Text} (stripped : withoutPrologues 0 raw = (true, kept)) :
    normalise raw = joined ("<Results>" ++ kept ++ "</Results>") := by
  have trimmed : Trimmed ("<Results>" ++ kept ++ "</Results>") := by
    refine ⟨fun character isHead => ?_, fun character isLast => ?_⟩
    · cases isHead
      rfl
    · rw [ends_append (rfl : ("</Results>" : Text).getLast? = some '>')] at isLast
      cases isLast
      rfl
  rw [normalise, stripped]
  exact trimmedLines_eq trimmed

/-- The output is read as an element with one child for each document, and each child is the root of
its document, blanks in texts apart. -/
theorem ofOutput_documents {parts : List Part} (nonempty : parts ≠ [])
    (each : ∀ part ∈ parts, (Xml.parse? part.document).isSome = true ∧ part.IsPlain) :
    ∃ children, (ofOutput (parts.flatMap Part.written)).tree =
        some (.mk ⟨"Results", "Results", []⟩ [] children) ∧
      List.Forall₂ Part.Yields parts children := by
  obtain ⟨roots, areRoots⟩ := exists_roots fun part member => (each part member).1
  have someRoot : roots ≠ [] := by
    rintro rfl
    cases areRoots
    exact nonempty rfl
  obtain ⟨children, parsed, same⟩ := Xml.parse?_joined someRoot
    (stand_kept areRoots fun part member => (each part member).2)
  have closed : ∀ part ∈ parts, part.inside.all isInside = true ∧ Xml.IsClosed part.document := by
    intro part member
    obtain ⟨isSome, plain⟩ := each part member
    obtain ⟨root, isRoot⟩ := Option.isSome_iff_exists.mp isSome
    exact ⟨plain.areInside, (plain.stands isRoot).2⟩
  have stripped := withoutPrologues_parts closed
  rw [show (!parts.isEmpty) = true by simpa using nonempty] at stripped
  refine ⟨children, ?_, forall₂_of_dense areRoots same⟩
  rw [tree_ofOutput, normalise_of_prologues stripped, parsed]

/-- Two indented documents, one of them with a comment on two lines. -/
theorem ofOutput_documents_indented :
    ∃ children, (ofOutput (List.flatMap Part.written
          [⟨"'1.0'?", "\n<a b='1'>\n  <c> x\n y</c>\n</a>\n"⟩,
            ⟨"'1.0'?", "<!-- two\n  lines -->\n<d/>"⟩])).tree =
        some (.mk ⟨"Results", "Results", []⟩ [] children) ∧
      List.Forall₂ Part.Yields [⟨"'1.0'?", "\n<a b='1'>\n  <c> x\n y</c>\n</a>\n"⟩,
        ⟨"'1.0'?", "<!-- two\n  lines -->\n<d/>"⟩] children := by
  refine ofOutput_documents (List.cons_ne_nil _ _) (List.forall_mem_cons.mpr ⟨⟨?_, ?_⟩,
    List.forall_mem_singleton.mpr ⟨?_, ?_⟩⟩)
  · decide +kernel
  · exact ⟨by decide, by decide +kernel, by decide +kernel⟩
  · decide +kernel
  · exact ⟨by decide, by decide +kernel, by decide +kernel⟩

/-- A break between the name of a tag and an attribute is lost, and with it the whole tree. -/
theorem ofOutput_broken_tag :
    (Xml.parse? "\n<a\n  b='1'>x</a>\n").isSome = true ∧
      (ofOutput "<?xml version='1.0'?>\n<a\n  b='1'>x</a>\n").tree.isNone = true := by
  decide +kernel

end Response

end ManagementShell
