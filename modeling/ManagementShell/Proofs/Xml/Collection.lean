import ManagementShell.Proofs.Xml.Embedding

/-
This file shows that documents that follow each other inside one element become the children of that
element when the lines are joined.
-/

namespace ManagementShell.Xml
open Text

/-- The text is read as the root element, after a byte order mark or spaces, and every part of it
survives when its lines are joined. -/
def Stands (text : Text) (root : Element) : Prop :=
  ∃ mark body, text = mark ++ body ∧ IsIdle mark ∧ progress? .before body = some (.after root) ∧
    ∀ span ∈ spans body, Survives span

variable {around : Unclosed} {whole : Progress}

/-- Character data after the root element does not end it. -/
theorem after_of_span? {progress : Progress} {run : Text} {root : Element} (noMarkup : '<' ∉ run)
    (advanced : span? progress run = some (.after root)) :
    progress = .after root ∧ IsSpaces run := by
  cases progress with
  | before =>
      obtain ⟨same, -⟩ := spaces_of_outside Progress.isOutside_before noMarkup advanced
      cases same
  | after other =>
      obtain ⟨same, spaces⟩ := spaces_of_outside (Progress.isOutside_after other) noMarkup advanced
      exact ⟨same.symm, spaces⟩
  | inside inner outer =>
      by_cases empty : run = []
      · rw [span?, if_pos empty] at advanced
        cases advanced
      · rw [span?_run noMarkup empty] at advanced
        obtain ⟨piece, isPiece, isAfter⟩ := Option.bind_eq_some_iff.mp advanced
        obtain ⟨data, -, -, -, rfl⟩ := runPiece?_eq_some isPiece
        split at isAfter <;> cases isAfter

/-- The first segment of a document, after what stands in front of the document. -/
def Segment.after (front : Text) (segment : Segment) : Segment :=
  ⟨front ++ segment.run, segment.markup⟩

/-- What stands in front of a document does not change how its first segment is read. -/
theorem Embeds.first {front : Text} {segment : Segment} {entered : Progress}
    (embeds : Embeds around .before whole) (noScope : around.scope = []) (idle : IsIdle front)
    (valid : segment.IsValid) (survives : Survives segment.markup)
    (advanced : segment? .before segment = some entered) :
    ((segment.after front).IsValid ∧ (segment.after front).joined.IsValid) ∧
      ∃ next, segment? whole (segment.after front).joined = some next ∧
        Embeds around entered next := by
  obtain ⟨piece, isMarkup⟩ := valid.markup
  obtain ⟨between, isBetween, isEntered⟩ := Option.bind_eq_some_iff.mp advanced
  obtain ⟨rfl, spaces⟩ := spaces_of_outside Progress.isOutside_before valid.run isBetween
  have idleAll : IsIdle (front ++ segment.run) := idle.append spaces.idle
  have validAfter : (segment.after front).IsValid :=
    ⟨idleAll.lacks rfl (by decide), piece, isMarkup⟩
  obtain ⟨middle, isMiddle, embedsMiddle⟩ :=
    embeds.idle noScope Progress.isOutside_before idleAll
  obtain ⟨next, isNext, embedsNext⟩ := embedsMiddle.markup noScope isMarkup survives isEntered
  refine ⟨⟨validAfter, validAfter.joined survives⟩, next, ?_, embedsNext⟩
  rw [segment?, Segment.after, Segment.joined, isMiddle]
  exact isNext

/-- One document becomes the next child. -/
theorem Embeds.document {text carry : Text} {root : Element} (embeds : Embeds around .before whole)
    (noScope : around.scope = []) (stands : Stands text root) (idle : IsIdle carry) :
    ∃ segments last next, carry ++ text = written segments last ∧
      (∀ segment ∈ segments, segment.IsValid ∧ segment.joined.IsValid) ∧ IsIdle last ∧
      (segments.map Segment.joined).foldlM segment? whole = some next ∧
      Embeds { around with children := root :: around.children } .before next := by
  obtain ⟨mark, body, rfl, idleMark, isRoot, survive⟩ := stands
  obtain ⟨pieces, arePieces, -⟩ := Option.bind_eq_some_iff.mp isRoot
  obtain ⟨segments, last, rfl, noMarkup, -, each⟩ :=
    isCut_of_spans survives_nil arePieces survive
  rw [progress?_written (fun segment member => (each segment member).1) noMarkup] at isRoot
  obtain ⟨progress, played, ended⟩ := Option.bind_eq_some_iff.mp isRoot
  obtain ⟨rfl, spaces⟩ := after_of_span? noMarkup ended
  cases segments with
  | nil => cases played
  | cons segment others =>
      rw [List.forall_mem_cons] at each
      obtain ⟨⟨valid, -, survives⟩, eachOther⟩ := each
      rw [List.foldlM_cons] at played
      obtain ⟨entered, isEntered, isRest⟩ := Option.bind_eq_some_iff.mp played
      obtain ⟨validFirst, middle, isMiddle, embedsMiddle⟩ :=
        embeds.first noScope (idle.append idleMark) valid survives isEntered
      obtain ⟨next, isNext, text, isWhole⟩ := embedsMiddle.segments noScope eachOther isRest
      refine ⟨segment.after (carry ++ mark) :: others, last, next, ?_, ?_, spaces.idle, ?_, text,
        isWhole⟩
      · rw [written_cons, written_cons, Segment.after]
        simp only [List.append_assoc]
      · refine List.forall_mem_cons.mpr ⟨validFirst, fun other member => ?_⟩
        obtain ⟨validOther, -, survivesOther⟩ := eachOther other member
        exact ⟨validOther, validOther.joined survivesOther⟩
      · rw [List.map_cons, List.foldlM_cons, isMiddle]
        exact isNext

/-- The induction is on the documents; what stands after one goes with the next. -/
theorem Embeds.documents {texts : List Text} {roots : List Element}
    (stand : List.Forall₂ Stands texts roots) {carry : Text} (idle : IsIdle carry)
    (embeds : Embeds around .before whole) (noScope : around.scope = []) :
    ∃ segments last next, carry ++ texts.flatten = written segments last ∧
      (∀ segment ∈ segments, segment.IsValid ∧ segment.joined.IsValid) ∧ IsIdle last ∧
      (segments.map Segment.joined).foldlM segment? whole = some next ∧
      Embeds { around with children := roots.reverse ++ around.children } .before next := by
  induction stand generalizing carry around whole with
  | nil => exact ⟨[], carry, whole, by simp [written], List.forall_mem_nil _, idle, rfl, embeds⟩
  | @cons text root texts roots stands others inductionHypothesis =>
      obtain ⟨segments, last, next, isText, valid, idleLast, played, embedsNext⟩ :=
        embeds.document noScope stands idle
      obtain ⟨more, final, after, isRest, validMore, idleFinal, playedMore, embedsAfter⟩ :=
        inductionHypothesis idleLast embedsNext noScope
      refine ⟨segments ++ more, final, after, ?_, ?_, idleFinal, ?_, ?_⟩
      · rw [List.flatten_cons, ← List.append_assoc, isText, written, written, List.flatMap_append,
          List.append_assoc, List.append_assoc, isRest]
        rfl
      · exact List.forall_mem_append.mpr ⟨valid, validMore⟩
      · rw [List.map_append, List.foldlM_append, played]
        exact playedMore
      · simpa using embedsAfter

/-- The element that documents are put into, when nothing of it is read yet. -/
def results : Unclosed := ⟨⟨[], "Results"⟩, [], ⟨"Results", "Results", []⟩, [], []⟩

theorem exists_markup_of_piece? {markup : Text} {piece : Piece} (isHead : markup.head? = some '<')
    (isPiece : piece? markup = some (piece, [])) : IsMarkup markup piece := by
  obtain ⟨body, rfl⟩ := List.head?_eq_some_iff.mp isHead
  obtain ⟨used, isUsed, isMarkup⟩ := exists_markup isPiece
  rw [isUsed, List.append_nil]
  exact isMarkup

theorem isMarkup_opening : IsMarkup "<Results>" (.opening ⟨[], "Results"⟩ [] false) :=
  exists_markup_of_piece? rfl (by decide +kernel)

theorem isMarkup_closing : IsMarkup "</Results>" (.closing ⟨[], "Results"⟩) :=
  exists_markup_of_piece? rfl (by decide)

/-- The segments of the documents, with the tags of the element around them. -/
def enclosed (segments : List Segment) (last : Text) : List Segment :=
  ⟨[], "<Results>"⟩ :: (segments ++ [⟨last, "</Results>"⟩])

theorem written_enclosed (segments : List Segment) (last : Text) :
    written (enclosed segments last) [] =
      "<Results>" ++ (written segments last ++ "</Results>") := by
  simp [enclosed, written, Segment.written]

theorem isValid_enclosed {segments : List Segment} (valid : ∀ segment ∈ segments, segment.IsValid)
    {last : Text} (noMarkup : '<' ∉ last) :
    ∀ segment ∈ enclosed segments last, segment.IsValid := by
  refine List.forall_mem_cons.mpr ⟨⟨List.not_mem_nil, _, isMarkup_opening⟩, ?_⟩
  refine List.forall_mem_append.mpr ⟨valid, List.forall_mem_singleton.mpr ?_⟩
  exact ⟨noMarkup, _, isMarkup_closing⟩

theorem map_joined_enclosed (segments : List Segment) (last : Text) :
    (enclosed segments last).map Segment.joined =
      enclosed (segments.map Segment.joined) (Text.joined last) := by
  have opening : Text.joined "<Results>" = "<Results>" := joined_of_oneLine (by decide)
  have closing : Text.joined "</Results>" = "</Results>" := joined_of_oneLine (by decide)
  simp only [enclosed, List.map_cons, List.map_append, List.map_nil, Segment.joined, opening,
    closing]
  rfl

/-- Between the tags the documents are played inside an element with nothing in it. -/
theorem foldlM_enclosed (segments : List Segment) (last : Text) :
    (enclosed segments last).foldlM segment? .before =
      ((segments.foldlM segment? (.inside results [])).bind (span? · last)).bind
        (advance? · (.closing ⟨[], "Results"⟩)) := by
  have opened : segment? .before ⟨[], "<Results>"⟩ = some (.inside results []) :=
    isMarkup_opening.span?_eq .before
  rw [enclosed, List.foldlM_cons, opened]
  refine (List.foldlM_append ..).trans ?_
  cases segments.foldlM segment? (.inside results []) with
  | none => rfl
  | some next =>
      change (segment? next ⟨last, "</Results>"⟩).bind some = _
      rw [Option.bind_fun_some, segment?, Option.bind_some]
      exact Option.bind_congr fun progress _ => isMarkup_closing.span?_eq progress

theorem Unclosed.close_of_ne_nil {unclosed : Unclosed} (nonempty : unclosed.children ≠ []) :
    unclosed.close = .mk unclosed.tag [] unclosed.children.reverse := by
  unfold Unclosed.close
  split
  · contradiction
  · rfl

/-- An element that embeds its documents is closed with their roots as children. -/
theorem Embeds.close {roots : List Element} (nonempty : roots ≠ [])
    (embeds : Embeds { results with children := roots.reverse } .before whole) :
    ∃ children, advance? whole (.closing ⟨[], "Results"⟩) =
        some (.after (.mk ⟨"Results", "Results", []⟩ [] children)) ∧
      children.map Element.dense = roots.map Element.dense := by
  obtain ⟨text, isWhole⟩ := embeds
  cases whole with
  | before => cases isWhole
  | after root => cases isWhole
  | inside inner outer =>
      obtain ⟨isInner, isOuter⟩ := Progress.inside.inj isWhole
      have noOuter : outer = [] := List.map_eq_nil_iff.mp isOuter
      have isName : inner.name = ⟨[], "Results"⟩ := congrArg Unclosed.name isInner
      have isTag : inner.tag = ⟨"Results", "Results", []⟩ := congrArg Unclosed.tag isInner
      have areChildren : inner.children.map Element.dense = roots.reverse.map Element.dense :=
        congrArg Unclosed.children isInner
      have someChild : inner.children ≠ [] := by
        intro none
        rw [none, List.map_nil, eq_comm, List.map_eq_nil_iff, List.reverse_eq_nil_iff] at areChildren
        exact nonempty areChildren
      refine ⟨inner.children.reverse, ?_, ?_⟩
      · rw [noOuter, advance?, if_pos isName.symm, Unclosed.close_of_ne_nil someChild, isTag]
        rfl
      · rw [List.map_reverse, areChildren, ← List.map_reverse, List.reverse_reverse]

theorem body?_results (rest : Text) : body? ("<Results>" ++ rest) = some ("<Results>" ++ rest) :=
  rfl

theorem parse?_of_progress? {text : Text} {root : Element} (isBody : body? text = some text)
    (isRoot : progress? .before text = some (.after root)) : parse? text = some root := by
  obtain ⟨pieces, arePieces, played⟩ := Option.bind_eq_some_iff.mp isRoot
  rw [parse?, isBody]
  dsimp only
  rw [arePieces, Option.bind_some, rootOf?, played]

theorem progress?_of_parse? {text : Text} {root : Element} (parsed : parse? text = some root) :
    ∃ body, body? text = some body ∧ progress? .before body = some (.after root) := by
  unfold parse? at parsed
  split at parsed
  · cases parsed
  rename_i body isBody
  obtain ⟨pieces, arePieces, isRoot⟩ := Option.bind_eq_some_iff.mp parsed
  refine ⟨body, isBody, ?_⟩
  unfold rootOf? at isRoot
  split at isRoot
  · rename_i played
    cases isRoot
    rw [progress?, arePieces]
    exact played
  · cases isRoot

/-- Documents inside one element are its children after the lines are joined. -/
theorem parse?_joined {texts : List Text} {roots : List Element} (nonempty : roots ≠ [])
    (stand : List.Forall₂ Stands texts roots) :
    ∃ children, parse? (Text.joined ("<Results>" ++ texts.flatten ++ "</Results>")) =
        some (.mk ⟨"Results", "Results", []⟩ [] children) ∧
      children.map Element.dense = roots.map Element.dense := by
  have begun : Embeds results .before (.inside results []) := ⟨[], rfl⟩
  obtain ⟨segments, last, next, isText, valid, idle, played, embeds⟩ :=
    begun.documents stand (List.forall_mem_nil _) rfl
  obtain ⟨final, isFinal, embedsFinal⟩ := embeds.idle rfl Progress.isOutside_before idle
  obtain ⟨children, isClosed, same⟩ := Embeds.close nonempty (by simpa [results] using embedsFinal)
  refine ⟨children, ?_, same⟩
  have noMarkup : '<' ∉ last := idle.lacks rfl (by decide)
  have validAll := isValid_enclosed (fun segment member => (valid segment member).1) noMarkup
  have validJoined : ∀ segment ∈ segments.map Segment.joined, segment.IsValid :=
    List.forall_mem_map.mpr fun segment member => (valid segment member).2
  have isRead := progress?_written (isValid_enclosed validJoined (joined_noMarkup noMarkup))
    List.not_mem_nil .before
  rw [foldlM_enclosed, played, Option.bind_some, isFinal, Option.bind_some, isClosed] at isRead
  have isWhole : Text.joined ("<Results>" ++ texts.flatten ++ "</Results>") =
      written (enclosed (segments.map Segment.joined) (Text.joined last)) [] := by
    rw [List.nil_append] at isText
    rw [isText, List.append_assoc, ← written_enclosed, joined_written validAll,
      map_joined_enclosed]
    rfl
  rw [isWhole]
  exact parse?_of_progress? (by rw [written_enclosed, body?_results]) isRead

end ManagementShell.Xml
