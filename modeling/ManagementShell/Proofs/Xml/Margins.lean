import ManagementShell.Proofs.Xml.Embedding

/-
This file shows that character data with other spaces around it is read as the same data with other
blanks around it.
-/

namespace ManagementShell

namespace Text

theorem dense_eq_nil {text : Text} : dense text = [] ↔ text.all isBlank = true := by
  simp [dense, List.filter_eq_nil_iff]

end Text

open Text

namespace Xml

variable {front middle back : Text}

theorem lacks_of_blanks {blanks : Text} (areBlank : blanks.all isBlank = true) {mark : Char}
    (visible : isBlank mark = false) : mark ∉ blanks := fun member =>
  Bool.false_ne_true (visible.symm.trans (List.all_eq_true.mp areBlank mark member))

theorem literalData_append (first second : Text) :
    literalData (first ++ second) = literalData first ++ literalData second := List.map_append

theorem dataFrom_blanks_append (areBlank : front.all isBlank = true) (rest : Text) :
    dataFrom none (front ++ rest) = (dataFrom none rest).map (literalData front ++ ·) := by
  induction front with
  | nil =>
      rw [List.nil_append]
      exact (Option.map_id' (x := dataFrom none rest)).symm
  | cons blank front inductionHypothesis =>
      rw [List.all_cons, Bool.and_eq_true] at areBlank
      have noMark : blank ≠ '&' := by
        rintro rfl
        cases areBlank.1
      rw [List.cons_append, dataFrom_none_cons, if_neg noMark, inductionHypothesis areBlank.2,
        Option.map_map]
      rfl

/-- Blanks do not end a reference. -/
theorem dataFrom_append_blanks (areBlank : back.all isBlank = true) (state : Option Text)
    (text : Text) :
    dataFrom state (text ++ back) = (dataFrom state text).map (· ++ literalData back) := by
  induction text generalizing state with
  | nil =>
      cases state with
      | none => exact data?_of_not_mem (lacks_of_blanks areBlank rfl)
      | some name =>
          cases back with
          | nil => rfl
          | cons blank back =>
              rw [List.all_cons, Bool.and_eq_true] at areBlank
              have noMark : blank ≠ ';' := by
                rintro rfl
                cases areBlank.1
              rw [List.nil_append, dataFrom_some_cons, if_neg noMark,
                dataFrom_blank ⟨blank, by simp, areBlank.1⟩]
              rfl
  | cons character text inductionHypothesis =>
      cases state with
      | none =>
          rw [List.cons_append, dataFrom_none_cons, dataFrom_none_cons]
          split
          · exact inductionHypothesis _
          · rw [inductionHypothesis, Option.map_map, Option.map_map]
            rfl
      | some name =>
          rw [List.cons_append, dataFrom_some_cons, dataFrom_some_cons]
          split
          · cases referenced? name with
            | none => rfl
            | some referenced =>
                rw [Option.bind_some, Option.bind_some, inductionHypothesis, Option.map_map,
                  Option.map_map]
                rfl
          · exact inductionHypothesis _

theorem data?_between (areBlank : front.all isBlank = true) (areBlankToo : back.all isBlank = true)
    (middle : Text) : data? (front ++ (middle ++ back)) =
      (data? middle).map fun data => literalData front ++ (data ++ literalData back) := by
  rw [data?, dataFrom_blanks_append areBlank, dataFrom_append_blanks areBlankToo, Option.map_map]
  rfl

/-- The data begin with a reference or with a character that is not blank. -/
def StartsApart (data : List Datum) : Prop :=
  ∀ datum ∈ data.head?, datum.isReference = true ∨ isBlank datum.character = false

theorem dataFrom_some_head {name text : Text} {data : List Datum}
    (isData : dataFrom (some name) text = some data) :
    ∃ first, data.head? = some first ∧ first.isReference = true := by
  induction text generalizing name with
  | nil => cases isData
  | cons character text inductionHypothesis =>
      rw [dataFrom_some_cons] at isData
      split at isData
      · obtain ⟨referenced, -, isRest⟩ := Option.bind_eq_some_iff.mp isData
        obtain ⟨more, -, rfl⟩ := Option.map_eq_some_iff.mp isRest
        exact ⟨_, rfl, rfl⟩
      · exact inductionHypothesis isData

theorem startsApart_of_starts (starts : StartsVisible middle) {data : List Datum}
    (isData : data? middle = some data) : StartsApart data := by
  cases middle with
  | nil =>
      cases isData
      exact fun datum isHead => nomatch isHead
  | cons first rest =>
      rw [data?, dataFrom_none_cons] at isData
      split at isData
      · obtain ⟨datum, isFirst, isReference⟩ := dataFrom_some_head isData
        intro other isHead
        rw [isFirst] at isHead
        cases isHead
        exact .inl isReference
      · obtain ⟨more, -, rfl⟩ := Option.map_eq_some_iff.mp isData
        intro other isHead
        cases isHead
        exact .inr (starts first rfl)

theorem contentFrom_areBlank {blanks : Text} (areBlank : blanks.all isBlank = true)
    (pending afterReference : Bool) :
    (contentFrom pending afterReference (literalData blanks)).all isBlank = true := by
  have same : (literalData blanks).map Datum.character = blanks := by
    rw [literalData, List.map_map]
    exact List.map_id _
  rw [← dense_eq_nil, dense_contentFrom, same, dense_eq_nil]
  exact areBlank

/-- A carriage return that is pending is read as a line end in front of other data. -/
theorem contentFrom_pending {data : List Datum} (apart : StartsApart data) (pending : Bool) :
    ∃ blanks : Text, blanks.all isBlank = true ∧
      contentFrom pending false data = blanks ++ content data := by
  cases data with
  | nil => cases pending with
    | false => exact ⟨[], rfl, rfl⟩
    | true => exact ⟨['\r'], rfl, rfl⟩
  | cons datum rest =>
      by_cases isReference : datum.isReference = true
      · refine ⟨if pending then ['\r'] else [], by cases pending <;> rfl, ?_⟩
        simp [content, contentFrom, isReference]
      · have visible := (apart datum rfl).resolve_left isReference
        have noReturn : datum.character ≠ '\r' := by
          intro isReturn
          rw [isReturn] at visible
          cases visible
        have noFeed : datum.character ≠ '\n' := by
          intro isFeed
          rw [isFeed] at visible
          cases visible
        refine ⟨if pending then ['\n'] else [], by cases pending <;> rfl, ?_⟩
        simp [content, contentFrom, isReference, noReturn, noFeed]

/-- Blanks in front of data are read as blanks, whatever line ends they are. The induction is on the
blanks; a carriage return that is pending is read as a line feed with the next one of them. -/
theorem contentFrom_blanks_append (areBlank : front.all isBlank = true) {data : List Datum}
    (apart : StartsApart data) (pending : Bool) :
    ∃ blanks : Text, blanks.all isBlank = true ∧
      contentFrom pending false (literalData front ++ data) = blanks ++ content data := by
  induction front generalizing pending with
  | nil => exact contentFrom_pending apart pending
  | cons blank front inductionHypothesis =>
      rw [List.all_cons, Bool.and_eq_true] at areBlank
      have feed : (if pending then ['\n'] else [] : Text).all isBlank = true := by
        cases pending <;> rfl
      have same : literalData (blank :: front) ++ data =
        ⟨blank, false⟩ :: (literalData front ++ data) := rfl
      rw [same, contentFrom]
      dsimp only
      rw [if_neg (by decide)]
      split
      · split
        · -- The carriage return is the last character of all.
          rename_i isLast
          rw [List.isEmpty_iff, literalData, List.append_eq_nil_iff] at isLast
          refine ⟨(if pending then ['\n'] else []) ++ ['\n'], ?_, ?_⟩
          · rw [List.all_append, feed]
            rfl
          · rw [isLast.2]
            exact (List.append_nil _).symm
        · obtain ⟨later, areLater, isLater⟩ := inductionHypothesis areBlank.2 true
          refine ⟨(if pending then ['\n'] else []) ++ later, ?_, ?_⟩
          · rw [List.all_append, feed, areLater]
            rfl
          · rw [isLater, List.append_assoc]
      · obtain ⟨later, areLater, isLater⟩ := inductionHypothesis areBlank.2 false
        split
        · refine ⟨(if pending then ['\n'] else []) ++ later, ?_, ?_⟩
          · rw [List.all_append, feed, areLater]
            rfl
          · rw [isLater, List.append_assoc]
        · refine ⟨(if pending then ['\n'] else []) ++ blank :: later, ?_, ?_⟩
          · rw [List.all_append, feed, List.all_cons, areBlank.1, areLater]
            rfl
          · rw [isLater, List.append_assoc]
            rfl

/-- Blanks behind data change only what blanks the content ends with. -/
theorem contentFrom_append_blanks (areBlank : back.all isBlank = true) (data : List Datum)
    (pending afterReference : Bool) : ∃ core early late : Text, early.all isBlank = true ∧
      late.all isBlank = true ∧
      contentFrom pending afterReference (data ++ literalData back) = core ++ early ∧
      contentFrom pending afterReference data = core ++ late := by
  induction data generalizing pending afterReference with
  | nil =>
      refine ⟨[], _, _, contentFrom_areBlank areBlank pending afterReference, ?_, rfl, rfl⟩
      cases pending <;> rfl
  | cons datum rest inductionHypothesis =>
      have goesOn (before : Text) (waiting afterwards : Bool) : ∃ core early late : Text,
          early.all isBlank = true ∧ late.all isBlank = true ∧
            before ++ contentFrom waiting afterwards (rest ++ literalData back) = core ++ early ∧
            before ++ contentFrom waiting afterwards rest = core ++ late := by
        obtain ⟨core, early, late, areEarly, areLate, isEarly, isLate⟩ :=
          inductionHypothesis waiting afterwards
        exact ⟨before ++ core, early, late, areEarly, areLate, by rw [isEarly, List.append_assoc],
          by rw [isLate, List.append_assoc]⟩
      rw [List.cons_append, contentFrom, contentFrom]
      dsimp only
      split
      · exact goesOn _ _ _
      · split
        · by_cases isLast : rest = []
          · -- The carriage return is the last character in front of the blanks.
            subst isLast
            refine ⟨if pending then ['\n'] else [], ?_⟩
            simp only [List.nil_append, List.isEmpty_nil, if_true]
            split
            · exact ⟨['\n'], ['\n'], rfl, rfl, rfl, rfl⟩
            · exact ⟨_, ['\n'], contentFrom_areBlank areBlank true false, rfl, rfl, rfl⟩
          · have goesOnToo : (rest ++ literalData back).isEmpty = false := by simp [isLast]
            have goes : rest.isEmpty = false := by simp [isLast]
            rw [goesOnToo, goes]
            exact goesOn _ _ _
        · split
          · exact goesOn _ _ _
          · rw [List.append_cons, List.append_cons _ _ (contentFrom false false rest)]
            exact goesOn _ _ _

/-- Blanks around data are blanks around the content. -/
theorem trim_content_between (areBlank : front.all isBlank = true)
    (areBlankToo : back.all isBlank = true) {data : List Datum} (apart : StartsApart data) :
    trim (content (literalData front ++ (data ++ literalData back))) = trim (content data) := by
  by_cases empty : data = []
  · have areBlanks : (front ++ back).all isBlank = true := by
      rw [List.all_append, areBlank, areBlankToo]
      rfl
    rw [empty, List.nil_append, ← literalData_append]
    exact trim_eq_nil.mpr (contentFrom_areBlank areBlanks false false)
  · have apartThere : StartsApart (data ++ literalData back) := by
      intro datum isHead
      rw [List.head?_append_of_ne_nil _ empty] at isHead
      exact apart datum isHead
    obtain ⟨blanks, areBlanks, isFront⟩ := contentFrom_blanks_append areBlank apartThere false
    obtain ⟨core, early, late, areEarly, areLate, isEarly, isLate⟩ :=
      contentFrom_append_blanks areBlankToo data false false
    rw [content, isFront, trim_blanks_append areBlanks, content, content, isEarly, isLate,
      trim_append_blanks core areEarly, trim_append_blanks core areLate]

end Xml

end ManagementShell
