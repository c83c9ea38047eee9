import ManagementShell.Proofs.Text.Joining
import ManagementShell.Xml.Reference

/-
This file shows that character data says the same, blanks apart, when blanks are taken out of it.
-/

namespace ManagementShell.Xml
open Text

theorem isSome_of_mapM {α β : Type} {convert : α → Option β} {values : List α} {results : List β}
    (converted : values.mapM convert = some results) :
    ∀ value ∈ values, (convert value).isSome = true := by
  induction values generalizing results with
  | nil => exact List.forall_mem_nil _
  | cons value rest inductionHypothesis =>
      rw [List.mapM_cons] at converted
      obtain ⟨first, isFirst, more⟩ := Option.bind_eq_some_iff.mp converted
      obtain ⟨others, areOthers, -⟩ := Option.bind_eq_some_iff.mp more
      exact List.forall_mem_cons.mpr ⟨by rw [isFirst]; rfl, inductionHypothesis areOthers⟩

theorem hexadecimalDigit?_visible {digit : Char} (isDigit : (hexadecimalDigit? digit).isSome = true) :
    isBlank digit = false := by
  unfold hexadecimalDigit? at isDigit
  dsimp only at isDigit
  split at isDigit
  · exact isBlank_of_isDigit ‹_›
  · have letter : 65 ≤ digit.toNat ∧ digit.toNat ≤ 102 := by
      split at isDigit
      · omega
      · split at isDigit
        · omega
        · cases isDigit
    rw [Bool.eq_false_iff]
    simp only [isBlank, ne_eq, Bool.or_eq_true, Bool.and_eq_true, decide_eq_true_eq, beq_iff_eq]
    omega

theorem decimalDigit?_visible {digit : Char} (isDigit : (decimalDigit? digit).isSome = true) :
    isBlank digit = false := by
  unfold decimalDigit? at isDigit
  split at isDigit
  · exact isBlank_of_isDigit ‹_›
  · cases isDigit

theorem number?_visible {base : Nat} {digit? : Char → Option Nat} {digits : Text} {number : Nat}
    (visible : ∀ digit, (digit? digit).isSome = true → isBlank digit = false)
    (isNumber : number? base digit? digits = some number) :
    ∀ digit ∈ digits, isBlank digit = false := by
  unfold number? at isNumber
  split at isNumber
  · cases isNumber
  · cases isNumber
  · rename_i values areValues
    exact fun digit member => visible digit (isSome_of_mapM areValues digit member)

/-- Nothing blank is in a reference. -/
theorem referenced?_visible {name : Text} {character : Char}
    (isReference : referenced? name = some character) :
    ∀ other ∈ name, isBlank other = false := by
  unfold referenced? at isReference
  split at isReference
  · obtain ⟨number, isNumber, -⟩ := Option.bind_eq_some_iff.mp isReference
    simpa using ⟨by decide, by decide, number?_visible (fun _ => hexadecimalDigit?_visible) isNumber⟩
  · obtain ⟨number, isNumber, -⟩ := Option.bind_eq_some_iff.mp isReference
    simpa using ⟨by decide, number?_visible (fun _ => decimalDigit?_visible) isNumber⟩
  · suffices visible : name.all (!isBlank ·) = true by simpa using visible
    repeat' split at isReference
    all_goals first | (subst name; rfl) | cases isReference

theorem dataFrom_none_cons (character : Char) (rest : Text) : dataFrom none (character :: rest) =
    if character = '&' then dataFrom (some []) rest
    else (dataFrom none rest).map (⟨character, false⟩ :: ·) := by
  by_cases isMark : character = '&'
  · rw [isMark, if_pos rfl, dataFrom]
  · rw [if_neg isMark, dataFrom]
    exact isMark

theorem dataFrom_some_cons (name : Text) (character : Char) (rest : Text) :
    dataFrom (some name) (character :: rest) =
      if character = ';' then (referenced? name).bind fun referenced =>
        (dataFrom none rest).map (⟨referenced, true⟩ :: ·)
      else dataFrom (some (name ++ [character])) rest := by
  by_cases isMark : character = ';'
  · rw [isMark, if_pos rfl, dataFrom]
    cases referenced? name <;> rfl
  · rw [if_neg isMark, dataFrom]
    exact isMark

theorem dataFrom_blank {name : Text} (blank : ∃ other ∈ name, isBlank other = true) (text : Text) :
    dataFrom (some name) text = none := by
  induction text generalizing name with
  | nil => rfl
  | cons character rest inductionHypothesis =>
      rw [dataFrom_some_cons]
      split
      · cases isReference : referenced? name with
        | none => rfl
        | some referenced =>
            obtain ⟨other, member, isBlank⟩ := blank
            rw [referenced?_visible isReference other member] at isBlank
            cases isBlank
      · obtain ⟨other, member, isBlank⟩ := blank
        exact inductionHypothesis ⟨other, List.mem_append_left _ member, isBlank⟩

/-- The data say the same, blanks apart. -/
def SameData (first second : List Datum) : Prop :=
  dense (first.map Datum.character) = dense (second.map Datum.character)

theorem SameData.cons {first second : List Datum} (same : SameData first second) (datum : Datum) :
    SameData (datum :: first) (datum :: second) := by
  unfold SameData dense at same ⊢
  rw [List.map_cons, List.map_cons, List.filter_cons, List.filter_cons, same]

theorem SameData.cons_blank {first second : List Datum} (same : SameData first second)
    {character : Char} (blank : isBlank character = true) :
    SameData first (⟨character, false⟩ :: second) := by
  unfold SameData dense at same ⊢
  rw [same]
  simp [blank]

/-- The induction is on what is taken out; inside a reference nothing can be. -/
theorem dataFrom_thinned {text less : Text} (thinned : Thinned text less) {state : Option Text}
    {data : List Datum} (isData : dataFrom state text = some data) :
    ∃ other, dataFrom state less = some other ∧ SameData other data := by
  induction thinned generalizing state data with
  | nil => exact ⟨data, isData, rfl⟩
  | keep character rest inductionHypothesis =>
      cases state with
      | none =>
          rw [dataFrom_none_cons] at isData ⊢
          split at isData
          · rename_i isMark
            rw [if_pos isMark]
            exact inductionHypothesis isData
          · rename_i noMark
            obtain ⟨more, isMore, rfl⟩ := Option.map_eq_some_iff.mp isData
            obtain ⟨other, isOther, same⟩ := inductionHypothesis isMore
            exact ⟨⟨character, false⟩ :: other, by rw [if_neg noMark, isOther]; rfl, same.cons _⟩
      | some name =>
          rw [dataFrom_some_cons] at isData ⊢
          split at isData
          · rename_i isMark
            obtain ⟨referenced, isReference, isRest⟩ := Option.bind_eq_some_iff.mp isData
            obtain ⟨more, isMore, rfl⟩ := Option.map_eq_some_iff.mp isRest
            obtain ⟨other, isOther, same⟩ := inductionHypothesis isMore
            refine ⟨⟨referenced, true⟩ :: other, ?_, same.cons _⟩
            rw [if_pos isMark, isReference, isOther]
            rfl
          · rename_i noMark
            rw [if_neg noMark]
            exact inductionHypothesis isData
  | @drop text less character blank rest inductionHypothesis =>
      cases state with
      | none =>
          have noMark : character ≠ '&' := by
            rintro rfl
            cases blank
          rw [dataFrom_none_cons, if_neg noMark] at isData
          obtain ⟨more, isMore, rfl⟩ := Option.map_eq_some_iff.mp isData
          obtain ⟨other, isOther, same⟩ := inductionHypothesis isMore
          exact ⟨other, isOther, same.cons_blank blank⟩
      | some name =>
          have noMark : character ≠ ';' := by
            rintro rfl
            cases blank
          rw [dataFrom_some_cons, if_neg noMark, dataFrom_blank ⟨character, by simp, blank⟩] at isData
          cases isData

/-- Line ends are blanks, so that their normalisation does not matter. -/
theorem dense_contentFrom (pending afterReference : Bool) (data : List Datum) :
    dense (contentFrom pending afterReference data) = dense (data.map Datum.character) := by
  have feed : dense ['\n'] = [] := by decide
  have carriage : dense ['\r'] = [] := by decide
  induction data generalizing pending afterReference with
  | nil => cases pending <;> rfl
  | cons datum rest inductionHypothesis =>
      have waiting (text : Text) (isLine : dense text = []) :
          dense (if pending then text else []) = [] := by
        split
        · exact isLine
        · rfl
      have same (isLine : datum.character = '\r') : dense [datum.character] = [] := by
        rw [isLine]
        exact carriage
      rw [contentFrom, List.map_cons, dense_cons]
      dsimp only
      split
      · rw [dense_append, dense_append, waiting _ carriage, inductionHypothesis]
        split
        · rename_i isReturn
          rw [same (by simpa using isReturn)]
          rfl
        · rfl
      · split
        · rename_i isReturn
          rw [same (by simpa using isReturn)]
          split
          · rename_i isLast
            rw [dense_append, waiting _ feed, List.isEmpty_iff.mp isLast, feed]
            rfl
          · rw [dense_append, waiting _ feed, inductionHypothesis]
        · split
          · rename_i isFeed
            have isLine : datum.character = '\n' := by simp_all
            rw [dense_append, waiting _ feed, inductionHypothesis, isLine, feed]
          · rw [dense_append, waiting _ feed, dense_cons, inductionHypothesis]
            rfl

theorem dense_content (data : List Datum) :
    dense (content data) = dense (data.map Datum.character) := dense_contentFrom _ _ data

theorem content_thinned {text less : Text} (thinned : Thinned text less) {data : List Datum}
    (isData : data? text = some data) :
    ∃ other, data? less = some other ∧ dense (content other) = dense (content data) := by
  obtain ⟨other, isOther, same⟩ := dataFrom_thinned thinned isData
  exact ⟨other, isOther, by rw [dense_content, dense_content, same]⟩

end ManagementShell.Xml
