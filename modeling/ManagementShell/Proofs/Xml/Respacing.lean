import ManagementShell.Proofs.Xml.Embedding

/-
This file shows which elements stay the same when blanks around character data are added and taken
away.
-/

namespace ManagementShell

open Text

namespace Xml

/-- The text that a piece adds to the element that it stands in. -/
def Piece.content? : Piece → Option Text
  | .text content | .blank content => some content
  | _ => none

/-- Character data may have other blanks around it; blank data may come and go. -/
inductive Respaced : List Piece → List Piece → Prop
  | nil : Respaced [] []
  | same (piece : Piece) {pieces others : List Piece} (rest : Respaced pieces others) :
      Respaced (piece :: pieces) (piece :: others)
  | trimmed {content other : Text} (same : trim other = trim content) {pieces others : List Piece}
      (rest : Respaced pieces others) : Respaced (.text content :: pieces) (.text other :: others)
  | dropped {piece : Piece} {content : Text} (isContent : piece.content? = some content)
      (blank : trim content = []) {pieces others : List Piece} (rest : Respaced pieces others) :
      Respaced (piece :: pieces) others
  | added {content : Text} (blank : trim content = []) {pieces others : List Piece}
      (rest : Respaced pieces others) : Respaced pieces (.blank content :: others)

/-- How many parts of the text of an element have been read that are not blank, as long as nothing but
its text has been read of it. -/
def counted (count : Option Nat) : Piece → Option Nat
  | .opening _ _ isEmpty => if isEmpty then none else some 0
  | .closing _ => none
  | .text content | .blank content => if trim content = [] then count else count.map (· + 1)
  | .silent => count

/-- An element without elements inside has at most one part of text that is not blank; comments,
sections and instructions divide its text. -/
def unbrokenFrom (count : Option Nat) : List Piece → Bool
  | [] => true
  | piece :: rest =>
      (match piece with
        | .closing _ => count.all (· ≤ 1)
        | _ => true) && unbrokenFrom (counted count piece) rest

/-- The text is made of these words, with blanks around each of them. -/
inductive Gathers : List Text → Text → Prop
  | nil : Gathers [] []
  | blank {words : List Text} {text content : Text} (before : Gathers words text)
      (isBlank : trim content = []) : Gathers words (text ++ content)
  | word {words : List Text} {text content : Text} (before : Gathers words text)
      (isVisible : trim content ≠ []) : Gathers (words ++ [trim content]) (text ++ content)

theorem Gathers.dense {words : List Text} {text : Text} (gathers : Gathers words text) :
    Text.dense text = words.flatMap Text.dense := by
  induction gathers with
  | nil => rfl
  | blank before isBlank inductionHypothesis =>
      rw [dense_append, inductionHypothesis, ← dense_trim, isBlank]
      exact List.append_nil _
  | @word words text content before isVisible inductionHypothesis =>
      rw [dense_append, inductionHypothesis, List.flatMap_append, List.flatMap_singleton, dense_trim]

theorem Gathers.blanks {words : List Text} {text : Text} (gathers : Gathers words text)
    (noWord : words = []) : text.all isBlank = true := by
  induction gathers with
  | nil => rfl
  | blank before isBlank inductionHypothesis =>
      rw [List.all_append, inductionHypothesis noWord, trim_eq_nil.mp isBlank]
      rfl
  | word before isVisible => simp at noWord

/-- A text with at most one word is trimmed to this word. -/
theorem Gathers.trim_eq {words : List Text} {text : Text} (gathers : Gathers words text)
    (few : words.length ≤ 1) : trim text = words.flatten := by
  induction gathers with
  | nil => rfl
  | blank before isBlank inductionHypothesis =>
      rw [trim_append_blanks _ (trim_eq_nil.mp isBlank), inductionHypothesis few]
  | @word words text content before isVisible inductionHypothesis =>
      have noWord : words = [] := by
        rw [List.length_append, List.length_singleton] at few
        exact List.length_eq_zero_iff.mp (by omega)
      rw [trim_blanks_append (before.blanks noWord), noWord]
      simp

/-- What is gathered goes on with the same word, or with blanks. -/
theorem Gathers.append {words : List Text} {text other : Text} (gathers : Gathers words text)
    (gathersToo : Gathers words other) {content added : Text} (same : trim added = trim content) :
    ∃ more : List Text, more.length = (if trim content = [] then words.length else words.length + 1) ∧
      Gathers more (text ++ content) ∧ Gathers more (other ++ added) := by
  split
  · rename_i isBlank
    exact ⟨words, rfl, gathers.blank isBlank, gathersToo.blank (same.trans isBlank)⟩
  · rename_i isVisible
    refine ⟨words ++ [trim content], by simp, gathers.word isVisible, ?_⟩
    rw [← same]
    exact gathersToo.word (same ▸ isVisible)

section

variable (together : Prop)

/-- Blanks in texts apart, the elements are the same; they are the same without exception if what is
to stay together does. -/
def Alike (element other : Element) : Prop :=
  other.dense = element.dense ∧ (together → other = element)

/-- The elements have been opened alike, and what they hold is alike. -/
structure Unclosed.Alike (unclosed other : Unclosed) : Prop where
  name : other.name = unclosed.name
  scope : other.scope = unclosed.scope
  tag : other.tag = unclosed.tag
  children : List.Forall₂ (Xml.Alike together) unclosed.children other.children

/-- As long as they hold no element, their texts are made of the same words. -/
def Unclosed.Shares (count : Option Nat) (unclosed other : Unclosed) : Prop :=
  unclosed.children = [] → ∃ words : List Text, count = some words.length ∧
    Gathers words unclosed.text ∧ Gathers words other.text

inductive Progress.Alike (count : Option Nat) : Progress → Progress → Prop
  | before : Alike count .before .before
  | inside {inner innerToo : Unclosed} {outer outerToo : List Unclosed}
      (alike : inner.Alike together innerToo) (shares : inner.Shares count innerToo)
      (around : List.Forall₂ (Unclosed.Alike together) outer outerToo) :
      Alike count (.inside inner outer) (.inside innerToo outerToo)
  | after {root other : Element} (alike : Xml.Alike together root other) :
      Alike count (.after root) (.after other)

end

variable {together : Prop} {count : Option Nat} {progress progressToo after : Progress}

theorem map_dense_of_alike {elements others : List Element}
    (alike : List.Forall₂ (Alike together) elements others) :
    others.map Element.dense = elements.map Element.dense := by
  induction alike with
  | nil => rfl
  | cons first rest inductionHypothesis => rw [List.map_cons, List.map_cons, first.1, inductionHypothesis]

theorem eq_of_alike {elements others : List Element}
    (alike : List.Forall₂ (Alike together) elements others) (holds : together) : others = elements := by
  induction alike with
  | nil => rfl
  | cons first rest inductionHypothesis => rw [first.2 holds, inductionHypothesis]

/-- Elements are closed alike if their texts have stayed in one part. -/
theorem Unclosed.Alike.close {unclosed other : Unclosed} (alike : unclosed.Alike together other)
    (shares : unclosed.Shares count other) (few : together → count.all (· ≤ 1) = true) :
    Xml.Alike together unclosed.close other.close := by
  obtain ⟨name, scope, tag, text, children⟩ := unclosed
  obtain ⟨nameToo, scopeToo, tagToo, textToo, childrenToo⟩ := other
  obtain ⟨rfl, rfl, rfl, areAlike⟩ := alike
  dsimp only at areAlike
  cases areAlike with
  | nil =>
      obtain ⟨words, rfl, gathers, gathersToo⟩ := shares rfl
      dsimp only at gathers gathersToo
      constructor
      · simp only [Unclosed.close, Element.dense, dense_trim, gathers.dense, gathersToo.dense]
      · intro holds
        have atMost : words.length ≤ 1 := by simpa using few holds
        simp only [Unclosed.close, gathers.trim_eq atMost, gathersToo.trim_eq atMost]
  | @cons child childToo others othersToo first rest =>
      have areAlike : List.Forall₂ (Xml.Alike together) (child :: others) (childToo :: othersToo) :=
        .cons first rest
      constructor
      · have same := map_dense_of_alike areAlike
        simp only [Unclosed.close, Element.dense, Element.denseAll_eq, List.map_reverse, same]
      · intro holds
        simp only [Unclosed.close, eq_of_alike areAlike holds]

theorem attach_alike {element other : Element} (alike : Alike together element other)
    {stack stackToo : List Unclosed} (around : List.Forall₂ (Unclosed.Alike together) stack stackToo)
    (count : Option Nat) :
    Progress.Alike together count (attach element stack) (attach other stackToo) := by
  cases around with
  | nil => exact .after alike
  | cons first rest =>
      exact .inside ⟨first.name, first.scope, first.tag, .cons alike first.children⟩
        (fun empty => nomatch empty) rest

theorem enter?_alike {stack stackToo : List Unclosed}
    (around : List.Forall₂ (Unclosed.Alike together) stack stackToo) {name : Name}
    {attributes : List (Name × Text)} {isEmpty : Bool}
    (entered : enter? stack name attributes isEmpty = some after) :
    ∃ next, enter? stackToo name attributes isEmpty = some next ∧
      Progress.Alike together (if isEmpty then none else some 0) after next := by
  have sameScope : scopeOf stackToo = scopeOf stack := by
    cases around with
    | nil => rfl
    | cons first rest => exact first.scope
  rw [enter?_eq] at entered ⊢
  obtain ⟨⟨scope, tag⟩, isTag, rfl⟩ := Option.map_eq_some_iff.mp entered
  rw [sameScope, isTag]
  refine ⟨_, rfl, ?_⟩
  have alike : Unclosed.Alike together ⟨name, scope, tag, [], []⟩ ⟨name, scope, tag, [], []⟩ :=
    ⟨rfl, rfl, rfl, .nil⟩
  have shares : Unclosed.Shares (some 0) ⟨name, scope, tag, [], []⟩ ⟨name, scope, tag, [], []⟩ :=
    fun _ => ⟨[], rfl, .nil, .nil⟩
  cases isEmpty with
  | true => exact attach_alike (alike.close shares fun _ => rfl) around none
  | false => exact .inside alike shares around

/-- Text is added to elements that are alike. -/
theorem Unclosed.Alike.gets {inner innerToo : Unclosed} {outer outerToo : List Unclosed}
    (alike : inner.Alike together innerToo) (shares : inner.Shares count innerToo)
    (around : List.Forall₂ (Unclosed.Alike together) outer outerToo) {content other : Text}
    (same : trim other = trim content) :
    Progress.Alike together (if trim content = [] then count else count.map (· + 1))
      (.inside { inner with text := inner.text ++ content } outer)
      (.inside { innerToo with text := innerToo.text ++ other } outerToo) := by
  refine .inside ⟨alike.name, alike.scope, alike.tag, alike.children⟩ (fun empty => ?_) around
  obtain ⟨words, rfl, gathers, gathersToo⟩ := shares empty
  obtain ⟨more, isLength, gathersMore, gathersMoreToo⟩ := gathers.append gathersToo same
  refine ⟨more, ?_, gathersMore, gathersMoreToo⟩
  rw [isLength]
  split <;> rfl

/-- The same piece leads to what is alike. -/
theorem Progress.Alike.advance (alike : progress.Alike together count progressToo) {piece : Piece}
    (few : together → ∀ name, piece = .closing name → count.all (· ≤ 1) = true)
    (advanced : advance? progress piece = some after) :
    ∃ next, advance? progressToo piece = some next ∧
      after.Alike together (counted count piece) next := by
  cases piece with
  | silent =>
      rw [advance?] at advanced
      cases advanced
      exact ⟨progressToo, by rw [advance?], alike⟩
  | opening name attributes isEmpty =>
      cases alike with
      | before => exact enter?_alike .nil advanced
      | inside alike shares around => exact enter?_alike (.cons alike around) advanced
      | after => cases advanced
  | closing name =>
      cases alike with
      | before => cases advanced
      | @inside inner innerToo outer outerToo alike shares around =>
          rw [advance?] at advanced ⊢
          split at advanced
          · rename_i isName
            cases advanced
            rw [if_pos (isName.trans alike.name.symm)]
            exact ⟨_, rfl, attach_alike (alike.close shares fun holds => few holds name rfl) around none⟩
          · cases advanced
      | after => cases advanced
  | text content =>
      cases alike with
      | before => cases advanced
      | inside alike shares around =>
          cases advanced
          exact ⟨_, rfl, alike.gets shares around rfl⟩
      | after => cases advanced
  | blank content =>
      cases alike with
      | before =>
          cases advanced
          exact ⟨.before, rfl, .before⟩
      | inside alike shares around =>
          cases advanced
          exact ⟨_, rfl, alike.gets shares around rfl⟩
      | after alike =>
          cases advanced
          exact ⟨_, rfl, .after alike⟩

/-- Blanks that are added lead to what is alike. -/
theorem Progress.Alike.adds (alike : progress.Alike together count progressToo) {content : Text}
    (blank : trim content = []) :
    ∃ next, advance? progressToo (.blank content) = some next ∧
      progress.Alike together count next := by
  cases alike with
  | before => exact ⟨.before, rfl, .before⟩
  | @inside inner innerToo outer outerToo alike shares around =>
      refine ⟨_, rfl, .inside ⟨alike.name, alike.scope, alike.tag, alike.children⟩ (fun empty => ?_)
        around⟩
      obtain ⟨words, isCount, gathers, gathersToo⟩ := shares empty
      exact ⟨words, isCount, gathers, gathersToo.blank blank⟩
  | after alike => exact ⟨_, rfl, .after alike⟩

/-- Blanks that are left out lead to what is alike. -/
theorem Progress.Alike.drops (alike : progress.Alike together count progressToo) {piece : Piece}
    {content : Text} (isContent : piece.content? = some content) (blank : trim content = [])
    (advanced : advance? progress piece = some after) :
    after.Alike together (counted count piece) progressToo := by
  have gets {inner innerToo : Unclosed} {outer outerToo : List Unclosed}
      (alike : inner.Alike together innerToo) (shares : inner.Shares count innerToo)
      (around : List.Forall₂ (Unclosed.Alike together) outer outerToo) :
      Progress.Alike together count (.inside { inner with text := inner.text ++ content } outer)
        (.inside innerToo outerToo) := by
    refine .inside ⟨alike.name, alike.scope, alike.tag, alike.children⟩ (fun empty => ?_) around
    obtain ⟨words, isCount, gathers, gathersToo⟩ := shares empty
    exact ⟨words, isCount, gathers.blank blank, gathersToo⟩
  cases piece with
  | opening => cases isContent
  | closing => cases isContent
  | silent => cases isContent
  | text content =>
      cases isContent
      rw [counted, if_pos blank]
      cases alike with
      | before => cases advanced
      | inside alike shares around =>
          cases advanced
          exact gets alike shares around
      | after => cases advanced
  | blank content =>
      cases isContent
      rw [counted, if_pos blank]
      cases alike with
      | before =>
          cases advanced
          exact .before
      | inside alike shares around =>
          cases advanced
          exact gets alike shares around
      | after alike =>
          cases advanced
          exact .after alike

/-- The induction is on how the pieces differ; the count goes along with the pieces before. -/
theorem Progress.Alike.respaced {pieces others : List Piece}
    (alike : progress.Alike together count progressToo) (respaced : Respaced pieces others)
    (unbroken : together → unbrokenFrom count pieces = true)
    (played : pieces.foldlM advance? progress = some after) :
    ∃ next last, others.foldlM advance? progressToo = some next ∧ after.Alike together last next := by
  induction respaced generalizing progress progressToo count with
  | nil =>
      cases played
      exact ⟨progressToo, count, rfl, alike⟩
  | @same piece pieces others rest inductionHypothesis =>
      rw [List.foldlM_cons] at played ⊢
      obtain ⟨middle, isMiddle, later⟩ := Option.bind_eq_some_iff.mp played
      have both (holds : together) := Bool.and_eq_true_iff.mp (unbroken holds)
      have few (holds : together) (name : Name) (isClosing : piece = .closing name) :
          count.all (· ≤ 1) = true := by
        have fits := (both holds).1
        rwa [isClosing] at fits
      obtain ⟨next, isNext, alikeNext⟩ := alike.advance few isMiddle
      rw [isNext]
      exact inductionHypothesis alikeNext (fun holds => (both holds).2) later
  | @trimmed content other same pieces others rest inductionHypothesis =>
      rw [List.foldlM_cons] at played ⊢
      obtain ⟨middle, isMiddle, later⟩ := Option.bind_eq_some_iff.mp played
      cases alike with
      | before => cases isMiddle
      | inside alike shares around =>
          cases isMiddle
          exact inductionHypothesis (alike.gets shares around same)
            (fun holds => (Bool.and_eq_true_iff.mp (unbroken holds)).2) later
      | after => cases isMiddle
  | @dropped piece content isContent blank pieces others rest inductionHypothesis =>
      rw [List.foldlM_cons] at played
      obtain ⟨middle, isMiddle, later⟩ := Option.bind_eq_some_iff.mp played
      exact inductionHypothesis (alike.drops isContent blank isMiddle)
        (fun holds => (Bool.and_eq_true_iff.mp (unbroken holds)).2) later
  | @added content blank pieces others rest inductionHypothesis =>
      obtain ⟨next, isNext, alikeNext⟩ := alike.adds blank
      rw [List.foldlM_cons, isNext]
      exact inductionHypothesis alikeNext unbroken played

/-- With other blanks around its character data, a document has the same elements, blanks in their
texts apart; and without exception the same ones if no text was divided. -/
theorem rootOf?_respaced {pieces others : List Piece} {root : Element}
    (respaced : Respaced pieces others) (isRoot : rootOf? pieces = some root) :
    ∃ other, rootOf? others = some other ∧ other.dense = root.dense ∧
      (unbrokenFrom none pieces = true → other = root) := by
  unfold rootOf? at isRoot
  split at isRoot
  · rename_i found played
    cases isRoot
    have begun : Progress.Alike (unbrokenFrom none pieces = true) none .before .before := .before
    obtain ⟨next, last, isNext, alike⟩ := begun.respaced respaced id played
    cases alike with
    | @after _ other alike => exact ⟨other, by rw [rootOf?, isNext], alike.1, alike.2⟩
  · cases isRoot

end Xml

end ManagementShell
