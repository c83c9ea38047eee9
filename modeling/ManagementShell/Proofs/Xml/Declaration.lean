import ManagementShell.Proofs.Xml.Locality

/-
This file shows that a byte order mark and a declaration in front of a document are read the same
whatever the document is.
-/

namespace ManagementShell.Xml
open Text

/-- What is read does not depend on what stands behind the end of a tag that is still to come. -/
def IsLocal (read? : Text → Option Text) : Prop :=
  ∀ text rest, read? text = some rest → ∃ used, text = used ++ rest ∧
    ∀ inner back, rest = inner ++ back → inner.getLast? = some '>' →
      ∀ other, read? (used ++ (inner ++ other)) = some (inner ++ other)

section

variable {read? : Text → Option Text}

theorem IsLocal.bind {readMore? : Text → Option Text} (first : IsLocal read?)
    (second : IsLocal readMore?) : IsLocal fun text => (read? text).bind readMore? := by
  intro text rest isRest
  obtain ⟨middle, isMiddle, isLast⟩ := Option.bind_eq_some_iff.mp isRest
  obtain ⟨used, rfl, reads⟩ := first text middle isMiddle
  obtain ⟨more, rfl, readsMore⟩ := second middle rest isLast
  refine ⟨used ++ more, (List.append_assoc _ _ _).symm, fun inner back isInner ends other => ?_⟩
  have there := reads (more ++ inner) back (by rw [isInner, List.append_assoc])
    (ends_append ends more) other
  rw [List.append_assoc] at there
  dsimp only
  rw [List.append_assoc, there, Option.bind_some]
  exact readsMore inner back isInner ends other

/-- Which reader goes on is said by a word without the end of a tag. -/
theorem IsLocal.choice {readElse? : Text → Option Text} (isLocal : IsLocal read?)
    (isLocalElse : IsLocal readElse?) {word : Text} (absent : '>' ∉ word) :
    IsLocal fun text => if word.isPrefixOf text then read? text else readElse? text := by
  intro text rest isRest
  have swap {used inner back : Text} (ends : inner.getLast? = some '>') (other : Text) :
      word.isPrefixOf (used ++ (inner ++ back)) = word.isPrefixOf (used ++ (inner ++ other)) := by
    rw [← List.append_assoc, ← List.append_assoc]
    exact isPrefixOf_swap (ends_append ends used) absent back other
  dsimp only at isRest
  split at isRest
  · rename_i starts
    obtain ⟨used, rfl, reads⟩ := isLocal text rest isRest
    refine ⟨used, rfl, fun inner back isInner ends other => ?_⟩
    rw [isInner, swap ends other] at starts
    exact (if_pos starts).trans (reads inner back isInner ends other)
  · rename_i startsElse
    obtain ⟨used, rfl, reads⟩ := isLocalElse text rest isRest
    refine ⟨used, rfl, fun inner back isInner ends other => ?_⟩
    rw [isInner, swap ends other] at startsElse
    exact (if_neg startsElse).trans (reads inner back isInner ends other)

end

theorem isLocal_none : IsLocal fun _ => none := fun _ _ isRest => nomatch isRest

theorem isLocal_some : IsLocal some := by
  intro text rest isRest
  cases isRest
  exact ⟨[], rfl, fun _ _ _ _ _ => rfl⟩

theorem isLocal_skipSpaces : IsLocal fun text => some (skipSpaces text) := by
  intro text rest isRest
  cases isRest
  obtain ⟨spaces, isText, areSpaces, lacking⟩ := exists_spaces text
  refine ⟨spaces, isText, fun inner back isInner ends other => ?_⟩
  rw [isInner] at lacking
  exact congrArg some (skipSpaces_append areSpaces (lacking.swap ends))

theorem isLocal_attribute? : IsLocal fun text => (attribute? text).map fun part => part.2.2 := by
  intro text rest isRest
  obtain ⟨⟨name, value, after⟩, isAttribute, rfl⟩ := Option.map_eq_some_iff.mp isRest
  obtain ⟨first, written, rfl, -, reads⟩ := attribute?_local isAttribute
  refine ⟨first :: written, rfl, fun inner back isInner ends other => ?_⟩
  dsimp only
  rw [reads]
  rfl

/-- The end of the declaration is all there if the end of a tag is. -/
theorem ending_swap {inner back : Text} (ends : inner.getLast? = some '>')
    (starts : ("?>" : Text).isPrefixOf (inner ++ back) = true) (other : Text) :
    ("?>" : Text).isPrefixOf (inner ++ other) = true := by
  rw [List.isPrefixOf_iff_prefix] at starts ⊢
  cases inner with
  | nil => cases ends
  | cons first more =>
      cases more with
      | nil =>
          cases ends
          obtain ⟨rest, same⟩ := starts
          cases same
      | cons second more =>
          obtain ⟨rest, same⟩ := starts
          cases same
          exact ⟨more ++ other, rfl⟩

theorem declared?_eq (text : Text) : declared? text =
    ((attribute? text).map fun part => part.2.2).bind fun rest =>
      if rest.head?.any isSpace then some (skipSpaces rest)
      else if ("?>" : Text).isPrefixOf rest then some rest
      else none := by
  unfold declared?
  cases attribute? text <;> rfl

theorem isLocal_declared? : IsLocal declared? := by
  have ending : IsLocal fun rest => if rest.head?.any isSpace then some (skipSpaces rest)
      else if ("?>" : Text).isPrefixOf rest then some rest else none := by
    intro text rest isRest
    have sameHead {used inner back : Text} (ends : inner.getLast? = some '>') (other : Text) :
        (used ++ (inner ++ back)).head? = (used ++ (inner ++ other)).head? := by
      rw [← List.append_assoc, ← List.append_assoc, head?_append_of_ends (ends_append ends used),
        head?_append_of_ends (ends_append ends used)]
    dsimp only at isRest
    split at isRest
    · rename_i spaced
      obtain ⟨used, rfl, reads⟩ := isLocal_skipSpaces text rest isRest
      refine ⟨used, rfl, fun inner back isInner ends other => ?_⟩
      rw [isInner, sameHead ends other] at spaced
      exact (if_pos spaced).trans (reads inner back isInner ends other)
    · rename_i unspaced
      split at isRest
      · rename_i starts
        cases isRest
        refine ⟨[], rfl, fun inner back isInner ends other => ?_⟩
        rw [isInner] at unspaced starts
        rw [← List.nil_append (inner ++ back), sameHead ends other] at unspaced
        exact (if_neg unspaced).trans (if_pos (ending_swap ends starts other))
      · cases isRest
  rw [funext declared?_eq]
  exact isLocal_attribute?.bind ending

/-- The text after what a declaration says, which is to be the end of the declaration. -/
def beforeEnding? (text : Text) : Option Text :=
  ((((some (skipSpaces text)).bind fun start =>
      if ("version" : Text).isPrefixOf start then declared? start else none).bind fun start =>
      if ("encoding" : Text).isPrefixOf start then declared? start else some start).bind fun start =>
      if ("standalone" : Text).isPrefixOf start then (attribute? start).map fun part => part.2.2
      else some start).bind fun start => some (skipSpaces start)

theorem afterDeclaration?_eq (text : Text) :
    afterDeclaration? text = (beforeEnding? text).bind (after? · "?>") := by
  unfold afterDeclaration? beforeEnding?
  dsimp only [Option.bind_some]
  split
  · cases declared? (skipSpaces text) with
    | none => rfl
    | some afterVersion =>
        dsimp only [Option.bind_some]
        split <;> rename_i isEncoding
        · rw [isEncoding]
          rfl
        · rw [isEncoding, Option.map_eq_bind]
          rfl
  · rfl

/-- A declaration is read the same whatever follows it. -/
theorem afterDeclaration?_local {text rest : Text} (isRest : afterDeclaration? text = some rest) :
    ∃ used, text = used ++ rest ∧ used.getLast? = some '>' ∧
      ∀ other, afterDeclaration? (used ++ other) = some other := by
  have isLocal : IsLocal beforeEnding? :=
    (((isLocal_skipSpaces.bind (isLocal_declared?.choice isLocal_none (by decide))).bind
      (isLocal_declared?.choice isLocal_some (by decide))).bind
      (isLocal_attribute?.choice isLocal_some (by decide))).bind isLocal_skipSpaces
  rw [afterDeclaration?_eq] at isRest
  obtain ⟨ending, isEnding, isEnd⟩ := Option.bind_eq_some_iff.mp isRest
  obtain ⟨used, rfl, reads⟩ := isLocal text ending isEnding
  refine ⟨used ++ "?>", ?_, ends_append rfl _, fun other => ?_⟩
  · rw [List.append_assoc, after?_eq_some.mp isEnd]
  · rw [afterDeclaration?_eq, List.append_assoc,
      reads "?>" rest (after?_eq_some.mp isEnd).symm rfl other, Option.bind_some, after?_append]

/-- The text after a declaration, when the byte order mark is gone. -/
def afterMark? (text : Text) : Option Text :=
  match after? text "<?xml " with
  | some rest => afterDeclaration? rest
  | none => some text

theorem body?_eq (document : Text) : body? document = afterMark? (match document with
    | '\uFEFF' :: rest => rest
    | _ => document) := rfl

theorem body?_unmarked {text : Text} (noMark : text.head? ≠ some '\uFEFF') :
    body? text = afterMark? text := by
  rw [body?_eq]
  split
  · exact absurd rfl noMark
  · rfl

/-- A declaration that is read the same whatever document follows it. -/
structure IsDeclaration (text : Text) : Prop where
  starts : "<?xml " <+: text
  last : text.getLast? = some '>'
  reads : ∀ other, afterMark? (text ++ other) = some other

theorem afterMark?_eq_some {text body : Text} (isBody : afterMark? text = some body) :
    ∃ declaration, text = declaration ++ body ∧ (declaration = [] ∨ IsDeclaration declaration) := by
  unfold afterMark? at isBody
  split at isBody
  · rename_i rest isRest
    obtain ⟨used, rfl, ends, reads⟩ := afterDeclaration?_local isBody
    have reads (other : Text) : afterMark? ("<?xml " ++ used ++ other) = some other := by
      rw [afterMark?, List.append_assoc, after?_append]
      exact reads other
    rw [← after?_eq_some.mp isRest, ← List.append_assoc]
    exact ⟨_, rfl, .inr ⟨List.prefix_append _ _, ends_append ends _, reads⟩⟩
  · cases isBody
    exact ⟨[], rfl, .inl rfl⟩

/-- What stands in front of a document is a byte order mark and a declaration, or one of them, or
nothing. -/
theorem body?_eq_some {document body : Text} (isBody : body? document = some body) :
    ∃ mark declaration, document = mark ++ (declaration ++ body) ∧
      (mark = [] ∨ mark = ['\uFEFF']) ∧ (declaration = [] ∨ IsDeclaration declaration) := by
  rw [body?_eq] at isBody
  split at isBody
  · obtain ⟨declaration, rfl, isDeclaration⟩ := afterMark?_eq_some isBody
    exact ⟨['\uFEFF'], declaration, rfl, .inr rfl, isDeclaration⟩
  · obtain ⟨declaration, rfl, isDeclaration⟩ := afterMark?_eq_some isBody
    exact ⟨[], declaration, rfl, .inl rfl, isDeclaration⟩

/-- Neither a byte order mark nor a declaration stands in front of the text. -/
structure IsBare (text : Text) : Prop where
  noMark : text.head? ≠ some '\uFEFF'
  noDeclaration : text.after? "<?xml " = none

/-- What stands in front of a document is read the same with another document. -/
theorem IsBare.body?_eq {mark declaration body : Text} (bare : IsBare body)
    (isMark : mark = [] ∨ mark = ['\uFEFF'])
    (isDeclaration : declaration = [] ∨ IsDeclaration declaration) :
    body? (mark ++ (declaration ++ body)) = some body := by
  have isBody : afterMark? (declaration ++ body) = some body := by
    rcases isDeclaration with rfl | isDeclaration
    · rw [List.nil_append, afterMark?, bare.noDeclaration]
    · exact isDeclaration.reads body
  have noMark : (declaration ++ body).head? ≠ some '\uFEFF' := by
    rcases isDeclaration with rfl | isDeclaration
    · exact bare.noMark
    · obtain ⟨rest, rfl⟩ := isDeclaration.starts
      exact fun isHead => nomatch isHead
  rcases isMark with rfl | rfl
  · rw [List.nil_append, body?_unmarked noMark, isBody]
  · exact isBody

theorem IsMarkup.bare {markup : Text} {piece : Piece} (isMarkup : IsMarkup markup piece)
    (rest : Text) : IsBare (markup ++ rest) := by
  constructor
  · rw [head?_append_of_ends isMarkup.last, isMarkup.head]
    decide
  · rw [after?_eq_none]
    rintro ⟨more, same⟩
    have reads := isMarkup.reads rest
    rw [← same] at reads
    cases reads

/-- A document that begins with markup has no declaration in front of it. -/
theorem IsMarkup.body?_eq {markup : Text} {piece : Piece} (isMarkup : IsMarkup markup piece)
    (rest : Text) : body? (markup ++ rest) = some (markup ++ rest) :=
  (isMarkup.bare rest).body?_eq (.inl rfl) (.inl rfl)

end ManagementShell.Xml
