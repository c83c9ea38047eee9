import ManagementShell.Proofs.Text.Cut
import ManagementShell.Xml.Piece

/-
This file shows that a tag, a comment, a section and an instruction are read the same whatever
follows them.
-/

namespace ManagementShell

namespace Text

theorem after?_append (beginning rest : Text) : after? (beginning ++ rest) beginning = some rest :=
  after?_eq_some.mpr rfl

theorem after?_eq_none {text beginning : Text} : text.after? beginning = none ↔
    ¬beginning <+: text := by
  rw [Option.eq_none_iff_forall_ne_some]
  simp only [ne_eq, after?_eq_some]
  exact ⟨fun never starts => starts.elim fun rest same => never rest same,
    fun starts rest same => starts ⟨rest, same⟩⟩

theorem ends_append {back : Text} {last : Char} (ends : back.getLast? = some last) (front : Text) :
    (front ++ back).getLast? = some last := by
  rw [List.getLast?_append, ends]
  rfl

theorem head?_append_of_ends {front : Text} {last : Char} (ends : front.getLast? = some last)
    (rest : Text) : (front ++ rest).head? = front.head? := by
  cases front with
  | nil => cases ends
  | cons first more => rfl

theorem head?_append_cons (front : Text) (character : Char) (first second : Text) :
    (front ++ character :: first).head? = (front ++ character :: second).head? := by
  cases front <;> rfl

/-- A text is cut at the first mark, so that what follows the mark does not matter. -/
theorem cut?_local {text mark before after : Text} (nonempty : mark ≠ [])
    (isCut : text.cut? mark = some (before, after)) : text = before ++ mark ++ after ∧
      ∀ other, cut? (before ++ mark ++ other) mark = some (before, other) := by
  induction text generalizing before with
  | nil => simp [cut?, nonempty] at isCut
  | cons character rest inductionHypothesis =>
      unfold cut? at isCut
      split at isCut
      · rename_i remainder isRemainder
        cases isCut
        refine ⟨(after?_eq_some.mp isRemainder).symm, fun other => ?_⟩
        obtain ⟨first, more, rfl⟩ := List.exists_cons_of_ne_nil nonempty
        rw [List.nil_append, List.cons_append, cut?, ← List.cons_append, after?_append]
      · rename_i noMark
        obtain ⟨⟨later, remainder⟩, isLater, isParts⟩ := Option.map_eq_some_iff.mp isCut
        cases isParts
        obtain ⟨rfl, isLocal⟩ := inductionHypothesis isLater
        refine ⟨rfl, fun other => ?_⟩
        have noMarkThere : after? (character :: (later ++ mark ++ other)) mark = none := by
          rw [after?_eq_none] at noMark ⊢
          intro starts
          have extended : character :: (later ++ mark) <+:
              character :: (later ++ mark ++ other) := ⟨other, by simp⟩
          have isPrefix : mark <+: character :: (later ++ mark) :=
            List.prefix_of_prefix_length_le starts extended (by simp; omega)
          exact noMark (isPrefix.trans ⟨remainder, by simp⟩)
        rw [List.cons_append, List.cons_append, cut?, noMarkThere, isLocal other]
        rfl

theorem includes_iff {text mark : Text} : text.includes mark = true ↔ mark <:+: text := by
  rw [includes]
  induction text with
  | nil =>
      rw [cut?, List.infix_nil]
      split <;> simp [*]
  | cons character rest inductionHypothesis =>
      rw [List.infix_cons_iff, ← inductionHypothesis, cut?]
      split
      · rename_i remainder isRemainder
        exact iff_of_true rfl (.inl ⟨remainder, after?_eq_some.mp isRemainder⟩)
      · rename_i noMark
        rw [Option.isSome_map, or_iff_right (after?_eq_none.mp noMark)]

/-- A mark is not in a text that lacks one of its characters. -/
theorem includes_of_lacks {text mark : Text} {character : Char} (member : character ∈ mark)
    (lacks : character ∉ text) : text.includes mark = false := by
  rw [← Bool.not_eq_true, includes_iff]
  exact fun found => lacks (found.subset member)

end Text

open Text

namespace Xml

theorem upTo?_local {text mark before after : Text} (nonempty : mark ≠ [])
    (isCut : upTo? text mark = some (before, after)) : text = before ++ mark ++ after ∧
      ∀ other, upTo? (before ++ mark ++ other) mark = some (before, other) := by
  unfold upTo? at isCut
  split at isCut
  · rename_i front back found
    split at isCut
    · rename_i proper
      cases isCut
      obtain ⟨written, isLocal⟩ := cut?_local nonempty found
      refine ⟨written, fun other => ?_⟩
      rw [upTo?, isLocal other]
      exact if_pos proper
    · cases isCut
  · cases isCut

/-- The text does not begin with a character of the class. -/
def Lacking (isMember : Char → Bool) (text : Text) : Prop :=
  ∀ character ∈ text.head?, isMember character = false

theorem Lacking.swap {isMember : Char → Bool} {used rest other : Text} {last : Char}
    (lacking : Lacking isMember (used ++ rest)) (ends : used.getLast? = some last) :
    Lacking isMember (used ++ other) := by
  cases used with
  | nil => cases ends
  | cons first more => exact lacking

theorem takeWhile_append_of_lacking {isMember : Char → Bool} {first second : Text}
    (members : first.all isMember = true) (lacking : Lacking isMember second) :
    (first ++ second).takeWhile isMember = first ∧
      (first ++ second).dropWhile isMember = second := by
  have all := List.all_eq_true.mp members
  rw [List.takeWhile_append_of_pos all, List.dropWhile_append_of_pos all]
  cases second with
  | nil => simp
  | cons character rest =>
      have noMember : isMember character = false := lacking character rfl
      simp [noMember]

theorem lacking_dropWhile (isMember : Char → Bool) (text : Text) :
    Lacking isMember (text.dropWhile isMember) := by
  intro character isHead
  have noMember := List.head?_dropWhile_not isMember text
  rw [isHead] at noMember
  simpa using noMember

theorem skipSpaces_append {spaces text : Text} (areSpaces : spaces.all isSpace = true)
    (lacking : Lacking isSpace text) : skipSpaces (spaces ++ text) = text :=
  (takeWhile_append_of_lacking areSpaces lacking).2

theorem exists_spaces (text : Text) : ∃ spaces, text = spaces ++ skipSpaces text ∧
    spaces.all isSpace = true ∧ Lacking isSpace (skipSpaces text) :=
  ⟨text.takeWhile isSpace, List.takeWhile_append_dropWhile.symm, List.all_takeWhile,
    lacking_dropWhile isSpace text⟩

theorem isSpace_of_isNameCharacter {character : Char} (inName : isNameCharacter character = true) :
    isSpace character = false := by
  rw [Bool.eq_false_iff]
  intro space
  simp only [isSpace, Bool.or_eq_true, beq_iff_eq] at space
  rcases space with ((rfl | rfl) | rfl) | rfl <;> revert inName <;> decide

/-- The name that the characters of a name form. -/
def nameOf? (written : Text) : Option Name :=
  match Text.splitOn written ':' with
  | [base] => if base.head?.any isNameStart then some ⟨[], base⟩ else none
  | [qualifier, base] =>
      if qualifier.head?.all isNameStart && base.head?.any isNameStart then some ⟨qualifier, base⟩
      else none
  | _ => none

theorem name?_eq (text : Text) : name? text =
    (nameOf? (text.takeWhile isNameCharacter)).map (·, text.dropWhile isNameCharacter) := by
  unfold name? nameOf?
  dsimp only
  rcases Text.splitOn (text.takeWhile isNameCharacter) ':' with _ | ⟨base, _ | ⟨other, _ | more⟩⟩
  · rfl
  · dsimp only
    split <;> rfl
  · dsimp only
    split <;> rfl
  · rfl

/-- A name ends where a character comes that no name has. -/
theorem name?_local {text rest : Text} {name : Name} (isName : name? text = some (name, rest)) :
    ∃ first written, text = first :: written ++ rest ∧ isNameCharacter first = true ∧
      Lacking isNameCharacter rest ∧ ∀ other, Lacking isNameCharacter other →
        name? (first :: written ++ other) = some (name, other) := by
  rw [name?_eq] at isName
  obtain ⟨read, isRead, isRest⟩ := Option.map_eq_some_iff.mp isName
  cases isRest
  cases isWritten : text.takeWhile isNameCharacter with
  | nil =>
      rw [isWritten] at isRead
      cases isRead
  | cons first written =>
      have members : (first :: written).all isNameCharacter = true := by
        rw [← isWritten]
        exact List.all_takeWhile
      refine ⟨first, written, ?_, ?_, lacking_dropWhile _ _, fun other lacking => ?_⟩
      · rw [← isWritten, List.takeWhile_append_dropWhile]
      · rw [List.all_cons, Bool.and_eq_true] at members
        exact members.1
      · obtain ⟨taken, dropped⟩ := takeWhile_append_of_lacking members lacking
        rw [name?_eq, taken, dropped, ← isWritten, isRead]
        rfl

theorem quotedValue?_local {quote : Char} {text value rest : Text}
    (isValue : quotedValue? quote text = some (value, rest)) : text = value ++ [quote] ++ rest ∧
      ∀ other, quotedValue? quote (value ++ [quote] ++ other) = some (value, other) := by
  unfold quotedValue? at isValue
  split at isValue
  · rename_i inside after found
    split at isValue
    · cases isValue
    · rename_i proper
      cases isValue
      obtain ⟨written, isLocal⟩ := upTo?_local (List.cons_ne_nil _ _) found
      refine ⟨written, fun other => ?_⟩
      rw [quotedValue?, isLocal other]
      exact if_neg proper
  · cases isValue

/-- An attribute is a name, an equals sign with spaces around it and a value in quotes. -/
theorem attribute?_eq_some {text value rest : Text} {name : Name} :
    attribute? text = some (name, value, rest) ↔ ∃ before between quote inside,
      before.all isSpace = true ∧ between.all isSpace = true ∧ (quote = '"' ∨ quote = '\'') ∧
        name? text = some (name, before ++ '=' :: (between ++ quote :: inside)) ∧
        quotedValue? quote inside = some (value, rest) := by
  constructor
  · intro isAttribute
    unfold attribute? at isAttribute
    split at isAttribute
    · cases isAttribute
    rename_i read afterName isName
    obtain ⟨before, isBefore, areBefore, -⟩ := exists_spaces afterName
    split at isAttribute
    · rename_i afterSign isSign
      rw [isSign] at isBefore
      obtain ⟨between, isBetween, areBetween, -⟩ := exists_spaces afterSign
      split at isAttribute
      · rename_i inside isInside
        obtain ⟨part, isValue, isPart⟩ := Option.map_eq_some_iff.mp isAttribute
        cases isPart
        rw [isInside] at isBetween
        exact ⟨before, between, _, inside, areBefore, areBetween, .inl rfl,
          by rw [isName, isBefore, isBetween], isValue⟩
      · rename_i inside isInside
        obtain ⟨part, isValue, isPart⟩ := Option.map_eq_some_iff.mp isAttribute
        cases isPart
        rw [isInside] at isBetween
        exact ⟨before, between, _, inside, areBefore, areBetween, .inr rfl,
          by rw [isName, isBefore, isBetween], isValue⟩
      · cases isAttribute
    · cases isAttribute
  · rintro ⟨before, between, quote, inside, areBefore, areBetween, isQuote, isName, isValue⟩
    have toSign : skipSpaces (before ++ '=' :: (between ++ quote :: inside)) =
        '=' :: (between ++ quote :: inside) :=
      skipSpaces_append areBefore fun character isHead => by cases isHead; rfl
    have noSpace : isSpace quote = false := by rcases isQuote with rfl | rfl <;> rfl
    have toQuote : skipSpaces (between ++ quote :: inside) = quote :: inside :=
      skipSpaces_append areBetween fun character isHead => by cases isHead; exact noSpace
    rw [attribute?, isName]
    dsimp only
    rw [toSign]
    simp only [toQuote]
    rcases isQuote with rfl | rfl <;> simp [isValue]

theorem attribute?_local {text value rest : Text} {name : Name}
    (isAttribute : attribute? text = some (name, value, rest)) :
    ∃ first written, text = first :: written ++ rest ∧ isNameCharacter first = true ∧
      ∀ other, attribute? (first :: written ++ other) = some (name, value, other) := by
  obtain ⟨before, between, quote, inside, areBefore, areBetween, isQuote, isName, isValue⟩ :=
    attribute?_eq_some.mp isAttribute
  obtain ⟨first, written, rfl, isFirst, lacking, nameLocal⟩ := name?_local isName
  obtain ⟨rfl, valueLocal⟩ := quotedValue?_local isValue
  refine ⟨first, written ++ (before ++ '=' :: (between ++ quote :: (value ++ [quote]))), by simp,
    isFirst, fun other => ?_⟩
  refine attribute?_eq_some.mpr ⟨before, between, quote, value ++ [quote] ++ other, areBefore,
    areBetween, isQuote, ?_, valueLocal other⟩
  have regrouped : first :: (written ++ (before ++ '=' :: (between ++ quote :: (value ++ [quote])))) ++
      other = first :: written ++
        (before ++ '=' :: (between ++ quote :: (value ++ [quote] ++ other))) := by simp
  rw [regrouped]
  refine nameLocal _ fun character isHead => lacking character ?_
  cases before <;> exact isHead

/-- Another attribute comes when neither end of the tag does. -/
theorem attributes?_more {text written after : Text} {name : Name} {data : List Datum}
    (spaced : text.head?.any isSpace = true)
    (isAttribute : attribute? (skipSpaces text) = some (name, written, after))
    (isData : data? written = some data) : attributes? text =
      (attributes? after).map fun part => ((name, attributeValue data) :: part.1, part.2) := by
  obtain ⟨first, used, isStart, isFirst, -⟩ := attribute?_local isAttribute
  have shorter : after.length < text.length := by
    obtain ⟨spaces, isText, -⟩ := exists_spaces text
    rw [isText, isStart]
    simp
    omega
  have noEnd : ∀ mark more, skipSpaces text = mark :: more → isNameCharacter mark = true := by
    intro mark more isEnd
    rw [isStart] at isEnd
    exact (List.cons.inj isEnd).1 ▸ isFirst
  rw [attributes?]
  split
  · exact absurd (noEnd _ _ ‹_›) (by decide)
  · exact absurd (noEnd _ _ ‹_›) (by decide)
  · rw [if_pos spaced, isAttribute]
    dsimp only
    rw [if_pos shorter, isData]
    cases attributes? after <;> rfl

theorem attributes?_cases {text rest : Text} {attributes : List (Name × Text)} {isEmpty : Bool}
    (areAttributes : attributes? text = some (attributes, isEmpty, rest)) :
    (skipSpaces text = '/' :: '>' :: rest ∧ attributes = [] ∧ isEmpty = true) ∨
    (skipSpaces text = '>' :: rest ∧ attributes = [] ∧ isEmpty = false) ∨
    ∃ name written after data others, text.head?.any isSpace = true ∧
      attribute? (skipSpaces text) = some (name, written, after) ∧ after.length < text.length ∧
      data? written = some data ∧ attributes? after = some (others, isEmpty, rest) ∧
      attributes = (name, attributeValue data) :: others := by
  rw [attributes?] at areAttributes
  split at areAttributes
  · rename_i isEnd
    cases areAttributes
    exact .inl ⟨isEnd, rfl, rfl⟩
  · rename_i isEnd
    cases areAttributes
    exact .inr (.inl ⟨isEnd, rfl, rfl⟩)
  · split at areAttributes
    · rename_i spaced
      split at areAttributes
      · cases areAttributes
      rename_i name written after isAttribute
      split at areAttributes
      · rename_i shorter
        split at areAttributes
        · rename_i data others lastEmpty last areOthers isData
          cases areAttributes
          exact .inr (.inr ⟨name, written, after, data, others, spaced, isAttribute, shorter,
            areOthers, isData, rfl⟩)
        · cases areAttributes
      · cases areAttributes
    · cases areAttributes

/-- The induction is on the attributes that are left. -/
theorem attributes?_local {text rest : Text} {attributes : List (Name × Text)} {isEmpty : Bool}
    (areAttributes : attributes? text = some (attributes, isEmpty, rest)) :
    ∃ used, text = used ++ rest ∧ used.getLast? = some '>' ∧
      ∀ other, attributes? (used ++ other) = some (attributes, isEmpty, other) := by
  obtain ⟨spaces, isText, areSpaces, -⟩ := exists_spaces text
  rcases attributes?_cases areAttributes with ⟨isEnd, rfl, rfl⟩ | ⟨isEnd, rfl, rfl⟩ | more
  · refine ⟨spaces ++ ['/', '>'], by rw [isText, isEnd]; simp, by simp, fun other => ?_⟩
    have toEnd : skipSpaces (spaces ++ ['/', '>'] ++ other) = '/' :: '>' :: other := by
      rw [List.append_assoc]
      exact skipSpaces_append areSpaces fun character isHead => by cases isHead; rfl
    rw [attributes?, toEnd]
    rfl
  · refine ⟨spaces ++ ['>'], by rw [isText, isEnd]; simp, by simp, fun other => ?_⟩
    have toEnd : skipSpaces (spaces ++ ['>'] ++ other) = '>' :: other := by
      rw [List.append_assoc]
      exact skipSpaces_append areSpaces fun character isHead => by cases isHead; rfl
    rw [attributes?, toEnd]
    rfl
  · obtain ⟨name, written, after, data, others, spaced, isAttribute, shorter, isData, areOthers,
      rfl⟩ := more
    obtain ⟨first, front, isStart, isFirst, isLocal⟩ := attribute?_local isAttribute
    obtain ⟨back, rfl, ends, othersLocal⟩ := attributes?_local areOthers
    refine ⟨spaces ++ (first :: front ++ back), ?_, ?_, fun other => ?_⟩
    · rw [isText, isStart]
      simp
    · exact ends_append (ends_append ends _) _
    · have toStart : skipSpaces (spaces ++ (first :: front ++ back) ++ other) =
          first :: front ++ (back ++ other) := by
        rw [List.append_assoc, List.append_assoc]
        exact skipSpaces_append areSpaces fun character isHead => by
          cases isHead
          exact isSpace_of_isNameCharacter isFirst
      have spacedThere : (spaces ++ (first :: front ++ back) ++ other).head?.any isSpace = true := by
        rw [isText, isStart] at spaced
        rw [List.append_assoc, List.append_assoc, List.cons_append,
          head?_append_cons spaces first _ (front ++ (back ++ rest))]
        exact spaced
      rw [attributes?_more spacedThere (by rw [toStart]; exact isLocal _) isData, othersLocal other]
      rfl
termination_by text.length

theorem opening?_local {text rest : Text} {piece : Piece}
    (isOpening : opening? text = some (piece, rest)) :
    ∃ first used, text = first :: used ++ rest ∧ isNameCharacter first = true ∧
      used.getLast? = some '>' ∧ ∀ other, opening? (first :: used ++ other) = some (piece, other) := by
  unfold opening? at isOpening
  split at isOpening
  · cases isOpening
  rename_i name afterName isName
  obtain ⟨first, written, rfl, isFirst, lacking, nameLocal⟩ := name?_local isName
  split at isOpening
  · rename_i attributes isEmpty after areAttributes
    cases isOpening
    obtain ⟨used, rfl, ends, isLocal⟩ := attributes?_local areAttributes
    refine ⟨first, written ++ used, by simp, isFirst, ends_append ends _, fun other => ?_⟩
    have lackingThere : Lacking isNameCharacter (used ++ other) := lacking.swap ends
    rw [opening?, List.cons_append, List.append_assoc, ← List.cons_append, nameLocal _ lackingThere]
    simp only [isLocal]
  · cases isOpening

theorem closing?_local {text rest : Text} {piece : Piece}
    (isClosing : closing? text = some (piece, rest)) :
    ∃ used, text = used ++ rest ∧ used.getLast? = some '>' ∧
      ∀ other, closing? (used ++ other) = some (piece, other) := by
  unfold closing? at isClosing
  split at isClosing
  · cases isClosing
  rename_i name afterName isName
  obtain ⟨first, written, rfl, isFirst, lacking, nameLocal⟩ := name?_local isName
  obtain ⟨spaces, isAfter, areSpaces, -⟩ := exists_spaces afterName
  split at isClosing
  · rename_i isEnd
    cases isClosing
    rw [isEnd] at isAfter
    subst isAfter
    have ends : (spaces ++ ['>']).getLast? = some '>' := ends_append rfl _
    have regrouped : spaces ++ '>' :: rest = spaces ++ ['>'] ++ rest := by simp
    rw [regrouped] at lacking
    refine ⟨first :: written ++ (spaces ++ ['>']), by simp, ends_append ends _, fun other => ?_⟩
    have toEnd : skipSpaces (spaces ++ ['>'] ++ other) = '>' :: other := by
      rw [List.append_assoc]
      exact skipSpaces_append areSpaces fun character isHead => by cases isHead; rfl
    rw [closing?, List.append_assoc, nameLocal _ (lacking.swap ends)]
    simp only [toEnd]
  · cases isClosing

theorem comment?_local {text rest : Text} {piece : Piece}
    (isComment : comment? text = some (piece, rest)) :
    ∃ used, text = used ++ rest ∧ used.getLast? = some '>' ∧
      ∀ other, comment? (used ++ other) = some (piece, other) := by
  unfold comment? at isComment
  split at isComment
  · rename_i inside after found
    split at isComment
    · cases isComment
    · rename_i proper
      cases isComment
      obtain ⟨rfl, isLocal⟩ := upTo?_local (by decide : ("-->" : Text) ≠ []) found
      refine ⟨inside ++ "-->", rfl, ends_append rfl _, fun other => ?_⟩
      rw [comment?, isLocal other]
      exact if_neg proper
  · cases isComment

theorem section?_local {text rest : Text} {piece : Piece}
    (isSection : section? text = some (piece, rest)) :
    ∃ used, text = used ++ rest ∧ used.getLast? = some '>' ∧
      ∀ other, section? (used ++ other) = some (piece, other) := by
  unfold section? at isSection
  split at isSection
  · rename_i inside after found
    cases isSection
    obtain ⟨rfl, isLocal⟩ := upTo?_local (by decide : ("]]>" : Text) ≠ []) found
    refine ⟨inside ++ "]]>", rfl, ends_append rfl _, fun other => ?_⟩
    rw [section?, isLocal other]
  · cases isSection

/-- A word without the end of a tag does not go on behind this end. -/
theorem isPrefixOf_swap {word used : Text} (ends : used.getLast? = some '>') (absent : '>' ∉ word)
    (rest other : Text) : word.isPrefixOf (used ++ rest) = word.isPrefixOf (used ++ other) := by
  have inside (back : Text) : word <+: used ++ back ↔ word <+: used :=
    ⟨prefix_of_append (List.mem_of_mem_getLast? ends) absent,
      fun starts => starts.trans (List.prefix_append _ _)⟩
  rw [Bool.eq_iff_iff, List.isPrefixOf_iff_prefix, List.isPrefixOf_iff_prefix, inside, inside]

theorem instruction?_local {text rest : Text} {piece : Piece}
    (isInstruction : instruction? text = some (piece, rest)) :
    ∃ used, text = used ++ rest ∧ used.getLast? = some '>' ∧
      ∀ other, instruction? (used ++ other) = some (piece, other) := by
  unfold instruction? at isInstruction
  split at isInstruction
  · cases isInstruction
  rename_i noDeclaration
  split at isInstruction
  · rename_i starts
    split at isInstruction
    · rename_i inside after found
      cases isInstruction
      obtain ⟨isInside, isLocal⟩ := upTo?_local (by decide : ("?>" : Text) ≠ []) found
      obtain ⟨spaces, isAfterName, areSpaces, noSpace⟩ :=
        exists_spaces (text.dropWhile isNameCharacter)
      have noName := lacking_dropWhile isNameCharacter text
      have isText : text.takeWhile isNameCharacter ++ text.dropWhile isNameCharacter = text :=
        List.takeWhile_append_dropWhile
      have areName : (text.takeWhile isNameCharacter).all isNameCharacter = true :=
        List.all_takeWhile
      generalize text.takeWhile isNameCharacter = written at isText areName
      rw [isInside] at isAfterName noSpace
      rw [← List.append_assoc] at isAfterName
      rw [isAfterName] at noName isText
      rw [← List.append_assoc written] at isText
      have ends : (inside ++ "?>").getLast? = some '>' := ends_append rfl _
      have endsAfterName : (spaces ++ (inside ++ "?>")).getLast? = some '>' := ends_append ends _
      have endsWhole : (written ++ (spaces ++ (inside ++ "?>"))).getLast? = some '>' :=
        ends_append endsAfterName _
      rw [← isText] at starts
      rw [← isText, isPrefixOf_swap endsWhole (by decide) rest []] at noDeclaration
      refine ⟨written ++ (spaces ++ (inside ++ "?>")), isText.symm, endsWhole, fun other => ?_⟩
      have startsThere :
          (written ++ (spaces ++ (inside ++ "?>")) ++ other).head?.any isNameStart = true := by
        rwa [head?_append_of_ends endsWhole other, ← head?_append_of_ends endsWhole rest]
      have toName : (written ++ (spaces ++ (inside ++ "?>")) ++ other).dropWhile isNameCharacter =
          spaces ++ (inside ++ "?>") ++ other := by
        rw [List.append_assoc]
        exact (takeWhile_append_of_lacking areName (noName.swap endsAfterName)).2
      have toInside : skipSpaces (spaces ++ (inside ++ "?>") ++ other) = inside ++ "?>" ++ other := by
        rw [List.append_assoc]
        exact skipSpaces_append areSpaces (noSpace.swap ends)
      rw [instruction?, isPrefixOf_swap endsWhole (by decide) other [], if_neg noDeclaration,
        if_pos startsThere, toName, toInside, isLocal other]
    · cases isInstruction
  · cases isInstruction

/-- Markup that is read as the piece, whatever follows it. -/
structure IsMarkup (text : Text) (piece : Piece) : Prop where
  head : text.head? = some '<'
  last : text.getLast? = some '>'
  reads : ∀ other, piece? (text ++ other) = some (piece, other)

theorem piece?_opening {first : Char} (inName : isNameCharacter first = true) (rest : Text) :
    piece? ('<' :: first :: rest) = opening? (first :: rest) := by
  have noMark : first ≠ '!' ∧ first ≠ '?' ∧ first ≠ '/' := by
    refine ⟨?_, ?_, ?_⟩ <;> (rintro rfl; revert inName; decide)
  rw [piece?]
  · simp [noMark]
  · simp [noMark]
  · simp [noMark]
  · simp [noMark]

theorem exists_markup {text rest : Text} {piece : Piece}
    (isPiece : piece? ('<' :: text) = some (piece, rest)) :
    ∃ used, '<' :: text = used ++ rest ∧ IsMarkup used piece := by
  unfold piece? at isPiece
  split at isPiece
  · rename_i inside isComment
    cases isComment
    obtain ⟨used, rfl, ends, isLocal⟩ := comment?_local isPiece
    exact ⟨'<' :: '!' :: '-' :: '-' :: used, rfl, rfl, ends_append ends ['<', '!', '-', '-'], isLocal⟩
  · rename_i inside noComment isSection
    cases isSection
    split at isPiece
    · rename_i content isContent
      obtain ⟨used, rfl, ends, isLocal⟩ := section?_local isPiece
      rw [← after?_eq_some.mp isContent]
      exact ⟨'<' :: '!' :: "[CDATA[" ++ used, rfl, rfl, ends_append ends _, fun other => isLocal other⟩
    · cases isPiece
  · rename_i inside isInstruction
    cases isInstruction
    obtain ⟨used, rfl, ends, isLocal⟩ := instruction?_local isPiece
    exact ⟨'<' :: '?' :: used, rfl, rfl, ends_append ends ['<', '?'], isLocal⟩
  · rename_i inside isClosing
    cases isClosing
    obtain ⟨used, rfl, ends, isLocal⟩ := closing?_local isPiece
    exact ⟨'<' :: '/' :: used, rfl, rfl, ends_append ends ['<', '/'], isLocal⟩
  · rename_i inside noComment noSection noInstruction noClosing isOpening
    cases isOpening
    obtain ⟨first, used, rfl, inName, ends, isLocal⟩ := opening?_local isPiece
    refine ⟨'<' :: first :: used, rfl, rfl, ends_append ends ['<', first], fun other => ?_⟩
    exact (piece?_opening inName _).trans (isLocal other)
  · rename_i noOpening
    exact absurd rfl (noOpening text)

end Xml

end ManagementShell
