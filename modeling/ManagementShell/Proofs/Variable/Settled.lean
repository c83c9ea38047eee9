import ManagementShell.Proofs.Variable.Scan
import Mathlib.Data.List.Chain

/-
This file shows that nothing more is substituted in a text after it has been expanded, and that a text
is expanded to itself if its dollar signs are escaped.
-/

namespace ManagementShell
open Text Variable

namespace Text

/-- No backslash stands in front of a dollar sign. -/
def IsUnescaped (text : Text) : Prop :=
  text.IsChain fun first second => first = '\\' → second ≠ '$'

/-- No dollar sign stands in front of a word. -/
def IsSettled (text : Text) : Prop :=
  text.IsChain fun first second => first = '$' → isWord second = false

variable {front text word value rest : Text}

theorem isUnescaped_iff : IsUnescaped text ↔ ¬"\\$".toList <:+: text := by
  rw [IsUnescaped, List.isChain_iff_forall_rel_of_append_cons_cons]
  constructor
  · rintro unescaped ⟨before, after, rfl⟩
    exact @unescaped '\\' '$' before after (by simp) rfl rfl
  · rintro absent _ _ before after rfl rfl rfl
    exact absent ⟨before, after, by simp⟩

/-- A character that a text lacks stands in front of nothing. -/
theorem isChain_of_lacks {first : Char} (lacks : first ∉ text) (holds : Char → Prop) :
    text.IsChain fun character next => character = first → holds next := by
  rw [List.isChain_iff_forall_rel_of_append_cons_cons]
  rintro _ _ before after rfl rfl
  exact absurd (by simp) lacks

theorem isSettled_of_lacks (noSign : '$' ∉ text) : IsSettled text := isChain_of_lacks noSign _

/-- In place of a name there may be any value without a backslash. -/
theorem IsUnescaped.exchange (unescaped : IsUnescaped (front ++ '$' :: (word ++ rest)))
    (lacks : '\\' ∉ value) : IsUnescaped (front ++ (value ++ rest)) := by
  obtain ⟨isFront, isName, border⟩ := List.isChain_append.mp unescaped
  have isRest : IsUnescaped rest := List.IsChain.suffix isName ⟨'$' :: word, by simp⟩
  have isValue : IsUnescaped value := isChain_of_lacks lacks _
  refine isFront.append (isValue.append isRest ?_) ?_
  · rintro _ isLast _ _ rfl
    exact absurd (List.mem_of_getLast? isLast) lacks
  · rintro last isLast _ _ isBackslash
    exact absurd rfl (border last isLast '$' rfl isBackslash)

/-- The induction is on the text behind the part that has been replaced already. -/
theorem IsUnescaped.replaceAll (unescaped : IsUnescaped (front ++ text)) (lacks : '\\' ∉ value) :
    IsUnescaped (front ++ Text.replaceAll text ('$' :: word) value) := by
  let mark : Definition := ⟨'$' :: word, value⟩
  have nonempty : ∀ definition ∈ [mark], definition.name ≠ [] := by simp [mark]
  induction text using Definition.first?_induction nonempty generalizing front with
  | nil => exact unescaped
  | found definition rest isFirst inductionHypothesis =>
      obtain rfl := List.mem_singleton.mp (Definition.first?_mem isFirst)
      rw [replaceAll_mark (List.cons_ne_nil _ _), ← List.append_assoc]
      refine inductionHypothesis ?_
      rw [List.append_assoc]
      exact unescaped.exchange lacks
  | plain character rest isFirst inductionHypothesis =>
      rw [replaceAll_cons (Definition.first?_none.mp isFirst mark List.mem_cons_self),
        List.append_cons]
      exact inductionHypothesis (List.append_cons front character rest ▸ unescaped)

theorem replaceAll_sign (value rest : Text) :
    Text.replaceAll ('$' :: rest) "$" value = value ++ Text.replaceAll rest "$" value :=
  replaceAll_found '$' value rest

theorem replaceAll_notSign {character : Char} (differs : character ≠ '$') (value rest : Text) :
    Text.replaceAll (character :: rest) "$" value = character :: Text.replaceAll rest "$" value :=
  replaceAll_passed differs value rest

/-- The escapes of a text are found again: a backslash in front of one is no part of it. -/
theorem replaceAll_escapes (value : Text) :
    Text.replaceAll (Text.replaceAll text "$" "\\$") "\\$" value = Text.replaceAll text "$" value := by
  induction text with
  | nil => rfl
  | cons character rest inductionHypothesis =>
      by_cases isSign : character = '$'
      · rw [isSign, replaceAll_sign, replaceAll_sign, replaceAll_mark (by decide), inductionHypothesis]
      · rw [replaceAll_notSign isSign, replaceAll_notSign isSign, replaceAll_cons, inductionHypothesis]
        intro begins
        obtain ⟨-, followed⟩ := List.cons_prefix_cons.mp begins
        cases rest with
        | nil => exact absurd followed (by decide)
        | cons next rest =>
            by_cases isNext : next = '$'
            · rw [isNext, replaceAll_sign] at followed
              exact absurd (List.cons_prefix_cons.mp followed).1 (by decide)
            · rw [replaceAll_notSign isNext] at followed
              exact isNext (List.cons_prefix_cons.mp followed).1.symm

/-- The form of an escaped dollar sign is a dollar sign again, where the text has no NUL. -/
theorem replaceAll_restored (unmarked : '\x00' ∉ text) :
    Text.replaceAll (Text.replaceAll text "$" Store.escapedDollar) Store.escapedDollar "$" = text := by
  induction text with
  | nil => rfl
  | cons character rest inductionHypothesis =>
      rw [List.mem_cons, not_or] at unmarked
      by_cases isSign : character = '$'
      · rw [isSign, replaceAll_sign, replaceAll_mark (by decide), inductionHypothesis unmarked.2]
        rfl
      · rw [replaceAll_notSign isSign, replaceAll_cons, inductionHypothesis unmarked.2]
        exact fun begins => unmarked.1 (List.cons_prefix_cons.mp begins).1

end Text

namespace Store
open Definition

/-- A text is nothing, a name and what follows it, a dollar sign that no word follows, or another
character. -/
@[elab_as_elim]
theorem names_induction {motive : Text → Prop} (nil : motive [])
    (name : ∀ first word rest, (first :: word).all isWord = true → rest.head?.any isWord = false →
      motive rest → motive ('$' :: (first :: word ++ rest)))
    (sign : ∀ rest, rest.head?.any isWord = false → motive rest → motive ('$' :: rest))
    (other : ∀ character rest, character ≠ '$' → motive rest → motive (character :: rest))
    (text : Text) : motive text := by
  induction isLength : text.length using Nat.strong_induction_on generalizing text with
  | h length inductionHypothesis =>
      subst isLength
      cases text with
      | nil => exact nil
      | cons character rest =>
          by_cases isSign : character = '$'
          swap
          · exact other character rest isSign (inductionHypothesis _ (Nat.lt_succ_self _) rest rfl)
          subst isSign
          have split := List.takeWhile_append_dropWhile (p := isWord) (l := rest)
          have areWord : (rest.takeWhile isWord).all isWord = true := List.all_takeWhile
          have ends : (rest.dropWhile isWord).head?.any isWord = false := by
            have notWord := List.head?_dropWhile_not isWord rest
            cases isHead : (rest.dropWhile isWord).head? with
            | none => rfl
            | some character => simpa [isHead] using notWord
          have shorter : (rest.dropWhile isWord).length < ('$' :: rest).length := by
            have most := (List.dropWhile_suffix isWord (l := rest)).length_le
            rw [List.length_cons]
            omega
          have later := inductionHypothesis _ shorter _ rfl
          rw [← split]
          cases isTaken : rest.takeWhile isWord with
          | nil => exact sign _ ends later
          | cons first word => exact name first word _ (isTaken ▸ areWord) ends later

/-- What stands behind a name that is dropped does not go on with a word. -/
theorem dropNames_settles (text : Text) : IsSettled (dropNames text) ∧
    (text.head?.any isWord = false → (dropNames text).head?.any isWord = false) := by
  induction text using names_induction with
  | nil => exact ⟨.nil, fun _ => rfl⟩
  | name first word rest areWord ends inductionHypothesis =>
      rw [dropNames_name areWord ends]
      exact ⟨inductionHypothesis.1, fun _ => inductionHypothesis.2 ends⟩
  | sign rest ends inductionHypothesis =>
      rw [dropNames_sign ends]
      refine ⟨List.isChain_cons.mpr ⟨fun second isSecond _ => ?_, inductionHypothesis.1⟩,
        fun _ => (by decide : isWord '$' = false)⟩
      have notWord := inductionHypothesis.2 ends
      rw [Option.mem_def.mp isSecond] at notWord
      exact notWord
  | other character rest differs inductionHypothesis =>
      rw [dropNames_other differs]
      exact ⟨List.isChain_cons.mpr ⟨fun _ _ isSign => absurd isSign differs, inductionHypothesis.1⟩,
        fun notWord => notWord⟩

theorem dropNames_of_settled {text : Text} (settled : IsSettled text) : dropNames text = text := by
  induction text using names_induction with
  | nil => rfl
  | name first word rest areWord ends _ =>
      rw [List.all_cons, Bool.and_eq_true] at areWord
      exact absurd areWord.1 (by simp [(List.isChain_cons.mp settled).1 first rfl rfl])
  | sign rest ends inductionHypothesis =>
      rw [dropNames_sign ends, inductionHypothesis (List.isChain_cons.mp settled).2]
  | other character rest differs inductionHypothesis =>
      rw [dropNames_other differs, inductionHypothesis (List.isChain_cons.mp settled).2]

theorem dropNames_isUnescaped {front text : Text} (unescaped : IsUnescaped (front ++ text)) :
    IsUnescaped (front ++ dropNames text) := by
  induction text using names_induction generalizing front with
  | nil => exact unescaped
  | name first word rest areWord ends inductionHypothesis =>
      rw [dropNames_name areWord ends]
      exact inductionHypothesis (unescaped.exchange List.not_mem_nil)
  | sign rest ends inductionHypothesis =>
      rw [dropNames_sign ends, List.append_cons]
      exact inductionHypothesis (List.append_cons front _ rest ▸ unescaped)
  | other character rest differs inductionHypothesis =>
      rw [dropNames_other differs, List.append_cons]
      exact inductionHypothesis (List.append_cons front _ rest ▸ unescaped)

section

variable {store : Store} {masked : Bool} {now text : Text}

theorem foldl_of_absent {definitions : List Definition}
    (absent : ∀ definition ∈ definitions, ¬definition.name <:+: text) :
    definitions.foldl (fun current next => replaceAll current next.name next.value) text = text := by
  induction definitions with
  | nil => rfl
  | cons next later inductionHypothesis =>
      rw [List.forall_mem_cons] at absent
      rw [List.foldl_cons, replaceAll_of_absent absent.1, inductionHypothesis absent.2]

theorem foldl_isUnescaped {definitions : List Definition}
    (named : ∀ definition ∈ definitions, isName definition.name = true)
    (lacks : ∀ definition ∈ definitions, '\\' ∉ definition.value) (unescaped : IsUnescaped text) :
    IsUnescaped
      (definitions.foldl (fun current next => replaceAll current next.name next.value) text) := by
  induction definitions generalizing text with
  | nil => exact unescaped
  | cons next later inductionHypothesis =>
      rw [List.forall_mem_cons] at named lacks
      obtain ⟨first, word, isNext, -⟩ := exists_of_isName named.1
      rw [List.foldl_cons]
      refine inductionHypothesis named.2 lacks.2 ?_
      rw [isNext]
      exact @IsUnescaped.replaceAll [] text _ _ unescaped lacks.1

variable (named : ∀ entry ∈ store.values, isName entry.1 = true)
include named

/-- In a settled text there is no name. -/
theorem dropNames_foldl_of_settled (settled : IsSettled text) : dropNames
    ((store.sequence masked now).foldl (fun current next => replaceAll current next.name next.value)
      text) = text := by
  rw [foldl_of_absent, dropNames_of_settled settled]
  intro definition member inside
  obtain ⟨first, word, isName, areWord⟩ :=
    exists_of_isName (sequence_isName named masked now definition member)
  rw [List.all_cons, Bool.and_eq_true] at areWord
  have isChain : IsSettled ('$' :: first :: word) := isName ▸ List.IsChain.infix settled inside
  have notWord := (List.isChain_cons.mp isChain).1 first rfl rfl
  exact Bool.false_ne_true (notWord.symm.trans areWord.1)

/-- In a settled text without escapes, nothing but the form of an escaped dollar sign is replaced. -/
theorem substitute_of_settled (unescaped : IsUnescaped text) (settled : IsSettled text) :
    store.substitute masked now text = replaceAll text escapedDollar "$" := by
  rw [substitute_eq_foldl, replaceAll_of_absent (isUnescaped_iff.mp unescaped),
    dropNames_foldl_of_settled named settled]

/-- A text that has been expanded stays as it is when it is expanded again. -/
theorem expand_idempotent (noBackslash : store.ValuesLack '\\' now)
    (noMarks : store.ValuesLack '\x00' now) (unescaped : ¬"\\$".toList <:+: text)
    (unmarked : '\x00' ∉ text) :
    store.expand now (store.expand now text) = store.expand now text ∧
      store.expandSecret now (store.expandSecret now text) = store.expandSecret now text := by
  have unmarkedAbsent {text : Text} (unmarked : '\x00' ∉ text) : ¬escapedDollar <:+: text :=
    fun inside => unmarked (inside.subset (by decide))
  have twice (masked : Bool) : store.substitute masked now (store.substitute masked now text) =
      store.substitute masked now text := by
    let replaced := (store.sequence masked now).foldl
      (fun current next => replaceAll current next.name next.value) text
    have isUnescaped : IsUnescaped (dropNames replaced) :=
      @dropNames_isUnescaped [] replaced (foldl_isUnescaped (sequence_isName named masked now)
        (noBackslash.sequence (by decide)) (isUnescaped_iff.mpr unescaped))
    have isUnmarked : '\x00' ∉ dropNames replaced :=
      dropNamesFrom_lacks false (foldl_lacks (noMarks.sequence (by decide)) unmarked)
    have once : store.substitute masked now text = dropNames replaced := by
      rw [substitute_eq_foldl, replaceAll_of_absent unescaped,
        replaceAll_of_absent (unmarkedAbsent isUnmarked)]
    rw [once, substitute_of_settled named isUnescaped (dropNames_settles replaced).1,
      replaceAll_of_absent (unmarkedAbsent isUnmarked)]
  exact ⟨twice true, twice false⟩

end

/-- Defined names, unknown ones and bare dollar signs stand side by side. -/
theorem expand_idempotent_crowded :
    greeting.ValuesLack '\\' "2024" ∧ greeting.ValuesLack '\x00' "2024" ∧
      ¬"\\$".toList <:+: "$$t$tango-$$nothere$ $PASS".toList ∧
      greeting.expand "2024" "$$t$tango-$$nothere$ $PASS" = "-$$ ******".toList ∧
      greeting.expand "2024" (greeting.expand "2024" "$$t$tango-$$nothere$ $PASS") =
        greeting.expand "2024" "$$t$tango-$$nothere$ $PASS" := by
  have noBackslash : greeting.ValuesLack '\\' "2024" := ⟨by decide, by decide⟩
  have noMarks : greeting.ValuesLack '\x00' "2024" := ⟨by decide, by decide⟩
  have unescaped : ¬"\\$".toList <:+: "$$t$tango-$$nothere$ $PASS".toList := by decide
  exact ⟨noBackslash, noMarks, unescaped, by decide,
    (expand_idempotent greeting_wellNamed.isName noBackslash noMarks unescaped (by decide)).1⟩

/-- If each dollar sign of a text is escaped, the text is expanded to what it was. -/
theorem expand_escaped {store : Store} (named : ∀ entry ∈ store.values, isName entry.1 = true)
    {text : Text} (unmarked : '\x00' ∉ text) (now : Text) :
    store.expand now (replaceAll text "$" "\\$") = text ∧
      store.expandSecret now (replaceAll text "$" "\\$") = text := by
  have restored (masked : Bool) :
      store.substitute masked now (replaceAll text "$" "\\$") = text := by
    have noSign : '$' ∉ replaceAll text "$" escapedDollar := replaceAll_clears (by decide) text
    rw [substitute_eq_foldl, replaceAll_escapes,
      dropNames_foldl_of_settled named (isSettled_of_lacks noSign), replaceAll_restored unmarked]
  exact ⟨restored true, restored false⟩

/-- The text has names of variables, and backslashes in front of its dollar signs. -/
theorem expand_escaped_names :
    '\x00' ∉ "C:\\$PASS/$t\\\\$".toList ∧
      replaceAll "C:\\$PASS/$t\\\\$" "$" "\\$" = "C:\\\\$PASS/\\$t\\\\\\$".toList ∧
      greeting.expandSecret "2024" (replaceAll "C:\\$PASS/$t\\\\$" "$" "\\$") =
        "C:\\$PASS/$t\\\\$".toList :=
  ⟨by decide, by decide, (expand_escaped greeting_wellNamed.isName (by decide) "2024").2⟩

end Store

end ManagementShell
