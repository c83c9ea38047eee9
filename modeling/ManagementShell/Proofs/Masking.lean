import ManagementShell.Masking
import ManagementShell.Proofs.Text.Cut
import ManagementShell.Proofs.Text.Replace
import ManagementShell.Text.Quoting
import Mathlib.Data.List.TakeWhile

/-
This file shows in which texts the masking hides a character of a secret: in those that hold the
secret only as a whole. Of the credentials in front of a host it hides the password, whatever that is.
-/

namespace ManagementShell.Masking
open Text

/-- The text is made of copies of the secret and of characters other than the given one. -/
inductive Whole (c : Char) (secret : Text) : Text → Prop
  | nil : Whole c secret []
  | plain {character rest} (differs : character ≠ c) (whole : Whole c secret rest) :
      Whole c secret (character :: rest)
  | copy {rest} (whole : Whole c secret rest) : Whole c secret (secret ++ rest)

variable {c : Char} {secret text : Text}

theorem Whole.append {other : Text} (first : Whole c secret text) (second : Whole c secret other) :
    Whole c secret (text ++ other) := by
  induction first with
  | nil => exact second
  | plain differs _ inductionHypothesis => exact .plain differs inductionHypothesis
  | copy _ inductionHypothesis =>
      rw [List.append_assoc]
      exact .copy inductionHypothesis

theorem Whole.itself : Whole c secret secret := by
  have copied : Whole c secret (secret ++ []) := .copy .nil
  rwa [List.append_nil] at copied

theorem whole_of_lacks (lacks : c ∉ text) : Whole c secret text := by
  induction text with
  | nil => exact .nil
  | cons character rest inductionHypothesis =>
      rw [List.mem_cons, not_or] at lacks
      exact .plain (Ne.symm lacks.1) (inductionHypothesis lacks.2)

theorem Whole.lacks (whole : Whole c secret text) (free : c ∉ secret) : c ∉ text := by
  induction whole with
  | nil => exact List.not_mem_nil
  | plain differs _ inductionHypothesis => simp [Ne.symm differs, inductionHypothesis]
  | copy _ inductionHypothesis => simp [free, inductionHypothesis]

/-- The characters up to the first occurrence of a character determine the split there. -/
theorem split_unique {front before back after : Text} (same : front ++ c :: back = before ++ c :: after)
    (first : c ∉ front) (firstToo : c ∉ before) : front = before ∧ back = after := by
  induction front generalizing before with
  | nil =>
      cases before with
      | nil => exact ⟨rfl, (List.cons.inj same).2⟩
      | cons character rest =>
          have head := (List.cons.inj same).1
          simp [head] at firstToo
  | cons character rest inductionHypothesis =>
      rw [List.mem_cons, not_or] at first
      cases before with
      | nil => exact absurd (List.cons.inj same).1 (Ne.symm first.1)
      | cons other others =>
          obtain ⟨rfl, tail⟩ := List.cons.inj same
          rw [List.mem_cons, not_or] at firstToo
          obtain ⟨rfl, rfl⟩ := inductionHypothesis tail first.2 firstToo.2
          exact ⟨rfl, rfl⟩

/-- The first occurrence of the character is the one in a copy of the secret. -/
theorem Whole.first_copy {front back before after : Text}
    (whole : Whole c (front ++ c :: back) text) (first : c ∉ front)
    (isText : text = before ++ c :: after) (firstToo : c ∉ before) :
    ∃ lead rest, before = lead ++ front ∧ after = back ++ rest ∧
      Whole c (front ++ c :: back) rest := by
  induction whole generalizing before with
  | nil => simp at isText
  | plain differs _ inductionHypothesis =>
      cases before with
      | nil => exact absurd (List.cons.inj isText).1 differs
      | cons character others =>
          obtain ⟨rfl, tail⟩ := List.cons.inj isText
          rw [List.mem_cons, not_or] at firstToo
          obtain ⟨lead, rest, rfl, rfl, later⟩ := inductionHypothesis tail firstToo.2
          exact ⟨_ :: lead, rest, rfl, rfl, later⟩
  | @copy rest whole =>
      rw [List.append_assoc, List.cons_append] at isText
      obtain ⟨rfl, rfl⟩ := split_unique isText first firstToo
      exact ⟨[], rest, rfl, rfl, whole⟩

/-- A copy at the beginning of a whole text is no part of other copies. -/
theorem Whole.rest {rest : Text} (whole : Whole c secret (secret ++ rest)) (member : c ∈ secret) :
    Whole c secret rest := by
  obtain ⟨front, back, rfl, first⟩ := List.eq_append_cons_of_mem member
  obtain ⟨lead, later, isFront, isBack, wholeLater⟩ :=
    whole.first_copy first (List.append_assoc _ _ _) first
  rwa [List.append_cancel_left isBack]

theorem Whole.cases_cons {character : Char} {rest : Text}
    (whole : Whole c secret (character :: rest)) :
    (character ≠ c ∧ Whole c secret rest) ∨ secret <+: character :: rest := by
  generalize isText : character :: rest = text at whole
  cases whole with
  | nil => cases isText
  | plain differs later =>
      cases isText
      exact .inl ⟨differs, later⟩
  | copy later => exact .inr (List.prefix_append _ _)

theorem drop_copy {character : Char} {rest others : Text} (nonempty : secret ≠ [])
    (same : secret ++ others = character :: rest) : rest.drop (secret.length - 1) = others := by
  obtain ⟨first, tail, rfl⟩ := List.exists_cons_of_ne_nil nonempty
  obtain ⟨rfl, rfl⟩ := List.cons.inj same
  exact List.drop_left

/-- The number `skip` counts the characters that the replacement has gone past. -/
theorem Whole.replaceFrom_lacks (free : c ∉ mask) (member : c ∈ secret) (skip : Nat)
    (whole : Whole c secret (text.drop skip)) : c ∉ replaceFrom secret mask skip text := by
  induction text generalizing skip with
  | nil => simp [replaceFrom]
  | cons character rest inductionHypothesis =>
      cases skip with
      | succ skip => exact inductionHypothesis skip whole
      | zero =>
          rw [List.drop_zero] at whole
          unfold replaceFrom
          split
          · rename_i begins
            obtain ⟨others, same⟩ := List.isPrefixOf_iff_prefix.mp begins
            rw [← same] at whole
            have later := whole.rest member
            rw [← drop_copy (List.ne_nil_of_mem member) same] at later
            simp [free, inductionHypothesis _ later]
          · rename_i differs
            rcases whole.cases_cons with ⟨plain, later⟩ | begins
            · simp [Ne.symm plain, inductionHypothesis 0 later]
            · exact absurd (List.isPrefixOf_iff_prefix.mpr begins) differs

theorem whole_of_replaceFrom_lacks (skip : Nat) (nonempty : secret ≠ [])
    (lacks : c ∉ replaceFrom secret mask skip text) : Whole c secret (text.drop skip) := by
  induction text generalizing skip with
  | nil =>
      rw [List.drop_nil]
      exact .nil
  | cons character rest inductionHypothesis =>
      cases skip with
      | succ skip => exact inductionHypothesis skip lacks
      | zero =>
          unfold replaceFrom at lacks
          split at lacks
          · rename_i begins
            obtain ⟨others, same⟩ := List.isPrefixOf_iff_prefix.mp begins
            rw [List.drop_zero, ← same, ← drop_copy nonempty same]
            exact .copy (inductionHypothesis _ fun member => lacks (List.mem_append_right _ member))
          · rw [List.mem_cons, not_or] at lacks
            exact .plain (Ne.symm lacks.1) (inductionHypothesis 0 lacks.2)

/-- The masked text lacks the character where, and only where, the text holds the secret whole. -/
theorem hideSecret_lacks_iff (free : c ∉ mask) :
    c ∉ hideSecret secret text ↔ Whole c secret text := by
  unfold hideSecret
  split
  · rename_i empty
    exact ⟨whole_of_lacks, fun whole => whole.lacks (empty ▸ List.not_mem_nil)⟩
  · rename_i nonempty
    constructor
    · exact whole_of_replaceFrom_lacks 0 nonempty
    · intro whole
      by_cases member : c ∈ secret
      · exact whole.replaceFrom_lacks free member 0
      · exact replaceAll_lacks free (whole.lacks member)

/-- A password that is masked in a text is also masked beside other texts. -/
theorem Whole.join {separator : Text} {parts : List Text} (free : c ∉ separator)
    (whole : ∀ part ∈ parts, Whole c secret part) : Whole c secret (Text.join separator parts) := by
  unfold Text.join
  induction parts with
  | nil => exact .nil
  | cons first rest inductionHypothesis =>
      simp only [List.mem_cons, forall_eq_or_imp] at whole
      cases rest with
      | nil => simpa using whole.1
      | cons second others =>
          rw [List.intercalate_cons_cons]
          exact (whole.1.append (whole_of_lacks free)).append (inductionHypothesis whole.2)

theorem Whole.flatten {parts : List Text} (whole : ∀ part ∈ parts, Whole c secret part) :
    Whole c secret parts.flatten := by
  induction parts with
  | nil => exact .nil
  | cons first rest inductionHypothesis =>
      simp only [List.mem_cons, forall_eq_or_imp] at whole
      exact whole.1.append (inductionHypothesis whole.2)

theorem Whole.flatMap {α : Type} {entries : List α} {write : α → Text}
    (whole : ∀ entry ∈ entries, Whole c secret (write entry)) :
    Whole c secret (entries.flatMap write) := by
  rw [List.flatMap_def]
  refine Whole.flatten fun part member => ?_
  obtain ⟨entry, isEntry, rfl⟩ := List.mem_map.mp member
  exact whole entry isEntry

/-- Quoting leaves the copies of a secret alone if there is no quotation mark in it. -/
theorem Whole.quote {word : Text} (fresh : Fresh c) (unquoted : '\'' ∉ secret)
    (whole : Whole c secret word) : Whole c secret (Text.quote word) := by
  have replaced : Whole c secret (word.replaceAll ['\''] "'\\''") := by
    induction whole with
    | nil => exact .nil
    | @plain character rest differs _ inductionHypothesis =>
        by_cases isMark : character = '\''
        · rw [isMark, replaceAll_found]
          exact (whole_of_lacks (fresh.literal (by decide))).append inductionHypothesis
        · rw [replaceAll_passed isMark]
          exact .plain differs inductionHypothesis
    | @copy rest _ inductionHypothesis =>
        rw [replaceAll_append unquoted]
        exact .copy inductionHypothesis
  have mark : c ∉ ("'" : Text) := fresh.literal (by decide)
  unfold Text.quote quoted
  split
  · exact ((whole_of_lacks mark).append replaced).append (whole_of_lacks mark)
  · exact whole

theorem Whole.unwords {words : List Text} (fresh : Fresh c) (unquoted : '\'' ∉ secret)
    (whole : ∀ word ∈ words, Whole c secret word) : Whole c secret (Text.unwords words) := by
  apply Whole.join (fresh.literal (by decide))
  intro part member
  obtain ⟨word, isWord, rfl⟩ := List.mem_map.mp member
  exact (whole word isWord).quote fresh unquoted

theorem unwords_lacks {words : List Text} (fresh : Fresh c) (lacks : ∀ word ∈ words, c ∉ word) :
    c ∉ Text.unwords words :=
  have whole : Whole c [] (Text.unwords words) :=
    .unwords fresh List.not_mem_nil fun word member => whole_of_lacks (lacks word member)
  whole.lacks List.not_mem_nil

theorem credentials_lacks {user : Text} {length : Nat}
    (isCredentials : credentials? text = some (user, length)) (lacks : c ∉ text) : c ∉ user := by
  unfold credentials? at isCredentials
  dsimp only at isCredentials
  have isUser : user = text.takeWhile isUserCharacter := by
    grind
  rw [isUser]
  exact fun member => lacks (List.takeWhile_subset _ member)

theorem hideCredentialsFrom_nil (skip : Nat) : hideCredentialsFrom skip [] = [] := by
  cases skip <;> rfl

theorem hideCredentialsFrom_succ (skip : Nat) (character : Char) (rest : Text) :
    hideCredentialsFrom (skip + 1) (character :: rest) = hideCredentialsFrom skip rest := rfl

-- Lean would evaluate the search for credentials on a text that it does not know.
seal credentials? in
theorem hideCredentialsFrom_zero (character : Char) (rest : Text) :
    hideCredentialsFrom 0 (character :: rest) = match credentials? (character :: rest) with
      | some (user, length) => user ++ ":" ++ mask ++ "@" ++ hideCredentialsFrom (length - 1) rest
      | none => character :: hideCredentialsFrom 0 rest := rfl

theorem hideCredentialsFrom_lacks (fresh : Fresh c) (skip : Nat) (lacks : c ∉ text) :
    c ∉ hideCredentialsFrom skip text := by
  induction text generalizing skip with
  | nil =>
      rw [hideCredentialsFrom_nil]
      exact List.not_mem_nil
  | cons character rest inductionHypothesis =>
      have tail : c ∉ rest := fun member => lacks (.tail _ member)
      cases skip with
      | succ skip =>
          rw [hideCredentialsFrom_succ]
          exact inductionHypothesis skip tail
      | zero =>
          rw [hideCredentialsFrom_zero]
          split
          · rename_i user length isCredentials
            have fixed : c ∉ (":" : Text) ++ mask ++ "@" := fresh.lacks (by decide)
            simp only [List.mem_append, not_or] at fixed ⊢
            exact ⟨⟨⟨⟨credentials_lacks isCredentials lacks, fixed.1.1⟩, fixed.1.2⟩, fixed.2⟩,
              inductionHypothesis _ tail⟩
          · rw [List.mem_cons, not_or] at lacks ⊢
            exact ⟨lacks.1, inductionHypothesis 0 tail⟩

theorem hideCredentials_lacks (fresh : Fresh c) (lacks : c ∉ text) : c ∉ hideCredentials text :=
  hideCredentialsFrom_lacks fresh 0 lacks

/-- Past credentials that are hidden, the rest of the text is. -/
theorem hideCredentialsFrom_skip (skip : Nat) (text : Text) :
    hideCredentialsFrom skip text = hideCredentials (text.drop skip) := by
  induction text generalizing skip with
  | nil => rw [List.drop_nil, hideCredentials, hideCredentialsFrom_nil, hideCredentialsFrom_nil]
  | cons character rest inductionHypothesis =>
      cases skip with
      | zero => rfl
      | succ skip => exact inductionHypothesis skip

/-- No credentials begin with a text that a user ends in, unless a colon stands behind the user. -/
theorem credentials?_eq_none {front : Text}
    (stops : ¬∀ character ∈ front, isUserCharacter character = true) (noColon : ':' ∉ front)
    (rest : Text) : credentials? (front ++ rest) = none := by
  have given : front.dropWhile isUserCharacter ≠ [] := fun empty =>
    stops (List.dropWhile_eq_nil_iff.mp empty)
  obtain ⟨stop, others, isStop⟩ := List.exists_cons_of_ne_nil given
  have inside : stop ∈ front := List.dropWhile_subset _ (isStop ▸ List.mem_cons_self)
  have differs : stop ≠ ':' := fun same => noColon (same ▸ inside)
  have after : (front ++ rest).dropWhile isUserCharacter = stop :: (others ++ rest) := by
    rw [List.dropWhile_append, isStop]
    rfl
  unfold credentials?
  simp only [after]
  split
  · rfl
  · split
    · rename_i isColon
      cases isColon
      exact absurd rfl differs
    · rfl

theorem hideCredentials_passed {character : Char} {rest : Text}
    (none : credentials? (character :: rest) = none) :
    hideCredentials (character :: rest) = character :: hideCredentials rest := by
  rw [hideCredentials, hideCredentialsFrom_zero, none, hideCredentials]

/-- The text ends with a character of a user, and no colon stands in it. -/
structure EndsWithUser (text : Text) : Prop where
  nonempty : text ≠ []
  last : ∀ character ∈ text.getLast?, isUserCharacter character = true
  noColon : ':' ∉ text

/-- The password in front of the only at-sign is hidden, whatever it is, and the text before it is
not. -/
theorem hideCredentials_append {front word back : Text} (ends : EndsWithUser front)
    (isWord : ∀ character ∈ word, isPasswordCharacter character = true)
    (isBack : ∀ character ∈ back, isPasswordCharacter character = true) (noSign : '@' ∉ back) :
    hideCredentials (front ++ ':' :: (word ++ '@' :: back)) =
      front ++ ":" ++ mask ++ "@" ++ hideCredentials back := by
  induction front with
  | nil => exact absurd rfl ends.nonempty
  | cons character rest inductionHypothesis =>
      rw [hideCredentials, List.cons_append, hideCredentialsFrom_zero]
      by_cases all : ∀ other ∈ character :: rest, isUserCharacter other = true
      · have user : (character :: (rest ++ ':' :: (word ++ '@' :: back))).takeWhile isUserCharacter =
            character :: rest := by
          rw [← List.cons_append, List.takeWhile_append_of_pos all,
            List.takeWhile_cons_of_neg (by decide), List.append_nil]
        have after : (character :: (rest ++ ':' :: (word ++ '@' :: back))).dropWhile isUserCharacter =
            ':' :: (word ++ '@' :: back) := by
          rw [← List.cons_append, List.dropWhile_append_of_pos all,
            List.dropWhile_cons_of_neg (by decide)]
        have whole : (word ++ '@' :: back).takeWhile isPasswordCharacter = word ++ '@' :: back := by
          refine List.takeWhile_eq_self_iff.mpr fun other member => ?_
          rcases List.mem_append.mp member with inWord | inBack
          · exact isWord other inWord
          · rcases List.mem_cons.mp inBack with rfl | inRest
            · rfl
            · exact isBack other inRest
        have found : credentials? (character :: (rest ++ ':' :: (word ++ '@' :: back))) =
            some (character :: rest, (character :: rest).length + word.length + 2) := by
          unfold credentials?
          dsimp only
          simp only [user, after, if_neg (List.cons_ne_nil _ _), whole, cutLast?_append noSign]
        have skipped : (rest ++ ':' :: (word ++ '@' :: back)).drop
            ((character :: rest).length + word.length + 2 - 1) = back := by
          have length : (character :: rest).length + word.length + 2 - 1 =
              (rest ++ ':' :: (word ++ ['@'])).length := by simp; omega
          rw [length]
          convert List.drop_left using 2
          simp
        rw [found]
        simp only [hideCredentialsFrom_skip, skipped]
      · have noColon : ':' ∉ character :: rest := ends.noColon
        have none := credentials?_eq_none all noColon (':' :: (word ++ '@' :: back))
        rw [List.cons_append] at none
        have given : rest ≠ [] := by
          rintro rfl
          refine all fun other member => ?_
          rw [List.mem_singleton] at member
          exact ends.last other (member ▸ rfl)
        have endsToo : EndsWithUser rest := by
          refine ⟨given, fun other isLast => ends.last other ?_,
            fun member => ends.noColon (.tail _ member)⟩
          rwa [List.getLast?_cons_of_ne_nil given]
        rw [none]
        simp only [List.cons_append]
        exact congrArg (character :: ·) (inductionHypothesis endsToo)

/-- The secret is hidden on both sides of a character that it lacks. -/
theorem hideSecret_separated {separator : Char} (absent : separator ∉ secret) (front back : Text) :
    hideSecret secret (front ++ separator :: back) =
      hideSecret secret front ++ separator :: hideSecret secret back := by
  unfold hideSecret
  split
  · rfl
  · rename_i nonempty
    exact replaceAll_separated nonempty absent mask front back

theorem hideSecret_subset (secret text : Text) : hideSecret secret text ⊆ text ++ mask := by
  unfold hideSecret
  split
  · exact List.subset_append_left text mask
  · exact replaceAll_subset secret mask text

theorem mask_last : ∀ character ∈ mask.getLast?, isUserCharacter character = true := by
  intro character isLast
  cases (rfl : mask.getLast? = some '*').symm.trans isLast
  rfl

theorem EndsWithUser.hideSecret {front : Text} (ends : EndsWithUser front) (secret : Text) :
    EndsWithUser (hideSecret secret front) := by
  have lacks : ':' ∉ Masking.hideSecret secret front := fun member =>
    (List.mem_append.mp (hideSecret_subset secret front member)).elim ends.noColon (by decide)
  refine ⟨?_, ?_, lacks⟩
  · unfold Masking.hideSecret
    split
    · exact ends.nonempty
    · exact replaceAll_ne_nil (by decide) ends.nonempty
  · unfold Masking.hideSecret
    split
    · exact ends.last
    · exact replaceFrom_last (by decide) mask_last 0 ends.last

/-- Both maskers together hide the password in front of a host, whatever it is, if neither of the
characters around it is in the secret. -/
theorem hideCredentials_hideSecret {front word back : Text} (noColon : ':' ∉ secret)
    (noSign : '@' ∉ secret) (ends : EndsWithUser front)
    (isWord : ∀ character ∈ word, isPasswordCharacter character = true)
    (isBack : ∀ character ∈ back, isPasswordCharacter character = true) (single : '@' ∉ back) :
    hideCredentials (hideSecret secret (front ++ ':' :: (word ++ '@' :: back))) =
      hideSecret secret front ++ ":" ++ mask ++ "@" ++ hideCredentials (hideSecret secret back) := by
  have hidden {text : Text} (isText : ∀ character ∈ text, isPasswordCharacter character = true) :
      ∀ character ∈ hideSecret secret text, isPasswordCharacter character = true := by
    intro character member
    rcases List.mem_append.mp (hideSecret_subset secret text member) with inText | inMask
    · exact isText character inText
    · have all : mask.all isPasswordCharacter = true := by decide
      exact List.all_eq_true.mp all character inMask
  have singleToo : '@' ∉ hideSecret secret back := fun member =>
    (List.mem_append.mp (hideSecret_subset secret back member)).elim single (by decide)
  rw [hideSecret_separated noColon, hideSecret_separated noSign]
  exact hideCredentials_append (ends.hideSecret secret) (hidden isWord) (hidden isBack) singleToo

end ManagementShell.Masking
