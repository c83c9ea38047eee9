import ManagementShell.Proofs.Host
import ManagementShell.Proofs.Masking

/-
This file shows for which credentials the masking of a text hides what a host itself does not show.
-/

namespace ManagementShell
open Text Masking

namespace Masking

/-- The second text is the first one with the password of each credentials masked. -/
inductive Hidden : Text → Text → Prop
  | nil : Hidden [] []
  | passed {character text hidden} (later : Hidden text hidden) :
      Hidden (character :: text) (character :: hidden)
  | credentials {user word text hidden}
      (isUser : ∀ character ∈ user, isUserCharacter character = true)
      (isWord : ∀ character ∈ word, isPasswordCharacter character = true)
      (later : Hidden text hidden) :
      Hidden (user ++ ':' :: (word ++ '@' :: text)) (user ++ ":" ++ mask ++ "@" ++ hidden)

theorem credentials?_eq_some {text user : Text} {length : Nat}
    (isRead : credentials? text = some (user, length)) :
    ∃ word rest, text = user ++ ':' :: (word ++ '@' :: rest) ∧ text.drop length = rest ∧
      0 < length ∧ (∀ character ∈ user, isUserCharacter character = true) ∧
      ∀ character ∈ word, isPasswordCharacter character = true := by
  unfold credentials? at isRead
  dsimp only at isRead
  split at isRead
  · cases isRead
  split at isRead
  · rename_i rest isRest
    split at isRead
    · rename_i word back isCut
      cases isRead
      have wordAndMore : rest.takeWhile isPasswordCharacter = word ++ '@' :: back :=
        eq_of_cutLast? isCut
      have isText : text = text.takeWhile isUserCharacter ++
          ':' :: (word ++ '@' :: (back ++ rest.dropWhile isPasswordCharacter)) := by
        have whole := (List.takeWhile_append_dropWhile (p := isPasswordCharacter) (l := rest)).symm
        rw [wordAndMore, List.append_assoc, List.cons_append] at whole
        rw [← whole, ← isRest, List.takeWhile_append_dropWhile]
      refine ⟨word, back ++ rest.dropWhile isPasswordCharacter, isText, ?_, by omega,
        fun character member => List.mem_takeWhile_imp member, fun character member => ?_⟩
      · generalize text.takeWhile isUserCharacter = user at isText
        have split : text = (user ++ ':' :: (word ++ ['@'])) ++
            (back ++ rest.dropWhile isPasswordCharacter) := by
          rw [isText]
          simp
        rw [split]
        refine List.drop_left' ?_
        simp
        omega
      · have inside : character ∈ rest.takeWhile isPasswordCharacter :=
          wordAndMore ▸ List.mem_append_left _ member
        exact List.mem_takeWhile_imp inside
    · cases isRead
  · cases isRead

/-- The induction is on the length of the text. -/
theorem hidden_hideCredentials (text : Text) : Hidden text (hideCredentials text) := by
  induction isLength : text.length using Nat.strong_induction_on generalizing text with
  | _ length inductionHypothesis =>
  subst isLength
  cases text with
  | nil => exact .nil
  | cons character rest =>
      rw [hideCredentials, hideCredentialsFrom_zero]
      split
      · rename_i user length isRead
        obtain ⟨word, back, isText, isBack, positive, isUser, isWord⟩ := credentials?_eq_some isRead
        have dropped : rest.drop (length - 1) = back := by
          rw [← isBack]
          obtain ⟨most, rfl⟩ := Nat.exists_eq_succ_of_ne_zero (Nat.ne_of_gt positive)
          rfl
        rw [hideCredentialsFrom_skip, dropped, isText]
        refine .credentials isUser isWord (inductionHypothesis _ ?_ back rfl)
        rw [isText]
        simp
        omega
      · exact .passed (inductionHypothesis _ (Nat.lt_succ_self _) rest rfl)

/-- The masking neither takes away nor adds a character that ends a password. -/
theorem Hidden.separators {text hidden : Text} (isHidden : Hidden text hidden) :
    hidden.filter (!isPasswordCharacter ·) = text.filter (!isPasswordCharacter ·) := by
  have none {word : Text} (isWord : ∀ character ∈ word, isPasswordCharacter character = true) :
      word.filter (!isPasswordCharacter ·) = [] := by
    simpa using isWord
  have ofUser {character : Char} (isUser : isUserCharacter character = true) :
      isPasswordCharacter character = true := by
    simp only [isUserCharacter, Bool.not_eq_true', Bool.or_eq_false_iff] at isUser
    simp [isPasswordCharacter, isUser]
  induction isHidden with
  | nil => rfl
  | passed _ inductionHypothesis => rw [List.filter_cons, List.filter_cons, inductionHypothesis]
  | @credentials user word text hidden isUser isWord _ inductionHypothesis =>
      have userKept := none fun character member => ofUser (isUser character member)
      have fixed : ((":" : Text) ++ mask ++ "@").filter (!isPasswordCharacter ·) = [] := by decide
      calc (user ++ ":" ++ mask ++ "@" ++ hidden).filter (!isPasswordCharacter ·)
          = (user ++ ((":" : Text) ++ mask ++ "@") ++ hidden).filter (!isPasswordCharacter ·) := by
            simp only [List.append_assoc]
        _ = text.filter (!isPasswordCharacter ·) := by
            rw [List.filter_append, List.filter_append, userKept, fixed, inductionHypothesis]
            rfl
        _ = (user ++ ([':'] ++ (word ++ (['@'] ++ text)))).filter (!isPasswordCharacter ·) := by
            have marks : ([':'] : Text).filter (!isPasswordCharacter ·) = [] ∧
                (['@'] : Text).filter (!isPasswordCharacter ·) = [] := by decide
            simp only [List.filter_append, userKept, none isWord, marks, List.nil_append]

/-- Where no colon is left, nothing has been masked. -/
theorem Hidden.eq_of_lacks {text hidden : Text} (isHidden : Hidden text hidden)
    (noColon : ':' ∉ hidden) : hidden = text := by
  induction isHidden with
  | nil => rfl
  | passed _ inductionHypothesis =>
      rw [inductionHypothesis fun member => noColon (.tail _ member)]
  | credentials _ _ _ _ => simp at noColon

theorem hideCredentials_of_lacks {text : Text} (noColon : ':' ∉ text) :
    hideCredentials text = text := by
  have isHidden := hidden_hideCredentials text
  generalize hideCredentials text = hidden at isHidden
  induction isHidden with
  | nil => rfl
  | passed _ inductionHypothesis =>
      rw [inductionHypothesis fun member => noColon (.tail _ member)]
  | credentials _ _ _ _ => simp at noColon

/-- Where the text before a colon does not end like a user, no credentials reach past the colon. -/
theorem hideCredentials_foreign {front : Text} {last : Char} (isLast : last ∈ front.getLast?)
    (foreign : isUserCharacter last = false) (noColon : ':' ∉ front) (rest : Text) :
    hideCredentials (front ++ ':' :: rest) = front ++ ':' :: hideCredentials rest := by
  induction front with
  | nil => cases isLast
  | cons character others inductionHypothesis =>
      have stops : ¬∀ other ∈ character :: others, isUserCharacter other = true := by
        intro all
        have isUser := all last (List.mem_of_mem_getLast? isLast)
        rw [foreign] at isUser
        cases isUser
      have none := credentials?_eq_none stops noColon (':' :: rest)
      rw [List.cons_append] at none ⊢
      rw [hideCredentials_passed none]
      cases others with
      | nil =>
          have colon : credentials? (':' :: rest) = Option.none := rfl
          rw [List.nil_append, hideCredentials_passed colon]
          rfl
      | cons second others =>
          rw [List.getLast?_cons_cons] at isLast
          rw [inductionHypothesis isLast fun member => noColon (.tail _ member)]
          rfl

end Masking

/-- What the masking takes from the credentials is their password, if they have one. A password that
is written like the mask looks the same where it is left. -/
def Credentials.AreHidden : Credentials → Prop
  | .absent | .user _ => True
  | .full name word =>
      ((∀ character ∈ name.getLast?, isUserCharacter character = true) ∧
        ∀ character ∈ word, isPasswordCharacter character = true) ∨ word = mask

namespace Host

theorem isValid_of_parse? {text : Text} {host : Host} (parsed : parse? text = some host) :
    IsValid host.name := by
  unfold parse? at parsed
  dsimp only at parsed
  split at parsed
  · split at parsed
    · rename_i valid
      cases parsed
      exact valid
    · cases parsed
  · cases parsed

theorem HasForm.user {name : Text} (form : HasForm (.user name)) : ':' ∉ name := by
  obtain absurdity | ⟨before, written, isRead⟩ := form
  · cases absurdity
  · obtain rfl := List.append_cancel_right written
    unfold credentials? at isRead
    intro member
    obtain ⟨front, back, rfl, absent⟩ := List.eq_append_cons_of_mem member
    have isCut : cut? (front ++ ':' :: back) ":" = some (front, back) := cut?_append absent
    rw [isCut] at isRead
    dsimp only at isRead
    split at isRead <;> cases isRead

theorem HasForm.full {user word : Text} (form : HasForm (.full user word)) :
    user ≠ [] ∧ ':' ∉ user := by
  obtain absurdity | ⟨before, -, isRead⟩ := form
  · cases absurdity
  · unfold credentials? at isRead
    split at isRead
    · rename_i name password isCut
      split at isRead
      · rename_i given
        cases isRead
        exact ⟨given.1, ((cut?_eq_some ':').mp isCut).2⟩
      · cases isRead
    · split at isRead <;> cases isRead

/-- A password that is gone as a whole has no character that ends a password. -/
theorem isPassword_of_same {user word name : Text}
    (same : hideCredentials (user ++ ':' :: (word ++ '@' :: name)) =
      user ++ ':' :: (mask ++ '@' :: name)) :
    ∀ character ∈ word, isPasswordCharacter character = true := by
  have kept := (hidden_hideCredentials (user ++ ':' :: (word ++ '@' :: name))).separators
  have none : mask.filter (!isPasswordCharacter ·) = [] := by decide
  have split (inner : Text) : (user ++ ':' :: (inner ++ '@' :: name)).filter
      (!isPasswordCharacter ·) = user.filter (!isPasswordCharacter ·) ++
        (inner.filter (!isPasswordCharacter ·) ++ name.filter (!isPasswordCharacter ·)) := by
    rw [List.filter_append, List.filter_cons_of_neg (by decide), List.filter_append,
      List.filter_cons_of_neg (by decide)]
  rw [same, split, split, none, List.append_cancel_left_eq, List.nil_append,
    List.self_eq_append_left] at kept
  simpa using kept

/-- The masking of a host with a password shows what the host itself shows if the user ends like one
and nothing in the password ends it, and in no other case but that of the mask as the password. -/
theorem hideCredentials_full_iff {user word name : Text} (given : user ≠ []) (noColon : ':' ∉ user)
    (valid : IsValid name) :
    hideCredentials (user ++ ':' :: (word ++ '@' :: name)) = user ++ ':' :: (mask ++ '@' :: name) ↔
      (Credentials.full user word).AreHidden := by
  have isBack : ∀ character ∈ name, isPasswordCharacter character = true :=
    fun character member => (valid.characters character member).isPasswordCharacter
  have nameStays : hideCredentials name = name := hideCredentials_of_lacks (valid.lacks (by decide))
  have isMask : ∀ character ∈ mask, isPasswordCharacter character = true :=
    List.all_eq_true.mp (by decide)
  by_cases ends : ∀ character ∈ user.getLast?, isUserCharacter character = true
  · constructor
    · intro same
      exact .inl ⟨ends, isPassword_of_same same⟩
    · intro hidden
      have isWord : ∀ character ∈ word, isPasswordCharacter character = true := by
        rcases hidden with ⟨-, isWord⟩ | rfl
        · exact isWord
        · exact isMask
      rw [hideCredentials_append ⟨given, ends, noColon⟩ isWord isBack (valid.lacks (by decide)),
        nameStays]
      simp
  · obtain ⟨last, isLast, foreign⟩ : ∃ last ∈ user.getLast?, isUserCharacter last = false := by
      simpa using ends
    have noColonLeft : ':' ∉ mask ++ '@' :: name := by
      have absent : ':' ∉ name := valid.lacks (by decide)
      exact List.not_mem_append (by decide) (List.not_mem_cons_of_ne_of_not_mem (by decide) absent)
    rw [hideCredentials_foreign isLast foreign noColon, List.append_cancel_left_eq, List.cons_inj_right]
    constructor
    · intro same
      have kept := (hidden_hideCredentials (word ++ '@' :: name)).eq_of_lacks (same ▸ noColonLeft)
      exact .inr (List.append_cancel_right (kept.symm.trans same))
    · rintro (⟨isUser, -⟩ | rfl)
      · exact absurd isUser ends
      · exact hideCredentials_of_lacks noColonLeft

/-- For every host that is read, the masking of its text and the host itself show the same exactly
if the masking finds its credentials, and a text without a password is not changed. -/
theorem hideCredentials_shown_iff {text : Text} {host : Host} (trimmed : Trimmed text)
    (parsed : parse? text = some host) :
    (hideCredentials text = host.shown ↔ host.credentials.AreHidden) ∧
      ((∀ user word, host.credentials ≠ .full user word) → hideCredentials text = text) := by
  obtain ⟨written, form⟩ := parse?_eq_some parsed
  rw [trimmed.trim_eq] at written
  have valid := isValid_of_parse? parsed
  obtain ⟨credentials, name⟩ := host
  have noColon : ':' ∉ name := valid.lacks (by decide)
  cases credentials with
  | absent =>
      have same : hideCredentials text = text := hideCredentials_of_lacks (written ▸ noColon)
      exact ⟨iff_of_true (same.trans written.symm) trivial, fun _ => same⟩
  | user user =>
      have absent : ':' ∉ Credentials.written (.user user) ++ name :=
        List.not_mem_append (List.not_mem_append form.user (by decide)) noColon
      have same : hideCredentials text = text := hideCredentials_of_lacks (written ▸ absent)
      exact ⟨iff_of_true (same.trans written.symm) trivial, fun _ => same⟩
  | full user word =>
      obtain ⟨given, absent⟩ := form.full
      refine ⟨?_, fun none => absurd rfl (none user word)⟩
      have isText : text = user ++ ':' :: (word ++ '@' :: name) :=
        written.symm.trans (written_full user word name)
      have isShown : Host.shown ⟨.full user word, name⟩ = user ++ ':' :: (mask ++ '@' :: name) := by
        simp [Host.shown, Credentials.shown]
      rw [isText, isShown]
      exact hideCredentials_full_iff given absent valid

/-- This password has both characters in it that the credentials are cut at. -/
theorem hideCredentials_shown_iff_signs :
    let text : Text := "a@b:p@ss:w0rd@10.0.0.1"
    let host : Host := ⟨.full "a@b" "p@ss:w0rd", "10.0.0.1"⟩
    parse? text = some host ∧ host.credentials.AreHidden ∧
      hideCredentials text = "a@b:******@10.0.0.1" := by
  intro text host
  have parsed : parse? text = some host := by decide
  have isTrimmed : trim text = text := by decide
  have trimmed : Trimmed text := isTrimmed ▸ trimmed_trim text
  have isUser : ∀ character ∈ ("a@b" : Text).getLast?, isUserCharacter character = true := by
    rintro character ⟨⟩
    decide
  have isWord : ∀ character ∈ ("p@ss:w0rd" : Text), isPasswordCharacter character = true :=
    List.all_eq_true.mp (by decide)
  have hidden : host.credentials.AreHidden := .inl ⟨isUser, isWord⟩
  exact ⟨parsed, hidden, (hideCredentials_shown_iff trimmed parsed).1.mpr hidden⟩

/-- A password with a blank in it is not masked, and neither is one behind a user that ends with an
at-sign. -/
theorem hideCredentials_reveals :
    let blank : Text := "root:pa ss@10.0.0.1"
    let sign : Text := "root@:pass@10.0.0.1"
    (trim blank = blank ∧ (parse? blank).map shown = some ("root:******@10.0.0.1" : Text) ∧
      hideCredentials blank = blank) ∧
    trim sign = sign ∧ (parse? sign).map shown = some ("root@:******@10.0.0.1" : Text) ∧
      hideCredentials sign = sign := by
  decide

end Host

end ManagementShell
