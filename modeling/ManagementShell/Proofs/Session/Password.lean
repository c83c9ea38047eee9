import ManagementShell.Proofs.Command.Setting
import ManagementShell.Proofs.Host
import ManagementShell.Proofs.Masking
import ManagementShell.Proofs.Session.Course
import ManagementShell.Proofs.Session.Nesting
import ManagementShell.Proofs.Variable.Settled

/-
This file shows that a line that sets a password shows it in its echo only, and in which echoes it
is hidden.
-/

namespace ManagementShell
open Text Masking

namespace Store
open Variable

variable {store : Store} {masked : Bool} {now text : Text}

/-- In a text without a dollar sign, nothing but the form of an escaped one is replaced. -/
theorem substitute_of_lacks (named : store.WellNamed) (noSign : '$' ∉ text) :
    store.substitute masked now text = replaceAll text escapedDollar "$" := by
  have unescaped : ¬"\\$".toList <:+: text := fun inside =>
    noSign (inside.subset (by decide : '$' ∈ "\\$".toList))
  exact substitute_of_settled named.isName (isUnescaped_iff.mpr unescaped) (isSettled_of_lacks noSign)

end Store

namespace Session
open Variable

variable {σ : Type}

/-- A word of a command line that can be a password. -/
structure IsSecret (word : Text) : Prop where
  nonempty : word ≠ []
  plain : IsPlain word
  noComma : ',' ∉ word
  noSign : '$' ∉ word

theorem IsSecret.password {word : Text} (isSecret : IsSecret word) :
    ∀ character ∈ word, isPasswordCharacter character = true := by
  intro character member
  have visible := isBlank_of_isPlain (isSecret.plain character member)
  have other : character ≠ ',' := fun same => isSecret.noComma (same ▸ member)
  simp [isPasswordCharacter, visible, other]

/-- A word of a command line that can stand in front of a password. -/
structure IsUser (user : Text) : Prop where
  ends : EndsWithUser user
  plain : IsPlain user
  noSign : '$' ∉ user

/-- The lines that set a password. -/
inductive Spelling where
  | keyword
  | shorthand
  | host (user address : Text)

namespace Spelling

/-- The user and the host of the line are well-formed. -/
def Valid : Spelling → Prop
  | .keyword | .shorthand => True
  | .host user address => IsUser user ∧ Host.IsValid address

def name : Spelling → Text
  | .keyword | .shorthand => Variable.password
  | .host _ _ => Variable.host

def value : Spelling → Text → Text
  | .keyword, word | .shorthand, word => word
  | .host user address, word => user ++ ':' :: (word ++ '@' :: address)

def line (spelling : Spelling) (word : Text) : Text :=
  match spelling with
  | .keyword | .host _ _ => "Set" ++ ' ' :: (spelling.name ++ ' ' :: spelling.value word)
  | .shorthand => Variable.password ++ '=' :: word

/-- The store in which the word is the password. A form of the escaped dollar sign in the texts of the
line is one. -/
def store (spelling : Spelling) (before : Store) (word : Text) : Store :=
  let secret := Value.text (replaceAll word Store.escapedDollar "$")
  match spelling with
  | .keyword | .shorthand => before.put Variable.password secret
  | .host user address =>
      ((before.put login (.text (replaceAll user Store.escapedDollar "$"))).put Variable.password
        secret).put Variable.host (.text address)

/-- The line sets a password unless it is the path of a script. -/
def Sets (isScript : Text → Bool) (spelling : Spelling) (word : Text) : Prop :=
  IsSecret word ∧ (spelling = .shorthand →
    ¬(endsWith (spelling.line word) ".win" = true ∧ isScript (spelling.line word) = true))

/-- The echo of the line is left out, or hides the password: the password in front of a host is hidden
where the current one does not have the characters around it. -/
def Hides (spelling : Spelling) (store : Store) : Prop :=
  store.verbosityLevel ≤ callLevel ∨
    match spelling with
    | .keyword | .shorthand => False
    | .host _ _ => ':' ∉ store.passwordText ∧ '@' ∉ store.passwordText

end Spelling

theorem plain_of_isHostCharacter {character : Char} (isHost : Host.IsHostCharacter character) :
    isPlain character = true := isHost.check isPlain (by decide)

section

variable {spelling : Spelling} {word : Text} {isScript : Text → Bool}

theorem isWord_password : IsWord Variable.password := ⟨by decide, '$', _, rfl, by decide⟩

theorem isWord_host : IsWord Variable.host := ⟨by decide, '$', _, rfl, by decide⟩

theorem Spelling.value_plain (valid : spelling.Valid) (isSecret : IsSecret word) :
    IsPlain (spelling.value word) ∧ spelling.value word ≠ [] ∧ '$' ∉ spelling.value word := by
  cases spelling with
  | keyword => exact ⟨isSecret.plain, isSecret.nonempty, isSecret.noSign⟩
  | shorthand => exact ⟨isSecret.plain, isSecret.nonempty, isSecret.noSign⟩
  | host user address =>
      obtain ⟨isUser, isHost⟩ := valid
      have plain : IsPlain address := fun character member =>
        plain_of_isHostCharacter (isHost.characters character member)
      have noSign : '$' ∉ address := isHost.lacks (by decide)
      refine ⟨isUser.plain.append (isPlain_cons rfl (isSecret.plain.append (isPlain_cons rfl plain))),
        List.append_ne_nil_of_right_ne_nil _ (List.cons_ne_nil _ _), ?_⟩
      simp [Spelling.value, isUser.noSign, isSecret.noSign, noSign]

/-- Every spelling is read as the assignment that it stands for. -/
theorem Spelling.read (valid : spelling.Valid) (sets : spelling.Sets isScript word) :
    Line.read isScript (spelling.line word) =
      .ok ⟨false, .assign spelling.name (spelling.value word)⟩ := by
  obtain ⟨plain, nonempty, -⟩ := Spelling.value_plain valid sets.1
  cases spelling with
  | keyword =>
      exact Command.read_set isScript isWord_password (by decide) plain nonempty
  | shorthand =>
      exact Command.read_setShorthand isScript isWord_password.plain ⟨_, rfl, by decide⟩ (by decide)
        (by decide) plain nonempty (sets.2 rfl)
  | host user address =>
      have noOption : toLower Variable.host ≠ "/a" := by decide
      exact Command.read_set isScript isWord_host noOption plain nonempty

/-- No value of a spelling breaks a rule of its variable. -/
theorem Spelling.set (before : Store) (valid : spelling.Valid) (isSecret : IsSecret word) :
    before.set spelling.name (replaceAll (spelling.value word) Store.escapedDollar "$") =
      .ok (spelling.store before word, []) := by
  cases spelling with
  | keyword => rfl
  | shorthand => rfl
  | host user address =>
      have plain := (Spelling.value_plain valid isSecret).1
      obtain ⟨isUser, isHost⟩ := valid
      have mark : Store.escapedDollar ≠ [] := by decide
      have unmarked : ¬Store.escapedDollar <:+: address := fun inside =>
        isHost.lacks (by decide) (inside.subset (by decide : '\x00' ∈ Store.escapedDollar))
      have noColon : ':' ∉ replaceAll user Store.escapedDollar "$" :=
        replaceAll_lacks (by decide) isUser.ends.noColon
      have stillPlain : IsPlain (replaceAll (Spelling.value (.host user address) word)
          Store.escapedDollar "$") := fun character member =>
        (plain.append (by decide)) character (replaceAll_subset _ _ _ member)
      have split : replaceAll (Spelling.value (.host user address) word) Store.escapedDollar "$" =
          replaceAll user Store.escapedDollar "$" ++ ':' ::
            (replaceAll word Store.escapedDollar "$" ++ '@' :: address) := by
        rw [Spelling.value, replaceAll_separated mark (by decide),
          replaceAll_separated mark (by decide), replaceAll_of_absent unmarked]
      have parses := Host.parse?_full (replaceAll_ne_nil (by decide) isUser.ends.nonempty) noColon
        (replaceAll_ne_nil (by decide) isSecret.nonempty) isHost (split ▸ stillPlain.trimmed)
      have writable : Store.checkWritable Variable.host = .ok () := rfl
      rw [split, Spelling.name, Store.set, writable]
      dsimp only
      rw [Store.assign, if_pos rfl, Store.setHost, parses]
      rfl

end

/-- The session after the echo of a line; at a low verbosity there is none. -/
def afterEcho (setting : Setting σ) (text : Text) (session : Session σ) : Session σ :=
  if callLevel < session.store.verbosityLevel then
    session.addEvent (.screen (setting.clock.stamp (session.time setting.clock) ++ ": " ++
      hideCredentials (session.store.hidePassword (trim text)) ++ "\n"))
  else session

theorem afterEcho_store (setting : Setting σ) (text : Text) (session : Session σ) :
    (session.afterEcho setting text).store = session.store := by
  unfold afterEcho
  split
  · rfl
  · rfl

section

variable {setting : Setting σ} {spelling : Spelling} {session : Session σ}

/-- Without warnings, an assignment changes the store and nothing else. -/
theorem execute_assign (setting : Setting σ) (calls : Nat) (runFrame : Frame → Action σ Bool)
    {name value : Text} {changed : Store}
    (sets : session.store.set name (session.store.expand (session.date setting.clock) value) =
      .ok (changed, [])) :
    execute setting calls runFrame (.assign name value) session =
      .ok true { session with store := changed } := by
  have assigns : assign name (session.store.expand (session.date setting.clock) value) session =
      .ok () { session with store := changed } := by
    rw [assign, get_bind, sets]
    rfl
  have expands : expand setting value session =
      .ok (session.store.expand (session.date setting.clock) value) session := rfl
  rw [execute, bind_of_eq_ok expands]
  exact bind_of_eq_ok assigns _

/-- After its echo, a line that sets a password changes the store and nothing else. -/
theorem Spelling.runs (bound : Nat) (named : session.store.WellNamed) (valid : spelling.Valid)
    {word : Text} (sets : spelling.Sets session.connection.files.isFile word) :
    runLine setting bound (spelling.line word) session =
      .ok true { session.afterEcho setting (spelling.line word) with
        store := spelling.store session.store word } := by
  obtain ⟨-, -, noSign⟩ := Spelling.value_plain valid sets.1
  have reads := Spelling.read valid sets
  have echoes : onlyIf (!(Command.assign spelling.name (spelling.value word)).isNothing ∧
      callLevel < session.store.verbosityLevel) (echo setting (spelling.line word)) session =
        .ok () (session.afterEcho setting (spelling.line word)) := by
    simp only [Command.isNothing, Bool.not_false, true_and, onlyIf, afterEcho]
    split
    · rfl
    · rfl
  generalize isReady : session.afterEcho setting (spelling.line word) = ready at echoes
  have same : ready.store = session.store := isReady ▸ afterEcho_store setting _ session
  have assigns := Spelling.set ready.store valid sets.1
  have expanded : ready.store.expand (ready.date setting.clock) (spelling.value word) =
      replaceAll (spelling.value word) Store.escapedDollar "$" :=
    Store.substitute_of_lacks (same ▸ named) noSign
  rw [← expanded] at assigns
  have executes := execute_assign setting bound (runFrame setting bound) assigns
  rw [runLine_of_read reads echoes, settle, executes, same]

/-- The password in front of a host is hidden with the current one. -/
theorem hidden_host {store : Store} {user address word : Text} (isUser : IsUser user)
    (isHost : Host.IsValid address) (isSecret : IsSecret word) (noColon : ':' ∉ store.passwordText)
    (noSign : '@' ∉ store.passwordText) :
    hideCredentials (store.hidePassword (trim (Spelling.line (.host user address) word))) =
      hideSecret store.passwordText ("Set $IP " ++ user) ++ ":" ++ mask ++ "@" ++
        hideCredentials (hideSecret store.passwordText address) := by
  have ends : EndsWithUser ("Set $IP " ++ user) := by
    obtain ⟨nonempty, last, noColon⟩ := isUser.ends
    refine ⟨List.append_ne_nil_of_right_ne_nil _ nonempty, fun character isLast => ?_, ?_⟩
    · rw [List.getLast?_append_of_ne_nil _ nonempty] at isLast
      exact last character isLast
    · rw [List.mem_append, not_or]
      exact ⟨by decide, noColon⟩
  have valid : Spelling.Valid (.host user address) := ⟨isUser, isHost⟩
  obtain ⟨plain, nonempty, -⟩ := Spelling.value_plain valid isSecret
  have trimmed : Trimmed (Spelling.line (.host user address) word) :=
    Command.trimmed_set isWord_host plain nonempty
  have isLine : Spelling.line (.host user address) word =
      ("Set $IP " ++ user) ++ ':' :: (word ++ '@' :: address) := rfl
  rw [trimmed.trim_eq, Store.hidePassword, isLine]
  exact hideCredentials_hideSecret noColon noSign ends isSecret.password
    (fun character member => (isHost.characters character member).isPasswordCharacter)
    (isHost.lacks (by decide))

theorem Spelling.Hides.afterEcho (hides : spelling.Hides session.store) (valid : spelling.Valid)
    {first second : Text} (isFirst : IsSecret first) (isSecond : IsSecret second) :
    session.afterEcho setting (spelling.line first) =
      session.afterEcho setting (spelling.line second) := by
  unfold Session.afterEcho
  rcases hides with quiet | masks
  · rw [if_neg (not_lt.mpr quiet), if_neg (not_lt.mpr quiet)]
  · cases spelling with
    | keyword => exact masks.elim
    | shorthand => exact masks.elim
    | host user address =>
        rw [hidden_host valid.1 valid.2 isFirst masks.1 masks.2,
          hidden_host valid.1 valid.2 isSecond masks.1 masks.2]

end

/-- From one session, two lines that set a password to two words differ in the password that is
stored, and in nothing else but their echoes, which are the same where they hide the password. -/
theorem passwords_echoed (setting : Setting σ) (bound : Nat) (session : Session σ)
    (named : session.store.WellNamed) (spelling : Spelling) (valid : spelling.Valid)
    {first second : Text} (setsFirst : spelling.Sets session.connection.files.isFile first)
    (setsSecond : spelling.Sets session.connection.files.isFile second) :
    runLine setting bound (spelling.line first) session =
        .ok true { session.afterEcho setting (spelling.line first) with
          store := spelling.store session.store first } ∧
      runLine setting bound (spelling.line second) session =
        .ok true { session.afterEcho setting (spelling.line second) with
          store := spelling.store session.store second } ∧
      (spelling.Hides session.store → session.afterEcho setting (spelling.line first) =
        session.afterEcho setting (spelling.line second)) :=
  ⟨Spelling.runs bound named valid setsFirst, Spelling.runs bound named valid setsSecond,
    fun hides => hides.afterEcho valid setsFirst.1 setsSecond.1⟩

/-- This session has just begun. -/
def opened : Session (List (Except Text Text)) := start {} [] ⟨[], []⟩

/-- In a new session, neither of two passwords in front of a host is seen in the echo. -/
theorem passwords_echoed_host :
    ∃ (after : Session (List (Except Text Text))) (store storeToo : Store),
      runLine .plain 1 "Set $IP root:hunter@10.0.0.1" opened =
        .ok true { after with store := store } ∧
      runLine .plain 1 "Set $IP root:winter@10.0.0.1" opened =
        .ok true { after with store := storeToo } := by
  let spelling : Spelling := .host "root" "10.0.0.1"
  have isEnd : EndsWithUser "root" := by
    refine ⟨by decide, fun character isLast => ?_, by decide⟩
    cases (rfl : ("root" : Text).getLast? = some 't').symm.trans isLast
    rfl
  have isUser : IsUser "root" := ⟨isEnd, by decide, by decide⟩
  have isHost : (Host.isAddress "10.0.0.1" || Host.isName "10.0.0.1") = true := by decide +kernel
  have sets (word : Text) (isSecret : IsSecret word) :
      spelling.Sets opened.connection.files.isFile word := ⟨isSecret, fun same => nomatch same⟩
  obtain ⟨first, second, same⟩ := passwords_echoed .plain 1 opened
    (Store.ofDefaults_wellNamed {}) spelling ⟨isUser, isHost⟩
    (sets "hunter" ⟨by decide, by decide, by decide, by decide⟩)
    (sets "winter" ⟨by decide, by decide, by decide, by decide⟩)
  have hides : spelling.Hides opened.store := .inr (by decide +kernel)
  exact ⟨_, _, _, first, same hides ▸ second⟩

/-- In a new session, a password that is set alone is seen in the echo. -/
theorem passwords_not_hidden :
    (finalState (runLine .plain 1 "Set $PASS hunter" opened)).connection.events ≠
      (finalState (runLine .plain 1 "Set $PASS winter" opened)).connection.events := by
  decide +kernel

end Session

end ManagementShell
