import ManagementShell.Proofs.Failure
import ManagementShell.Proofs.Outcome
import ManagementShell.Proofs.Table
import ManagementShell.Variable.Substitution

/-
This file shows that the variables keep a secret in the password alone, and which texts that are
made from them do not show it.
-/

namespace ManagementShell
open Text Variable

variable {c : Char}

/-- Neither the user nor the password has the character. -/
def Credentials.Lacks (c : Char) : Credentials → Prop
  | .absent => True
  | .user name => c ∉ name
  | .full name word => c ∉ name ∧ c ∉ word

theorem Host.credentials?_lacks {text : Text} {credentials : Credentials}
    (isCredentials : Host.credentials? text = some credentials) (lacks : c ∉ text) :
    credentials.Lacks c := by
  unfold Host.credentials? at isCredentials
  split at isCredentials
  · rename_i name word isCut
    split at isCredentials
    · cases isCredentials
      exact cut?_lacks isCut lacks
    · cases isCredentials
  · split at isCredentials
    · cases isCredentials
      exact lacks
    · cases isCredentials

theorem Host.parse?_lacks {text : Text} {host : Host} (isHost : Host.parse? text = some host)
    (lacks : c ∉ text) : c ∉ host.name ∧ host.credentials.Lacks c := by
  have trimmed := trim_lacks lacks
  unfold Host.parse? at isHost
  dsimp only at isHost
  split at isHost
  · rename_i credentials name isParts
    split at isHost
    · cases isHost
      split at isParts
      · rename_i before after isCut
        obtain ⟨lacksBefore, lacksAfter⟩ := cutLast?_lacks isCut trimmed
        obtain ⟨found, isFound, isPair⟩ := Option.map_eq_some_iff.mp isParts
        cases isPair
        exact ⟨lacksAfter, Host.credentials?_lacks isFound lacksBefore⟩
      · cases isParts
        exact ⟨trimmed, trivial⟩
    · cases isHost
  · cases isHost

namespace Store

/-- The variables other than the password do not have the character, and the password has it only if
it is the secret. -/
structure Guarded (c : Char) (secret : Text) (store : Store) : Prop where
  ordered : store.values.Ordered
  names : ∀ entry ∈ store.values, c ∉ entry.1
  values : ∀ entry ∈ store.values, entry.1 ≠ password → c ∉ entry.2.shown
  password : store.passwordText = secret ∨ c ∉ store.passwordText
  login : c ∉ store.defaults.login

variable {secret : Text} {store : Store}

theorem stored?_mem {name : Text} {value : Value} (isStored : store.stored? name = some value) :
    (name, value) ∈ store.values := Table.mem_of_get? isStored

theorem Guarded.stored? (guarded : store.Guarded c secret) {name : Text} {value : Value}
    (differs : name ≠ Variable.password) (isStored : store.stored? name = some value) :
    c ∉ value.shown := guarded.values _ (stored?_mem isStored) differs

theorem Guarded.shown? (guarded : store.Guarded c secret) {name : Text}
    (differs : name ≠ Variable.password) : c ∉ (store.shown? name).getD [] := by
  unfold Store.shown?
  cases isStored : store.stored? name with
  | none => exact List.not_mem_nil
  | some value => exact guarded.stored? differs isStored

theorem passwordText_put_password (value : Value) :
    (store.put password value).passwordText = value.shown := by
  simp [passwordText, Store.shown?]

theorem passwordText_put {name : Text} (differs : name ≠ password) (value : Value) :
    (store.put name value).passwordText = store.passwordText := by
  simp [passwordText, Store.shown?, Ne.symm differs]

/-- A value without the character can be put under every name, the password's too. -/
theorem Guarded.put (guarded : store.Guarded c secret) {name : Text} {value : Value}
    (lacksName : c ∉ name) (lacks : c ∉ value.shown) : (store.put name value).Guarded c secret where
  ordered := guarded.ordered.insert name value
  names entry member := by
    rcases Table.mem_insert guarded.ordered member with rfl | ⟨isOld, _⟩
    · exact lacksName
    · exact guarded.names entry isOld
  values entry member differs := by
    rcases Table.mem_insert guarded.ordered member with rfl | ⟨isOld, _⟩
    · exact lacks
    · exact guarded.values entry isOld differs
  password := by
    by_cases same : name = Variable.password
    · rw [same, passwordText_put_password]
      exact .inr lacks
    · rw [passwordText_put same]
      exact guarded.password
  login := guarded.login

theorem Guarded.putText (guarded : store.Guarded c secret) {name text : Text} (lacksName : c ∉ name)
    (lacks : c ∉ text) : (store.put name (.text text)).Guarded c secret :=
  guarded.put lacksName lacks

theorem Guarded.putInteger (guarded : store.Guarded c secret) (fresh : Fresh c) {name : Text}
    (lacksName : c ∉ name) (number : Int) : (store.put name (.integer number)).Guarded c secret :=
  guarded.put lacksName (ofInt_lacks fresh number)

theorem Guarded.remove (guarded : store.Guarded c secret) (name : Text) :
    (store.remove name).Guarded c secret where
  ordered := guarded.ordered.erase name
  names entry member := guarded.names entry (List.mem_filter.mp member).1
  values entry member := guarded.values entry (List.mem_filter.mp member).1
  password := by
    by_cases same : name = Variable.password
    · right
      simp [passwordText, Store.shown?, same]
    · have kept : (store.remove name).passwordText = store.passwordText := by
        simp [passwordText, Store.shown?, Ne.symm same]
      rw [kept]
      exact guarded.password
  login := guarded.login

/-- Where the password does not have the character, no variable does. -/
theorem Guarded.value (guarded : store.Guarded c secret) (lacks : c ∉ store.passwordText)
    {entry : Text × Value} (member : entry ∈ store.values) : c ∉ entry.2.shown := by
  by_cases same : entry.1 = Variable.password
  · have isPassword := guarded.ordered.get? member
    rw [same] at isPassword
    have shown : store.passwordText = entry.2.shown := by
      simp [passwordText, Store.shown?, Store.stored?, isPassword]
    rwa [← shown]
  · exact guarded.values entry member same

/-- Neither the variables nor a warning shows the secret. -/
def Sets (c : Char) (secret : Text) (result : Store × List Record) : Prop :=
  result.1.Guarded c secret ∧ ∀ record ∈ result.2, c ∉ record.message

theorem checkWritable_gives {name : Text} (lacksName : c ∉ name) :
    Gives (checkWritable name) (fun _ => True) fun failure => failure.Quotes (c ∉ ·) := by
  unfold checkWritable
  split
  · split
    · exact lacksName
    · exact lacksName
    · trivial
    · trivial
  · exact lacksName

section

variable (guarded : store.Guarded c secret) (fresh : Fresh c)
include guarded fresh

theorem setHost_sets {value : Text} (lacks : c ∉ value) : Sets c secret (store.setHost value) := by
  have isLogin : c ∉ login := fresh.literal (by decide)
  have isHost : c ∉ host := fresh.literal (by decide)
  have isPassword : c ∉ password := fresh.literal (by decide)
  unfold setHost
  split
  · refine ⟨guarded, ?_⟩
    simp only [List.mem_singleton, forall_eq, List.mem_append, not_or]
    exact ⟨fresh.literal (by decide), Masking.hideCredentials_lacks fresh lacks⟩
  · rename_i spec isSpec
    obtain ⟨lacksName, lacksCredentials⟩ := Host.parse?_lacks isSpec lacks
    dsimp only
    generalize spec.credentials = credentials at lacksCredentials
    cases credentials with
    | absent => exact ⟨(guarded.putText isLogin guarded.login).putText isHost lacksName, by simp⟩
    | user user =>
        refine ⟨(guarded.putText isLogin lacksCredentials).putText isHost lacksName, ?_⟩
        simp only [List.mem_singleton, forall_eq]
        exact fresh.literal (by decide)
    | full user word =>
        exact ⟨((guarded.putText isLogin lacksCredentials.1).putText isPassword
          lacksCredentials.2).putText isHost lacksName, by simp⟩

/-- A rule stores the value or another one in its place. -/
theorem assign_sets {name value : Text} (lacksName : c ∉ name) (lacks : c ∉ value) :
    Sets c secret (store.assign name value) := by
  have fixed {characters : List Char} (known : areFixed characters = true) :
      c ∉ (String.ofList characters).toList := fresh.literal known
  have silent {changed : Store} (isGuarded : changed.Guarded c secret) :
      Sets c secret (changed, []) := ⟨isGuarded, by simp⟩
  have warned {changed : Store} {record : Record} (isGuarded : changed.Guarded c secret)
      (message : c ∉ record.message) : Sets c secret (changed, [record]) := ⟨isGuarded, by simpa⟩
  unfold assign
  split
  · exact setHost_sets guarded fresh lacks
  split
  · split
    · exact silent (guarded.putText lacksName lacks)
    · exact warned (guarded.putText lacksName (fixed (by decide))) (fixed (by decide))
  split
  · split
    · exact silent (guarded.putText lacksName lacks)
    · exact warned (guarded.putText lacksName (fixed (by decide))) (fixed (by decide))
  split
  · have isProgram : c ∉ program := fixed (by decide)
    have isVerbosity : c ∉ verbosity := fixed (by decide)
    have isFormat : c ∉ format := fixed (by decide)
    split
    · exact silent (((guarded.putText isProgram (fixed (by decide))).putInteger fresh
        isVerbosity callLevel).putText isFormat (fixed (by decide)))
    · split
      · exact silent (guarded.putText isProgram (fixed (by decide)))
      · exact warned (guarded.putText isProgram (fixed (by decide)))
          (fixed (by decide))
  split
  · split
    · exact silent (guarded.putInteger fresh lacksName _)
    · refine warned (guarded.putInteger fresh lacksName _) ?_
      simp only [List.mem_append, not_or]
      exact ⟨⟨⟨fixed (by decide), lacksName⟩, fixed (by decide)⟩,
        ofInt_lacks fresh _⟩
  · exact silent (guarded.putText lacksName lacks)

theorem set_gives {name value : Text} (lacksName : c ∉ name) (lacks : c ∉ value) :
    Gives (store.set name value) (Sets c secret) fun failure => failure.Quotes (c ∉ ·) := by
  have written := checkWritable_gives lacksName
  unfold set
  split
  · rename_i failure failed
    rw [failed] at written
    exact written
  · exact assign_sets guarded fresh lacksName lacks

omit fresh in
theorem bind_gives {name : Text} {value : Value} (lacksName : c ∉ name) (lacks : c ∉ value.shown) :
    Gives (store.bind name value) (fun changed => changed.Guarded c secret) fun failure =>
      failure.Quotes (c ∉ ·) := by
  have written := checkWritable_gives lacksName
  unfold bind
  split
  · rename_i failure failed
    rw [failed] at written
    exact written
  · exact guarded.put lacksName lacks

omit fresh in
theorem clear_guarded (name : Text) : (store.clear name).Guarded c secret := by
  unfold clear
  split
  · exact guarded.remove name
  · exact guarded

omit fresh in
theorem unset_gives {name : Text} (lacksName : c ∉ name) :
    Gives (store.unset name) (fun result => result.2.Guarded c secret) fun failure =>
      failure.Quotes (c ∉ ·) := by
  unfold unset
  split
  · exact lacksName
  · exact lacksName
  · exact lacksName
  · exact guarded.remove name

/-- The listing masks the password. -/
theorem listing_lacks : ∀ line ∈ store.listing, c ∉ line := by
  intro line member
  obtain ⟨entry, isEntry, rfl⟩ := List.mem_map.mp member
  have separator : c ∉ (": " : Text) := fresh.literal (by decide)
  simp only [List.mem_append, not_or]
  refine ⟨⟨guarded.names entry isEntry, separator⟩, ?_⟩
  split
  · exact fresh.literal (by decide)
  · rename_i differs
    exact guarded.values entry isEntry differs

omit guarded fresh in
theorem dropNamesFrom_lacks (inName : Bool) {text : Text} (lacks : c ∉ text) :
    c ∉ dropNamesFrom inName text := by
  induction text generalizing inName with
  | nil => exact List.not_mem_nil
  | cons character rest inductionHypothesis =>
      rw [List.mem_cons, not_or] at lacks
      unfold dropNamesFrom
      split
      · exact inductionHypothesis true lacks.2
      · split
        · exact inductionHypothesis true lacks.2
        · rw [List.mem_cons, not_or]
          exact ⟨lacks.1, inductionHypothesis false lacks.2⟩

omit guarded in
/-- A text shows a character after substitution only if it or a value has it. -/
theorem substitute_lacks {masked : Bool} {now text : Text}
    (values : ∀ entry ∈ store.values, c ∉ replacement masked entry) (lacksNow : c ∉ now)
    (lacks : c ∉ text) : c ∉ store.substitute masked now text := by
  have kept : c ∉ escapedDollar := fresh.literal (by decide)
  have sign : c ∉ ("$" : Text) := fresh.literal (by decide)
  have replaced (entries : List (Text × Value)) (isValue : ∀ entry ∈ entries, entry ∈ store.values)
      {current : Text} (lacksCurrent : c ∉ current) :
      c ∉ entries.foldl (fun current entry =>
        current.replaceAll entry.1 (replacement masked entry)) current := by
    induction entries generalizing current with
    | nil => exact lacksCurrent
    | cons entry rest inductionHypothesis =>
        simp only [List.mem_cons, forall_eq_or_imp] at isValue
        exact inductionHypothesis isValue.2 (replaceAll_lacks (values entry isValue.1) lacksCurrent)
  unfold substitute
  exact replaceAll_lacks sign (dropNamesFrom_lacks _ (replaceAll_lacks lacksNow
    (replaced _ (fun _ member => mem_sort.mp member) (replaceAll_lacks kept lacks))))

/-- An expansion that is shown masks the password. -/
theorem expand_lacks {now text : Text} (lacksNow : c ∉ now) (lacks : c ∉ text) :
    c ∉ store.expand now text := by
  refine substitute_lacks fresh (fun entry member => ?_) lacksNow lacks
  unfold replacement
  split
  · exact fresh.literal (by decide)
  · rename_i differs
    exact guarded.values entry member (by simpa using differs)

theorem expandSecret_lacks (free : c ∉ store.passwordText) {now text : Text} (lacksNow : c ∉ now)
    (lacks : c ∉ text) : c ∉ store.expandSecret now text :=
  substitute_lacks fresh (fun _ member => guarded.value free member) lacksNow lacks

end

end Store

end ManagementShell
