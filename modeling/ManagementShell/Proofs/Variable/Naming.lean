import ManagementShell.Proofs.Outcome
import ManagementShell.Proofs.Text.Blank
import ManagementShell.Proofs.Variable.Rules
import ManagementShell.Session.Run
import ManagementShell.Variable.Substitution

/-
This file shows how the variables of a session are named, and in which order they are substituted.
-/

namespace ManagementShell
open Text

theorem Text.isWord_of_isLatinWord {character : Char} (latin : isLatinWord character = true) :
    isWord character = true := by
  have isAscii : character.toNat < 0x80 := by
    rcases Bool.or_eq_true_iff.mp latin with isAlphanumeric | isUnderscore
    · exact ascii_of_isAlphanum isAlphanumeric
    · rw [eq_of_beq isUnderscore]
      decide
  rw [isWord, if_pos isAscii]
  exact latin

namespace Variable

/-- A name of a variable that can be stored: it is not the beginning of the name of the date. -/
def isStorable (name : Text) : Bool := isName name && !name.isPrefixOf date

theorem isStorable_of_required {name : Text} (isRequired : name ∈ required) :
    isStorable name = true :=
  List.all_eq_true.mp (by decide : required.all isStorable = true) name isRequired

/-- A name is a dollar sign in front of a word. -/
theorem exists_of_isName {name : Text} (named : isName name = true) :
    ∃ first word, name = '$' :: first :: word ∧ (first :: word).all Text.isWord = true := by
  unfold isName at named
  split at named
  · rename_i rest
    obtain ⟨nonempty, latin⟩ := Bool.and_eq_true_iff.mp named
    cases rest with
    | nil => cases nonempty
    | cons first word =>
        exact ⟨first, word, rfl, List.all_eq_true.mpr fun character member =>
          isWord_of_isLatinWord (List.all_eq_true.mp latin character member)⟩
  · cases named

theorem length_of_isName {name : Text} (named : isName name = true) : 2 ≤ name.length := by
  obtain ⟨first, word, rfl, -⟩ := exists_of_isName named
  exact Nat.le_add_left 2 word.length

theorem category_of_underscore {name : Text} (begins : "$_".toList <+: name) :
    category name = .reserved ∨ category name = .internal := by
  unfold category
  split
  · exact .inl rfl
  · rw [if_pos (List.isPrefixOf_iff_prefix.mpr begins)]
    exact .inr rfl

/-- Names that can be written can be stored. -/
theorem isStorable_of_checkWritable {name : Text}
    (writable : Store.checkWritable name = .ok ()) : isStorable name = true := by
  unfold Store.checkWritable at writable
  split at writable
  · rename_i named
    rw [isStorable, named, Bool.true_and, Bool.not_eq_true']
    refine Bool.eq_false_iff.mpr fun begins => ?_
    have isPrefix : name <+: date := List.isPrefixOf_iff_prefix.mp begins
    have underscore : "$_".toList <+: date := by decide
    rcases category_of_underscore (List.prefix_of_prefix_length_le underscore isPrefix
      (length_of_isName named)) with same | same
    · rw [same] at writable
      cases writable
    · rw [same] at writable
      cases writable
  · cases writable

end Variable

namespace Store
open Variable

/-- Each variable has one value, and a name that can be stored. -/
structure WellNamed (store : Store) : Prop where
  ordered : store.values.Ordered
  names : ∀ entry ∈ store.values, isStorable entry.1 = true

variable {store : Store}

theorem WellNamed.put (named : store.WellNamed) {name : Text} (storable : isStorable name = true)
    (value : Value) : (store.put name value).WellNamed where
  ordered := named.ordered.insert name value
  names entry member := by
    rcases Table.eq_or_mem_of_mem_insert member with rfl | isOld
    · exact storable
    · exact named.names entry isOld

theorem WellNamed.remove (named : store.WellNamed) (name : Text) : (store.remove name).WellNamed where
  ordered := named.ordered.erase name
  names entry member := named.names entry (List.mem_filter.mp member).1

theorem ofDefaults_wellNamed (defaults : Defaults) : (ofDefaults defaults).WellNamed where
  ordered := Table.ordered_ofList _
  names entry member := by
    have listed : entry.1 ∈ required := List.mem_map_of_mem (Table.mem_of_mem_ofList member)
    exact isStorable_of_required listed

theorem WellNamed.writes {before after : Store} (named : before.WellNamed)
    (writes : before.Writes after) : after.WellNamed := by
  induction writes with
  | none => exact named
  | put _ writable _ inductionHypothesis =>
      exact inductionHypothesis.put (isStorable_of_checkWritable writable) _

theorem WellNamed.set (named : store.WellNamed) (name value : Text) :
    Gives (store.set name value) (fun changed => changed.1.WellNamed) fun _ => True := by
  unfold Store.set
  split
  · trivial
  · rename_i writable
    exact named.writes (assign_writes writable value)

theorem WellNamed.bind (named : store.WellNamed) (name : Text) (value : Value) :
    Gives (store.bind name value) WellNamed fun _ => True := by
  unfold Store.bind
  split
  · trivial
  · rename_i writable
    exact named.put (isStorable_of_checkWritable writable) value

theorem WellNamed.clear (named : store.WellNamed) (name : Text) : (store.clear name).WellNamed := by
  unfold Store.clear
  split
  · exact named.remove name
  · exact named

theorem WellNamed.unset (named : store.WellNamed) (name : Text) :
    Gives (store.unset name) (fun result => result.2.WellNamed) fun _ => True := by
  unfold Store.unset
  split
  · trivial
  · trivial
  · trivial
  · exact named.remove name

/-- The place of execution has names that can be stored. -/
theorem WellNamed.place (named : store.WellNamed) (frame : Frame) :
    (Session.place store frame).WellNamed :=
  (named.put (by decide) _).put (by decide) _

theorem WellNamed.nodup (named : store.WellNamed) : store.values.names.Nodup :=
  List.pairwise_map.mpr (named.ordered.imp fun less same => by
    rw [same] at less
    exact lt_irrefl _ less)

theorem replacedBefore_iff {first second : Text × Value} :
    replacedBefore first second = true ↔ second.1.length < first.1.length ∨
      first.1.length = second.1.length ∧ second.1 < first.1 := by
  simp [replacedBefore, precedes_iff_lt]

/-- A name that is replaced does not begin one that is replaced after it. -/
theorem not_prefix_of_replacedBefore {first second : Text × Value}
    (before : replacedBefore first second = true) : ¬first.1 <+: second.1 := by
  intro begins
  rcases replacedBefore_iff.mp before with longer | ⟨same, less⟩
  · have most := begins.length_le
    omega
  · rw [begins.eq_of_length same] at less
    exact lt_irrefl _ less

theorem replacedBefore_asymmetric (first second : Text × Value)
    (before : replacedBefore first second = true) : replacedBefore second first = false := by
  refine Bool.eq_false_iff.mpr fun after => ?_
  rw [replacedBefore_iff] at before after
  rcases before with longer | ⟨same, less⟩
  · rcases after with shorter | ⟨same, _⟩ <;> omega
  · rcases after with shorter | ⟨_, greater⟩
    · omega
    · exact lt_asymm less greater

theorem replacedBefore_transitive (first second third : Text × Value)
    (early : replacedBefore first second = true) (late : replacedBefore second third = true) :
    replacedBefore first third = true := by
  rw [replacedBefore_iff] at *
  rcases early with longer | ⟨same, less⟩
  · left
    rcases late with further | ⟨equal, _⟩ <;> omega
  · rcases late with further | ⟨equal, further⟩
    · left
      omega
    · exact .inr ⟨same.trans equal, further.trans less⟩

/-- Of two names, one is replaced before the other. -/
theorem replacedBefore_total {first second : Text × Value} (differs : first.1 ≠ second.1)
    (notAfter : replacedBefore second first = false) : replacedBefore first second = true := by
  rw [replacedBefore_iff]
  have notLater := mt replacedBefore_iff.mpr (Bool.eq_false_iff.mp notAfter)
  push Not at notLater
  obtain ⟨notShorter, notLess⟩ := notLater
  rcases Nat.lt_or_eq_of_le notShorter with longer | same
  · exact .inl longer
  · exact .inr ⟨same.symm, lt_of_le_of_ne (notLess same) (Ne.symm differs)⟩

theorem mem_replacements {entry : Text × Value} :
    entry ∈ store.replacements ↔ entry ∈ store.values := mem_sort

/-- The variables are replaced one after the other in their order. -/
theorem WellNamed.replacements_pairwise (named : store.WellNamed) :
    store.replacements.Pairwise fun first second => replacedBefore first second = true := by
  have sorted := sort_pairwise replacedBefore_asymmetric replacedBefore_transitive store.values
  have distinct : store.replacements.Pairwise fun first second => first.1 ≠ second.1 :=
    List.pairwise_map.mp (((sort_perm store.values).map Prod.fst).nodup_iff.mpr named.nodup)
  exact (sorted.and distinct).imp fun ⟨notAfter, differs⟩ => replacedBefore_total differs notAfter

end Store

end ManagementShell
