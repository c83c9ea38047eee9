import ManagementShell.Proofs.Variable.Scan

/-
This file shows which texts are expanded without regard to the password: those that do not name it,
if no value that is inserted before the password is replaced brings its name in.
-/

namespace ManagementShell
open Text Variable

namespace Text

/-- The text differs from the word before its next dollar sign, or it ends before. -/
def departs : Text → Text → Bool
  | [], _ => false
  | _ :: _, [] => true
  | expected :: word, character :: rest =>
      if character = expected then departs word rest else character != '$'

/-- Behind each dollar sign the text departs from the word. -/
def isCalm (word : Text) : Text → Bool
  | [] => true
  | character :: rest => (character != '$' || departs word rest) && isCalm word rest

variable {word text : Text}

theorem departs_of_absent (absent : ¬word <+: text)
    (ends : ∀ beginning, beginning <+: word → ¬beginning ++ ['$'] <+: text) :
    departs word text = true := by
  induction word generalizing text with
  | nil => exact absurd List.nil_prefix absent
  | cons expected word inductionHypothesis =>
      cases text with
      | nil => rfl
      | cons character rest =>
          rw [departs]
          split
          · rename_i same
            subst same
            refine inductionHypothesis (fun begins => absent (List.cons_prefix_cons.mpr ⟨rfl, begins⟩))
              fun beginning isBeginning begins => ends (character :: beginning) ?_ ?_
            · exact List.cons_prefix_cons.mpr ⟨rfl, isBeginning⟩
            · exact List.cons_prefix_cons.mpr ⟨rfl, begins⟩
          · refine bne_iff_ne.mpr fun isSign => ends [] List.nil_prefix ?_
            exact List.cons_prefix_cons.mpr ⟨isSign.symm, List.nil_prefix⟩

/-- A text is calm if no beginning of the name, up to the whole, stands in front of a dollar sign,
and the name itself does not stand in it. -/
theorem isCalm_of_absent (absent : ¬ '$' :: word <:+: text)
    (ends : ∀ beginning, beginning <+: word → ¬ '$' :: beginning ++ ['$'] <:+: text) :
    isCalm word text = true := by
  induction text with
  | nil => rfl
  | cons character rest inductionHypothesis =>
      have inside {part : Text} (isInfix : part <:+: rest) : part <:+: character :: rest :=
        isInfix.trans (List.suffix_cons _ _).isInfix
      have later := inductionHypothesis (fun isInfix => absent (inside isInfix))
        fun beginning isBeginning isInfix => ends beginning isBeginning (inside isInfix)
      rw [isCalm, later, Bool.and_true, Bool.or_eq_true, bne_iff_ne]
      by_cases isSign : character = '$'
      · subst isSign
        refine .inr (departs_of_absent (fun begins => absent ?_)
          fun beginning isBeginning begins => ends beginning isBeginning ?_)
        · exact (List.cons_prefix_cons.mpr ⟨rfl, begins⟩).isInfix
        · exact (List.cons_prefix_cons.mpr ⟨rfl, begins⟩).isInfix
      · exact .inl isSign

theorem not_prefix_of_departs (departing : departs word text = true) : ¬word <+: text := by
  induction word generalizing text with
  | nil => cases departing
  | cons expected word inductionHypothesis =>
      cases text with
      | nil => simp
      | cons character rest =>
          rw [departs] at departing
          rw [List.cons_prefix_cons]
          rintro ⟨rfl, begins⟩
          rw [if_pos rfl] at departing
          exact inductionHypothesis departing begins

/-- A calm text does not have the name. -/
theorem not_infix_of_isCalm (calm : isCalm word text = true) : ¬ '$' :: word <:+: text := by
  induction text with
  | nil => simp
  | cons character rest inductionHypothesis =>
      rw [isCalm, Bool.and_eq_true, Bool.or_eq_true, bne_iff_ne] at calm
      rw [List.infix_cons_iff, not_or, List.cons_prefix_cons]
      refine ⟨fun ⟨isSign, begins⟩ => ?_, inductionHypothesis calm.2⟩
      exact not_prefix_of_departs (calm.1.resolve_left (not_not_intro isSign.symm)) begins

theorem isCalm_of_append {head rest : Text} (calm : isCalm word (head ++ rest) = true) :
    isCalm word rest = true := by
  induction head with
  | nil => exact calm
  | cons character head inductionHypothesis =>
      exact inductionHypothesis (Bool.and_eq_true_iff.mp calm).2

theorem isCalm_append {head rest : Text} (absent : '$' ∉ head) (calm : isCalm word rest = true) :
    isCalm word (head ++ rest) = true := by
  induction head with
  | nil => exact calm
  | cons character head inductionHypothesis =>
      rw [List.mem_cons, not_or] at absent
      rw [List.cons_append, isCalm, inductionHypothesis absent.2, bne_iff_ne.mpr (Ne.symm absent.1)]
      rfl

section

variable {first : Char} {others value : Text} (absent : first ∉ word) (noSign : '$' ∉ value)
  (elsewhere : first = '$' ∨ ∃ character ∈ value.head?, character ∉ word)
include absent noSign elsewhere

theorem departs_replaceAll (departing : departs word text = true) :
    departs word (replaceAll text (first :: others) value) = true := by
  induction word generalizing text with
  | nil => cases departing
  | cons expected word inductionHypothesis =>
      rw [List.mem_cons, not_or] at absent
      cases text with
      | nil => rfl
      | cons character rest =>
          rw [departs] at departing
          by_cases same : character = expected
          · subst same
            rw [if_pos rfl] at departing
            rw [replaceAll_cons fun begins => absent.1 (List.cons_prefix_cons.mp begins).1, departs,
              if_pos rfl]
            refine inductionHypothesis absent.2 (elsewhere.imp_right ?_) departing
            exact fun ⟨other, isHead, notWord⟩ => ⟨other, isHead, fun member => notWord (.tail _ member)⟩
          · rw [if_neg same] at departing
            by_cases begins : first :: others <+: character :: rest
            · obtain ⟨later, isText⟩ := begins
              obtain rfl := (List.cons.inj isText).1
              obtain ⟨other, isHead, notWord⟩ := elsewhere.resolve_left (bne_iff_ne.mp departing)
              obtain ⟨tail, rfl⟩ := List.head?_eq_some_iff.mp isHead
              rw [List.mem_cons, not_or] at notWord noSign
              rw [← isText, replaceAll_mark (List.cons_ne_nil _ _), List.cons_append, departs,
                if_neg notWord.1]
              exact bne_iff_ne.mpr (Ne.symm noSign.1)
            · rw [replaceAll_cons begins, departs, if_neg same]
              exact departing

/-- A calm text stays so when a name or another mark is replaced by a text without a dollar sign. -/
theorem isCalm_replaceAll (calm : isCalm word text = true) :
    isCalm word (replaceAll text (first :: others) value) = true := by
  let mark : Definition := ⟨first :: others, value⟩
  have nonempty : ∀ definition ∈ [mark], definition.name ≠ [] := by simp [mark]
  induction text using Definition.first?_induction nonempty with
  | nil => rfl
  | found definition rest isFirst inductionHypothesis =>
      obtain rfl := List.mem_singleton.mp (Definition.first?_mem isFirst)
      rw [replaceAll_mark (List.cons_ne_nil _ _)]
      exact isCalm_append noSign (inductionHypothesis (isCalm_of_append calm))
  | plain character rest isFirst inductionHypothesis =>
      rw [isCalm, Bool.and_eq_true, Bool.or_eq_true] at calm
      rw [replaceAll_cons (Definition.first?_none.mp isFirst mark List.mem_cons_self), isCalm,
        inductionHypothesis calm.2, Bool.and_true, Bool.or_eq_true]
      exact calm.1.imp_right (departs_replaceAll absent noSign elsewhere)

end

end Text

namespace Store

/-- What the password is called behind the dollar sign. -/
def passwordWord : Text := "PASS"

/-- One variable is replaced, and the password is not masked. -/
def replaceEntry (current : Text) (entry : Text × Value) : Text :=
  replaceAll current entry.1 entry.2.shown

/-- The entry is replaced before the password. -/
def isEarly (entry : Text × Value) : Bool := replacedBefore entry (password, entry.2)

theorem foldl_replaceEntry_filter {entries : List (Text × Value)}
    (ordered : entries.Pairwise fun first second => replacedBefore first second = true)
    (storable : ∀ entry ∈ entries, isStorable entry.1 = true)
    (noSigns : ∀ entry ∈ entries, isEarly entry = true → '$' ∉ entry.2.shown) {text : Text}
    (calm : isCalm passwordWord text = true) :
    entries.foldl replaceEntry text =
      (entries.filter fun entry => entry.1 != password).foldl replaceEntry text := by
  induction entries generalizing text with
  | nil => rfl
  | cons entry rest inductionHypothesis =>
      have later {current : Text} (calm : isCalm passwordWord current = true) :=
        inductionHypothesis ordered.of_cons (fun other member => storable other (.tail _ member))
          (fun other member => noSigns other (.tail _ member)) calm
      by_cases isPassword : entry.1 = password
      · have absent : ¬password <:+: text := not_infix_of_isCalm calm
        rw [List.filter_cons, if_neg (by simp [isPassword]), List.foldl_cons, replaceEntry, isPassword,
          replaceAll_of_absent absent]
        exact later calm
      rw [List.filter_cons, if_pos (bne_iff_ne.mpr isPassword), List.foldl_cons, List.foldl_cons]
      by_cases early : isEarly entry = true
      · obtain ⟨named, -⟩ := Bool.and_eq_true_iff.mp (storable entry List.mem_cons_self)
        obtain ⟨first, word, isName, -⟩ := exists_of_isName named
        refine later ?_
        rw [replaceEntry, isName]
        exact isCalm_replaceAll (by decide) (noSigns entry List.mem_cons_self early) (.inl rfl) calm
      · have isLast : ∀ other ∈ rest, other.1 ≠ password := by
          intro other member same
          have before := (List.pairwise_cons.mp ordered).1 other member
          rw [replacedBefore_iff, same] at before
          exact early (replacedBefore_iff.mpr before)
        rw [List.filter_eq_self.mpr fun other member => bne_iff_ne.mpr (isLast other member)]

variable {first second : Store}

theorem WellNamed.mem_iff {store : Store} (named : store.WellNamed) {entry : Text × Value} :
    entry ∈ store.replacements ↔ store.stored? entry.1 = some entry.2 :=
  mem_replacements.trans ⟨named.ordered.get?, Table.mem_of_get?⟩

/-- Where the other variables have the same values, they are replaced in the same order. -/
theorem filter_replacements_eq (named : first.WellNamed) (namedToo : second.WellNamed)
    (same : ∀ name, name ≠ password → first.stored? name = second.stored? name) :
    (first.replacements.filter fun entry => entry.1 != password) =
      second.replacements.filter fun entry => entry.1 != password := by
  have nodup {store : Store} (named : store.WellNamed) :
      (store.replacements.filter fun entry => entry.1 != password).Nodup := by
    refine (named.replacements_pairwise.imp fun before => ?_).filter _
    rintro rfl
    exact not_prefix_of_replacedBefore before (List.prefix_refl _)
  have sorted {store : Store} (named : store.WellNamed) :
      (store.replacements.filter fun entry => entry.1 != password).Pairwise
        fun first second => replacedBefore first second = true :=
    named.replacements_pairwise.filter _
  have perm := (List.perm_ext_iff_of_nodup (nodup named) (nodup namedToo)).mpr fun entry => by
    rw [List.mem_filter, List.mem_filter, named.mem_iff, namedToo.mem_iff, bne_iff_ne]
    exact and_congr_left fun differs => by rw [same entry.1 differs]
  refine List.Perm.eq_of_pairwise (fun entry other _ _ before after => ?_) (sorted named)
    (sorted namedToo) perm
  exact absurd ((replacedBefore_asymmetric entry other before).symm.trans after) Bool.false_ne_true

/-- A text that does not name the password is expanded without regard to it, unless a value that is
inserted before the password has a dollar sign, or a beginning of the name stands in front of a
dollar sign. -/
theorem expandSecret_independent (named : first.WellNamed) (namedToo : second.WellNamed)
    (same : ∀ name, name ≠ password → first.stored? name = second.stored? name)
    {text : Text} (absent : ¬password <:+: text)
    (noSigns : ∀ entry ∈ first.values, isEarly entry = true → '$' ∉ entry.2.shown)
    (ends : ∀ beginning, beginning <+: passwordWord → ¬ '$' :: beginning ++ ['$'] <:+: text)
    (now : Text) : first.expandSecret now text = second.expandSecret now text := by
  have calm : isCalm passwordWord (replaceAll text "\\$" escapedDollar) = true :=
    isCalm_replaceAll (by decide) (by decide) (.inr ⟨'\x00', rfl, by decide⟩)
      (isCalm_of_absent absent ends)
  have noSignsToo : ∀ entry ∈ second.values, isEarly entry = true → '$' ∉ entry.2.shown := by
    intro entry member early
    have differs : entry.1 ≠ password := fun isPassword =>
      not_prefix_of_replacedBefore early (isPassword ▸ List.prefix_refl _)
    have stored := (same entry.1 differs).trans (namedToo.ordered.get? member)
    exact noSigns entry (Table.mem_of_get? stored) early
  have replaced {store : Store} (named : store.WellNamed)
      (noSigns : ∀ entry ∈ store.values, isEarly entry = true → '$' ∉ entry.2.shown) :=
    foldl_replaceEntry_filter named.replacements_pairwise
      (fun entry member => named.names entry (mem_replacements.mp member))
      (fun entry member => noSigns entry (mem_replacements.mp member)) calm
  have unchanged := ((replaced named noSigns).trans
    (congrArg _ (filter_replacements_eq named namedToo same))).trans (replaced namedToo noSignsToo).symm
  exact congrArg (fun current => replaceAll (dropNames (replaceAll current date now)) escapedDollar "$")
    unchanged

/-- The value of a variable is the name of the password. -/
def quoting (name value word : Text) : Store :=
  (((ofDefaults {}).put name (.text value)).put "$key" (.text "$PASS")).put password (.text word)

theorem quoting_stored? (name value first second : Text) {other : Text} (differs : other ≠ password) :
    (quoting name value first).stored? other = (quoting name value second).stored? other := by
  simp [quoting, differs]

/-- A variable with a short name has the name of the password for a value. -/
theorem expandSecret_independent_short :
    (quoting "$payload" "data" "one").expandSecret "2024" "Key=$payload/$key" =
      (quoting "$payload" "data" "two").expandSecret "2024" "Key=$payload/$key" := by
  have named (word : Text) : (quoting "$payload" "data" word).WellNamed :=
    (((ofDefaults_wellNamed {}).put (by decide) _).put (by decide) _).put
      (by decide) _
  refine expandSecret_independent (named "one") (named "two")
    (fun _ differs => quoting_stored? _ _ _ _ differs) (by decide) (by decide) ?_ "2024"
  intro beginning isBeginning
  exact (by decide : ∀ beginning ∈ passwordWord.inits,
    ¬ '$' :: beginning ++ ['$'] <:+: "Key=$payload/$key".toList) beginning
      ((List.mem_inits _ _).mpr isBeginning)

/-- A variable with a long name brings the name of the password in before it is replaced. -/
theorem expandSecret_dependent :
    (∀ name, name ≠ password → (quoting "$payload" "$PASS" "one").stored? name =
        (quoting "$payload" "$PASS" "two").stored? name) ∧
      ¬password <:+: "Key=$payload".toList ∧
      (quoting "$payload" "$PASS" "one").expandSecret "2024" "Key=$payload" = "Key=one".toList ∧
      (quoting "$payload" "$PASS" "two").expandSecret "2024" "Key=$payload" = "Key=two".toList :=
  ⟨fun _ differs => quoting_stored? _ _ _ _ differs, by decide, by decide,
    by decide⟩

end Store

end ManagementShell
