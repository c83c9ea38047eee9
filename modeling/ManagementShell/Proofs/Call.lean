import ManagementShell.Connection
import ManagementShell.Proofs.Endpoint
import ManagementShell.Proofs.Table

/-
This file names the texts of a call that failures may quote, and shows that they come from its words.
-/

namespace ManagementShell
open Text Masking

variable {c : Char} {secret : Text}

namespace Connection

theorem className?_mem {reference name : Text} (isName : className? reference = some name) :
    name ∈ reference.splitOn ':' := by
  unfold className? at isName
  split at isName
  · rename_i isSplit
    cases isName
    simp [isSplit]
  · cases isName

theorem className?_lacks {reference name : Text} (isName : className? reference = some name)
    (lacks : c ∉ reference) : c ∉ name := splitOn_lacks lacks name (className?_mem isName)

end Connection

namespace Call

/-- The value, the path that it may hold, and the class that it may refer to. -/
def valueParts (value : Text) : List Text :=
  value :: ((value.after? "file:").toList ++ (Connection.className? value).toList)

def values (call : Call) : List Text := call.arguments.flatMap Prod.snd

def filter (call : Call) : Endpoint.Filter :=
  ((call.first? "-eprselect").map Endpoint.Filter.parse).getD .empty

/-- The texts of a call that a failure may quote. -/
def parts (call : Call) : List Text :=
  call.method :: (call.values.flatMap valueParts ++ call.filter.pairs)

/-- The words of a call, and the parts of what they are read as. -/
def texts (secret : Text) (words : List Text) : List Text :=
  match ofWords secret words with
  | .ok (call, _) => words ++ call.parts
  | .error _ => words

theorem path_mem_parts {value path : Text} (isPath : value.after? "file:" = some path) :
    path ∈ valueParts value :=
  .tail _ (List.mem_append_left _ (Option.mem_toList.mpr isPath))

theorem className_mem_parts {value name : Text} (isName : Connection.className? value = some name) :
    name ∈ valueParts value :=
  .tail _ (List.mem_append_right _ (Option.mem_toList.mpr isName))

theorem valueParts_lacks {value : Text} (lacks : c ∉ value) : ∀ part ∈ valueParts value, c ∉ part := by
  simp only [valueParts, List.mem_cons, List.mem_append, Option.mem_toList]
  rintro part (rfl | isPath | isName)
  · exact lacks
  · exact after?_lacks isPath lacks
  · exact Connection.className?_lacks isName lacks

/-- The name of a class refers to nothing else. -/
theorem valueParts_className {reference name : Text}
    (isName : Connection.className? reference = some name) : valueParts name = [name] := by
  have absent : ':' ∉ name := splitOn_separator _ _ name (Connection.className?_mem isName)
  have noPath : name.after? "file:" = none := by
    cases isPath : name.after? "file:" with
    | none => rfl
    | some path =>
        have begins : ("file:" : Text) ++ path = name := List.isPrefixOf?_eq_some_iff_append_eq.mp isPath
        rw [← begins] at absent
        exact absurd (List.mem_append_left _ (by decide)) absent
  rw [valueParts, noPath, Connection.className?, splitOn_of_not_mem absent]
  rfl

/-- The call that asks for the endpoints of a class quotes nothing but the class. -/
theorem discovery_parts {reference name : Text}
    (isName : Connection.className? reference = some name) :
    ((ofMethod "GetEPR").add "Class" name).parts = (["GetEPR", name] : List Text) := by
  have isParts : ((ofMethod "GetEPR").add "Class" name).parts =
      ("GetEPR" : Text) :: ([name].flatMap valueParts ++ []) := rfl
  rw [isParts, List.flatMap_singleton, valueParts_className isName]
  rfl

theorem get?_subset {call : Call} {name : Text} {values : List Text}
    (isGiven : call.arguments.get? name = some values) : ∀ value ∈ values, value ∈ call.values :=
  fun _ member => List.mem_flatMap.mpr ⟨_, Table.mem_of_get? isGiven, member⟩

theorem first?_mem {call : Call} {name value : Text} (isFirst : call.first? name = some value) :
    value ∈ call.values := by
  obtain ⟨values, isGiven, isHead⟩ := Option.bind_eq_some_iff.mp isFirst
  exact get?_subset isGiven value (List.mem_of_mem_head? isHead)

/-- Neither the method nor a value has the character. -/
structure Lacks (c : Char) (call : Call) : Prop where
  method : c ∉ call.method
  values : ∀ value ∈ call.values, c ∉ value

theorem add_lacks {call : Call} (lacks : call.Lacks c) (name : Text) {value : Text}
    (lacksValue : c ∉ value) : (call.add name value).Lacks c where
  method := lacks.method
  values other member := by
    obtain ⟨entry, isEntry, isValue⟩ := List.mem_flatMap.mp member
    rcases Table.eq_or_mem_of_mem_insert isEntry with rfl | isOld
    · rcases List.mem_append.mp isValue with isGiven | isNew
      · cases given : call.arguments.get? name with
        | none =>
            rw [given] at isGiven
            cases isGiven
        | some values =>
            rw [given] at isGiven
            exact lacks.values other (get?_subset given other isGiven)
      · rw [List.mem_singleton.mp isNew]
        exact lacksValue
    · exact lacks.values other (List.mem_flatMap.mpr ⟨entry, isOld, isValue⟩)

end Call

theorem Endpoint.Filter.add_lacks {filter : Filter} {part : Text}
    (lacks : ∀ pair ∈ filter.pairs, c ∉ pair) (lacksPart : c ∉ part) :
    ∀ pair ∈ (filter.add part).pairs, c ∉ pair := by
  simp only [pairs, List.forall_mem_append] at lacks
  unfold add
  split
  · rename_i entry isCut
    simp only [pairs, List.forall_mem_append, List.map_cons, List.forall_mem_cons]
    exact ⟨lacks.1, (cut?_lacks isCut lacksPart).2, lacks.2⟩
  · simp only [pairs, List.forall_mem_append, Option.toList_some, List.forall_mem_singleton]
    exact ⟨lacksPart, lacks.2⟩

theorem Endpoint.Filter.parse_lacks {text : Text} (lacks : c ∉ text) :
    ∀ pair ∈ (Filter.parse text).pairs, c ∉ pair := by
  have added (parts : List Text) (lacksParts : ∀ part ∈ parts, c ∉ part) {filter : Filter}
      (lacksFilter : ∀ pair ∈ filter.pairs, c ∉ pair) :
      ∀ pair ∈ (parts.foldl Filter.add filter).pairs, c ∉ pair := by
    induction parts generalizing filter with
    | nil => exact lacksFilter
    | cons first rest inductionHypothesis =>
        rw [List.forall_mem_cons] at lacksParts
        exact inductionHypothesis lacksParts.2 (add_lacks lacksFilter lacksParts.1)
  exact added _ (fun part member => splitOn_lacks lacks part (List.mem_filter.mp member).1)
    (List.forall_mem_nil _)

namespace Call

theorem parts_lacks {call : Call} (lacks : call.Lacks c) : ∀ part ∈ call.parts, c ∉ part := by
  simp only [parts, List.forall_mem_cons, List.forall_mem_append]
  refine ⟨lacks.method, fun part member => ?_, ?_⟩
  · obtain ⟨value, isValue, isPart⟩ := List.mem_flatMap.mp member
    exact valueParts_lacks (lacks.values value isValue) part isPart
  · unfold filter
    cases isGiven : call.first? "-eprselect" with
    | none => exact List.forall_mem_nil _
    | some text => exact Endpoint.Filter.parse_lacks (lacks.values text (first?_mem isGiven))

/-- What the words are read as does not depend on the secret that the warnings hide. -/
theorem foldl_addWord (secret other : Text) (words : List Text) (call : Call)
    (records otherRecords : List Record) :
    (words.foldl (addWord secret) (call, records)).1 =
      (words.foldl (addWord other) (call, otherRecords)).1 := by
  induction words generalizing call records otherRecords with
  | nil => rfl
  | cons word rest inductionHypothesis =>
      rw [List.foldl_cons, List.foldl_cons]
      unfold addWord
      split
      · exact inductionHypothesis _ _ _
      · exact inductionHypothesis _ _ _

theorem texts_of_ofWords {other : Text} {words : List Text} {read : Call × List Record}
    (isRead : ofWords other words = .ok read) (secret : Text) :
    texts secret words = words ++ read.1.parts := by
  cases words with
  | nil => cases isRead
  | cons method rest =>
      cases isRead
      rw [foldl_addWord other secret rest (ofMethod method) [] []]
      rfl

/-- The induction is on the words after the method. -/
theorem ofWords_lacks {words : List Text} {read : Call × List Record}
    (isRead : ofWords secret words = .ok read) (lacks : ∀ word ∈ words, c ∉ word) :
    read.1.Lacks c := by
  have folded (words : List Text) (lacks : ∀ word ∈ words, c ∉ word) {read : Call × List Record}
      (lacksCall : read.1.Lacks c) : (words.foldl (addWord secret) read).1.Lacks c := by
    induction words generalizing read with
    | nil => exact lacksCall
    | cons word rest inductionHypothesis =>
        rw [List.forall_mem_cons] at lacks
        refine inductionHypothesis lacks.2 ?_
        unfold addWord
        split
        · rename_i name value isCut
          exact add_lacks lacksCall name (cut?_lacks isCut lacks.1).2
        · exact lacksCall
  cases words with
  | nil => cases isRead
  | cons method rest =>
      cases isRead
      rw [List.forall_mem_cons] at lacks
      exact folded rest lacks.2 ⟨lacks.1, List.forall_mem_nil _⟩

/-- The warnings hide the secret in the words that they quote. -/
theorem ofWords_records (fresh : Fresh c) {words : List Text} {read : Call × List Record}
    (isRead : ofWords secret words = .ok read) (whole : ∀ word ∈ words, Whole c secret word) :
    ∀ record ∈ read.2, c ∉ record.message := by
  have masked : c ∉ mask := fresh.literal (by decide)
  have folded (words : List Text) (whole : ∀ word ∈ words, Whole c secret word)
      {read : Call × List Record} (lacks : ∀ record ∈ read.2, c ∉ record.message) :
      ∀ record ∈ (words.foldl (addWord secret) read).2, c ∉ record.message := by
    induction words generalizing read with
    | nil => exact lacks
    | cons word rest inductionHypothesis =>
        rw [List.forall_mem_cons] at whole
        refine inductionHypothesis whole.2 ?_
        unfold addWord
        split
        · exact lacks
        · rw [List.forall_mem_append, List.forall_mem_singleton]
          refine ⟨lacks, ?_⟩
          simp only [List.mem_append, not_or]
          exact ⟨⟨fresh.literal (by decide), (hideSecret_lacks_iff masked).mpr whole.1⟩,
            fresh.literal (by decide)⟩
  cases words with
  | nil => cases isRead
  | cons method rest =>
      cases isRead
      exact folded rest (List.forall_mem_cons.mp whole).2 (List.forall_mem_nil _)

/-- Where the password is whole in the texts of a call, its warnings and its parts can be shown. -/
theorem ofWords_gives (fresh : Fresh c) {password : Text} {words : List Text}
    (whole : ∀ text ∈ texts secret words, Whole c password text) :
    Gives (ofWords password words)
      (fun read => (∀ record ∈ read.2, c ∉ record.message) ∧
        ∀ part ∈ read.1.parts, Whole c password part)
      fun cause => Whole c password cause.message := by
  cases isRead : ofWords password words with
  | error cause =>
      cases words with
      | nil =>
          cases isRead
          exact whole_of_lacks (fresh.literal (by decide))
      | cons method rest => cases isRead
  | ok read =>
      rw [texts_of_ofWords isRead secret, List.forall_mem_append] at whole
      exact ⟨ofWords_records fresh isRead whole.1, whole.2⟩

end Call

/-- The value and the class that it may refer to can be masked. -/
def Maskable (c : Char) (secret value : Text) : Prop :=
  Whole c secret value ∧ ∀ name ∈ Connection.className? value, Whole c secret name

theorem maskable_of_lacks {value : Text} (lacks : c ∉ value) : Maskable c secret value :=
  ⟨whole_of_lacks lacks, fun _ isName =>
    whole_of_lacks (Connection.className?_lacks isName lacks)⟩

theorem maskable_of_parts {value : Text}
    (whole : ∀ part ∈ Call.valueParts value, Whole c secret part) : Maskable c secret value :=
  ⟨whole value List.mem_cons_self, fun name isName => whole name (Call.className_mem_parts isName)⟩

end ManagementShell
