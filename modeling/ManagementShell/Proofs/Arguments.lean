import ManagementShell.Proofs.Outcome
import ManagementShell.Proofs.Payload
import ManagementShell.Proofs.Text.Cut
import Mathlib.Data.List.Forall2

/-
This file shows which values a call sends without a payload: each declared parameter with what its
words give for it, in their order, or with its default, and nothing else.
-/

namespace ManagementShell
open Text

/-- A list is converted value by value. -/
theorem mapM_eq_ok_iff {ε α β : Type} {convert : α → Except ε β} {values : List α}
    {converted : List β} : values.mapM convert = .ok converted ↔
      List.Forall₂ (fun value result => convert value = .ok result) values converted := by
  induction values generalizing converted with
  | nil =>
      constructor
      · rintro ⟨⟩
        exact .nil
      · rintro ⟨⟩
        rfl
  | cons first rest inductionHypothesis =>
      rw [List.mapM_cons, bind_eq_ok]
      constructor
      · rintro ⟨result, isResult, others⟩
        obtain ⟨results, areResults, same⟩ := bind_eq_ok.mp others
        cases same
        exact .cons isResult (inductionHypothesis.mp areResults)
      · intro each
        cases each with
        | cons isResult areResults =>
            exact ⟨_, isResult, bind_eq_ok.mpr ⟨_, inductionHypothesis.mpr areResults, rfl⟩⟩

namespace Call

/-- The value that the word gives for the name, which is all that stands behind its first equals
sign. -/
def valueFor? (name word : Text) : Option Text :=
  if '=' ∈ name then none else word.after? (name ++ "=")

/-- The values that the words give for the name, in the order of the words. -/
def valuesFor (words : List Text) (name : Text) : List Text := words.filterMap (valueFor? name)

theorem valueFor?_eq_some_iff {name word value : Text} :
    valueFor? name word = some value ↔ word.cut? "=" = some (name, value) := by
  have same : word.cut? "=" = some (name, value) ↔ word = name ++ '=' :: value ∧ '=' ∉ name :=
    cut?_eq_some '='
  rw [same, valueFor?]
  split
  · rename_i member
    simp [member]
  · rename_i absent
    rw [after?_eq_some, List.append_assoc]
    simp [absent, eq_comm]

/-- A word adds its value to those of its name. -/
theorem get?_addWord (secret word name : Text) (read : Call × List Record) :
    (addWord secret read word).1.arguments.get? name = match valueFor? name word with
      | some value => some ((read.1.arguments.get? name).getD [] ++ [value])
      | none => read.1.arguments.get? name := by
  unfold addWord
  cases isCut : word.cut? "=" with
  | none =>
      have gives : valueFor? name word = none := by
        refine Option.eq_none_iff_forall_ne_some.mpr fun value gives => ?_
        cases isCut.symm.trans (valueFor?_eq_some_iff.mp gives)
      rw [gives]
  | some parts =>
      obtain ⟨other, value⟩ := parts
      dsimp only [add]
      rw [Table.get?_insert]
      split
      · rename_i same
        rw [valueFor?_eq_some_iff.mpr (same ▸ isCut), same]
      · rename_i differs
        have gives : valueFor? name word = none := by
          refine Option.eq_none_iff_forall_ne_some.mpr fun given gives => differs ?_
          cases isCut.symm.trans (valueFor?_eq_some_iff.mp gives)
          rfl
        rw [gives]

/-- The words one after the other add their values. The induction is on the words. -/
theorem get?_foldl_addWord (secret name : Text) (words : List Text) (read : Call × List Record) :
    (words.foldl (addWord secret) read).1.arguments.get? name = match valuesFor words name with
      | [] => read.1.arguments.get? name
      | given => some ((read.1.arguments.get? name).getD [] ++ given) := by
  induction words generalizing read with
  | nil => rfl
  | cons word rest inductionHypothesis =>
      rw [List.foldl_cons, inductionHypothesis, get?_addWord]
      unfold valuesFor
      rw [List.filterMap_cons]
      cases valueFor? name word with
      | none => rfl
      | some value => cases rest.filterMap (valueFor? name) <;> simp

theorem method_of_ofWords {secret method : Text} {words : List Text} {call : Call}
    {records : List Record} (isRead : ofWords secret (method :: words) = .ok (call, records)) :
    call.method = method := by
  have isCall : (words.foldl (addWord secret) (ofMethod method, [])).1 = call :=
    congrArg Prod.fst (Except.ok.inj isRead)
  have kept (words : List Text) (read : Call × List Record) :
      (words.foldl (addWord secret) read).1.method = read.1.method := by
    induction words generalizing read with
    | nil => rfl
    | cons word rest inductionHypothesis =>
        rw [List.foldl_cons, inductionHypothesis, addWord]
        split <;> rfl
  rw [← isCall, kept]
  rfl

theorem get?_ofWords {secret method : Text} {words : List Text} {call : Call}
    {records : List Record} (isRead : ofWords secret (method :: words) = .ok (call, records))
    (name : Text) : call.arguments.get? name =
      if valuesFor words name = [] then none else some (valuesFor words name) := by
  have isCall : (words.foldl (addWord secret) (ofMethod method, [])).1 = call :=
    congrArg Prod.fst (Except.ok.inj isRead)
  rw [← isCall, get?_foldl_addWord]
  split
  · rename_i none
    rw [if_pos none]
    rfl
  · rename_i some
    rw [if_neg some]
    rfl

end Call

namespace Request

/-- The values of a default, of which there are none if they are all empty. -/
def defaultValues (fallback : ParameterValue) : List Text :=
  if ∀ value ∈ fallback.values, value = [] then [] else fallback.values

/-- The values of a declared parameter in a call with the words: those that are given for it, or
those of its default. There is no answer if there is neither. -/
def valuesOf? (words : List Text) (name : Text) (parameter : Parameter) : Option (List Text) :=
  match Call.valuesFor words name with
  | [] => parameter.fallback.map defaultValues
  | given => some given

/-- A value is sent as it is, or as the contents of the file that it refers to. -/
inductive StandsFor (files : FileTree) : Text → Text → Prop
  | itself {value : Text} (noFile : ∀ path, value ≠ "file:" ++ path) : StandsFor files value value
  | contents {path text : Text} (reads : files.readText path = .ok text) :
      StandsFor files ("file:" ++ path) text

/-- The row of a declared parameter has its name, and what each of its values stands for. -/
structure RowOf (files : FileTree) (words : List Text) (declared : Text × Parameter)
    (row : Text × List Text) : Prop where
  name : row.1 = declared.1
  texts : ∃ values, valuesOf? words declared.1 declared.2 = some values ∧
    List.Forall₂ (StandsFor files) values row.2

/-- There is one row for each declared parameter, in their order. -/
def RowsOf (files : FileTree) (words : List Text) (declared : Table Parameter)
    (rows : Table (List Text)) : Prop := List.Forall₂ (RowOf files words) declared rows

/-- The text of each value behind the name of its parameter. -/
def assignments (rows : Table (List Text)) : List Text :=
  rows.flatMap fun row => row.2.map fun text => row.1 ++ "=" ++ text

theorem contents_eq_ok_iff {files : FileTree} {name value text : Text} :
    contents files name value = .ok text ↔ StandsFor files value text := by
  unfold contents
  constructor
  · intro converts
    split at converts
    · rename_i noPath
      cases converts
      refine .itself fun path refers => ?_
      rw [refers] at noPath
      cases noPath.symm.trans (after?_eq_some.mpr rfl)
    · rename_i path isPath
      split at converts
      · rename_i reads
        cases converts
        rw [← after?_eq_some.mp isPath]
        exact .contents reads
      · cases converts
  · rintro (⟨noFile⟩ | ⟨reads⟩)
    · split
      · rfl
      · rename_i path isPath
        exact absurd (after?_eq_some.mp isPath).symm (noFile path)
    · rw [after?_eq_some.mpr rfl]
      dsimp only
      rw [reads]

theorem standFor_of_mapM {files : FileTree} {name : Text} {values texts : List Text}
    (areTexts : values.mapM (contents files name) = .ok texts) :
    List.Forall₂ (StandsFor files) values texts :=
  List.Forall₂.imp (fun _ _ => contents_eq_ok_iff.mp) (mapM_eq_ok_iff.mp areTexts)

section

variable {files : FileTree} {secret method : Text} {words : List Text} {call : Call}
  {records : List Record} (isRead : Call.ofWords secret (method :: words) = .ok (call, records))
include isRead

/-- A parameter is left out exactly if it has no values. -/
theorem values?_valuesOf {name : Text} {parameter : Parameter} {found : Option (List Text)}
    (isFound : values? call name parameter = .ok found) :
    ∃ values, valuesOf? words name parameter = some values ∧
      found = if values = [] then none else some values := by
  unfold values? at isFound
  rw [Call.get?_ofWords isRead] at isFound
  unfold valuesOf?
  cases isGiven : Call.valuesFor words name with
  | cons first rest =>
      rw [isGiven, if_neg (List.cons_ne_nil first rest)] at isFound
      cases isFound
      exact ⟨first :: rest, rfl, rfl⟩
  | nil =>
      rw [isGiven, if_pos rfl] at isFound
      cases isDefault : parameter.fallback with
      | none =>
          rw [isDefault] at isFound
          cases isFound
      | some fallback =>
          rw [isDefault] at isFound
          dsimp only at isFound
          refine ⟨defaultValues fallback, rfl, ?_⟩
          unfold defaultValues
          have same : fallback.values.all List.isEmpty = true ↔
              ∀ value ∈ fallback.values, value = [] := by simp
          simp only [same] at isFound
          split at isFound
          · rename_i allEmpty
            cases isFound
            rw [if_pos allEmpty, if_pos rfl]
          · rename_i notAllEmpty
            cases isFound
            have some : fallback.values ≠ [] := fun empty =>
              notAllEmpty (empty ▸ List.forall_mem_nil _)
            rw [if_neg notAllEmpty, if_neg some]

/-- What is resolved are the rows that are not empty. The induction is on the declared parameters. -/
theorem resolve_rowsOf {declared : Table Parameter} {resolved : Table (List Text)}
    (isResolved : resolve files call declared = .ok resolved) :
    ∃ rows, RowsOf files words declared rows ∧ resolved = rows.filter fun row => row.2 ≠ [] := by
  induction declared generalizing resolved with
  | nil =>
      cases isResolved
      exact ⟨[], .nil, rfl⟩
  | cons entry rest inductionHypothesis =>
      obtain ⟨name, parameter⟩ := entry
      rcases resolve_cons_cases isResolved with
        ⟨omitted, areOthers⟩ | ⟨found, texts, others, isFound, areTexts, areOthers, rfl⟩
      · obtain ⟨values, areValues, isOmitted⟩ := values?_valuesOf isRead omitted
        obtain ⟨rows, areRows, rfl⟩ := inductionHypothesis areOthers
        have empty : values = [] := by
          by_contra some
          rw [if_neg some] at isOmitted
          cases isOmitted
        subst empty
        exact ⟨(name, []) :: rows, .cons ⟨rfl, [], areValues, .nil⟩ areRows, rfl⟩
      · obtain ⟨values, areValues, areFound⟩ := values?_valuesOf isRead isFound
        have some : values ≠ [] := by
          rintro rfl
          cases areFound
        rw [if_neg some] at areFound
        cases areFound
        obtain ⟨rows, areRows, rfl⟩ := inductionHypothesis areOthers
        have standFor := standFor_of_mapM areTexts
        have someTexts : texts ≠ [] := by
          rintro rfl
          cases standFor
          exact some rfl
        refine ⟨(name, texts) :: rows, .cons ⟨rfl, found, areValues, standFor⟩ areRows, ?_⟩
        rw [List.filter_cons_of_pos (by simpa using someTexts)]

end

theorem RowsOf.names {files : FileTree} {words : List Text} {declared : Table Parameter}
    {rows : Table (List Text)} (areRows : RowsOf files words declared rows) :
    rows.names = declared.names := by
  induction areRows with
  | nil => rfl
  | cons isRow _ inductionHypothesis => exact congrArg₂ List.cons isRow.name inductionHypothesis

theorem RowsOf.ordered {files : FileTree} {words : List Text} {declared : Table Parameter}
    {rows : Table (List Text)} (areRows : RowsOf files words declared rows)
    (ordered : declared.Ordered) : rows.Ordered := by
  have names : declared.names.Pairwise (· < ·) := List.pairwise_map.mpr ordered
  rw [← areRows.names] at names
  exact List.pairwise_map.mp names

/-- Rows without texts add nothing. -/
theorem flatMap_filter_rows {α : Type} {give : Text × List Text → List α}
    (nothing : ∀ name, give (name, []) = []) (rows : Table (List Text)) :
    (rows.filter fun row => row.2 ≠ []).flatMap give = rows.flatMap give := by
  induction rows with
  | nil => rfl
  | cons row rest inductionHypothesis =>
      obtain ⟨name, texts⟩ := row
      rw [List.flatMap_cons, ← inductionHypothesis]
      cases texts with
      | nil => rw [List.filter_cons_of_neg (by simp), nothing, List.nil_append]
      | cons first others => rw [List.filter_cons_of_pos (by simp), List.flatMap_cons]

/-- The resource of a call with the selectors in its query; the class of a meta method is the end of
the path instead. -/
def selected (resource method : Text) (selectors : Table (List Text)) : Text :=
  let isClass (row : Text × List Text) := isClassOfMeta method row.1
  let path := resource ++ (selectors.filter isClass).flatMap fun row => row.2.flatten
  match assignments (selectors.filter fun row => !isClass row) with
  | [] => path
  | query => path ++ (if '?' ∈ path then "," else "?") ++ join "," query

theorem flatMap_filter_eq {α β : Type} (keeps : α → Bool) (give : α → List β) (values : List α) :
    (values.filter keeps).flatMap give =
      values.flatMap fun value => if keeps value then give value else [] := by
  induction values with
  | nil => rfl
  | cons value rest inductionHypothesis =>
      rw [List.filter_cons, List.flatMap_cons, ← inductionHypothesis]
      split <;> rfl

theorem withSelectors_rows (resource method : Text) (rows : Table (List Text)) :
    withSelectors resource method (rows.filter fun row => row.2 ≠ []) =
      selected resource method rows := by
  have classes : ((rows.filter fun row => row.2 ≠ []).flatMap fun row =>
      if isClassOfMeta method row.1 then row.2.flatten else []) =
        (rows.filter fun row => isClassOfMeta method row.1).flatMap fun row => row.2.flatten := by
    rw [flatMap_filter_rows (by simp), flatMap_filter_eq]
  have query : ((rows.filter fun row => row.2 ≠ []).flatMap fun row =>
      if isClassOfMeta method row.1 then []
      else row.2.map fun value => row.1 ++ "=" ++ value) =
        assignments (rows.filter fun row => !isClassOfMeta method row.1) := by
    rw [flatMap_filter_rows (by simp), assignments, flatMap_filter_eq]
    congr 1
    funext row
    cases isClassOfMeta method row.1 <;> rfl
  unfold withSelectors selected
  simp only [classes, query]
  cases assignments (rows.filter fun row => !isClassOfMeta method row.1) <;> rfl

theorem bodyArguments_rows (rows : Table (List Text)) :
    bodyArguments (rows.filter fun row => row.2 ≠ []) =
      (assignments rows).flatMap fun assignment => [("-k" : Text), assignment] := by
  rw [bodyArguments, flatMap_filter_rows (fun _ => rfl), assignments, List.flatMap_assoc]
  congr 1
  funext row
  rw [List.flatMap_map]

variable {σ : Type}

/-- The address of a target: the target itself, or what is found for it where it is a reference. -/
inductive AddressOf (endpoints : Endpoints σ) (method : Text) (target : Text) (before : σ) :
    Text → Prop
  | itself (noReference : target.includes Operation.endpointMark = false) :
      AddressOf endpoints method target before target
  | found {filter : Endpoint.Filter} {address : Text} {after : σ}
      (refers : target.includes Operation.endpointMark = true)
      (finds : endpoints.url method target filter before = .ok address after) :
      AddressOf endpoints method target before address

/-- Without a payload, the parameters are not looked at before the request is assembled. -/
theorem complete_assembles (basis : Basis) (endpoints : Endpoints σ) {prepared : Prepared}
    (noPayload : prepared.operation.hasPayload = false) (before : σ) :
    Ends (complete basis endpoints prepared) before
      (fun request _ => ∃ address, AddressOf endpoints prepared.call.method
        prepared.operation.target before address ∧
          request = assemble basis prepared address none)
      fun _ _ => True := by
  have addressed : Ends (target endpoints prepared) before
      (fun address _ => AddressOf endpoints prepared.call.method prepared.operation.target before
        address) fun _ _ => True := by
    unfold target
    split
    · rename_i refers
      unfold Ends
      split
      · rename_i finds
        exact .found refers finds
      · trivial
    · rename_i noReference
      rw [Bool.not_eq_true] at noReference
      exact .itself noReference
  rw [complete, ends_bind]
  refine addressed.weaken (fun address between isAddress => ?_) fun _ _ anything => anything
  rw [noPayload]
  exact ⟨address, isAddress, rfl⟩

/-- What stands before the resource in a request for the operation. -/
def commandOf (operation : Operation) (method : Text) : List Text :=
  match operation.verb with
  | .invoke => [Verb.invoke.name, "-a", operation.remoteName method]
  | other => [other.name]

/-- What stands before the body in the arguments. -/
def leading (prepared : Prepared) (address : Text) : List Text :=
  commandOf prepared.operation prepared.call.method ++
    [withSelectors (resource address) prepared.call.method prepared.selectors]

/-- What stands behind the body in the arguments. -/
def trailing (basis : Basis) (prepared : Prepared) : List Text :=
  let access : List Text := ["-h", prepared.host, "-P", (basis.store.shown? Variable.port).getD [], "-u",
    (basis.store.shown? Variable.login).getD [], "-p", basis.store.passwordText]
  let format : List Text := if prepared.call.method = "GetEPR" then ["-M", "epr"] else []
  access ++ basis.client.flags ++ dialectArguments prepared.call ++ format

theorem assemble_bodyArguments (basis : Basis) (prepared : Prepared) (address : Text) :
    (assemble basis prepared address none).invocation.arguments =
      leading prepared address ++ bodyArguments prepared.body ++ trailing basis prepared := by
  unfold assemble leading trailing commandOf
  simp only [List.append_assoc, Option.isSome_none, Bool.false_eq_true, if_false, List.append_nil]
  cases prepared.operation.verb <;> rfl

theorem assemble_payload (basis : Basis) (prepared : Prepared) (address payload : Text) :
    (assemble basis prepared address (some payload)).invocation.arguments =
      leading prepared address ++ trailing basis prepared ++ [("-J" : Text), payloadPath] := by
  unfold assemble leading trailing commandOf
  simp only [List.append_assoc]
  cases prepared.operation.verb <;> rfl

theorem assemble_arguments (basis : Basis) (prepared : Prepared) (address : Text) :
    ∃ rest, (assemble basis prepared address none).invocation.arguments =
      commandOf prepared.operation prepared.call.method ++
        [withSelectors (resource address) prepared.call.method prepared.selectors] ++
          bodyArguments prepared.body ++ ("-h" : Text) :: prepared.host :: rest :=
  ⟨_, assemble_bodyArguments basis prepared address⟩

/-- Between the resource and the host, the arguments of a call without a payload are a row for each
declared parameter of the body and nothing else: the values that the words give for it, or those of
its default. The rows of the declared selectors are in the resource. -/
theorem build_arguments {basis : Basis} {endpoints : Endpoints σ} {secret method : Text}
    {words : List Text} {call : Call} {records : List Record} {operation : Operation}
    (isRead : Call.ofWords secret (method :: words) = .ok (call, records))
    (known : basis.catalog.operation? basis.store.deviceText method = some operation)
    (noPayload : operation.hasPayload = false) {request : Request} {before after : σ}
    (built : build basis endpoints call before = .ok request after) :
    ∃ body selectors address host rest,
      RowsOf basis.files words operation.body body ∧
      RowsOf basis.files words operation.selectors selectors ∧
      (operation.body.Ordered → body.Ordered) ∧
      (operation.selectors.Ordered → selectors.Ordered) ∧
      AddressOf endpoints method operation.target before address ∧
      basis.store.shown? Variable.host = some host ∧
      request.invocation.payload = none ∧
      request.invocation.arguments =
        commandOf operation method ++ [selected (resource address) method selectors] ++
          (assignments body).flatMap (fun assignment => [("-k" : Text), assignment]) ++
            ("-h" : Text) :: host :: rest := by
  cases isPrepared : prepare basis call with
  | error failure =>
      rw [build, isPrepared] at built
      cases built
  | ok prepared =>
      have isMethod : call.method = method := Call.method_of_ofWords isRead
      have isFor := gives_of_eq_ok isPrepared (prepare_isFor basis call)
      have isKnown := isFor.operation
      rw [isMethod, known, Option.some.injEq] at isKnown
      subst isKnown
      obtain ⟨body, areRows, isBody⟩ := resolve_rowsOf isRead isFor.body
      obtain ⟨selectors, areSelectors, isSelectors⟩ := resolve_rowsOf isRead isFor.selectors
      rw [build, isPrepared] at built
      obtain ⟨address, isAddress, rfl⟩ :=
        ends_of_eq_ok built (complete_assembles basis endpoints noPayload before)
      rw [isFor.isCall, isMethod] at isAddress
      obtain ⟨rest, areArguments⟩ := assemble_arguments basis prepared address
      rw [isBody, isSelectors, withSelectors_rows, bodyArguments_rows, isFor.isCall, isMethod]
        at areArguments
      exact ⟨body, selectors, address, prepared.host, rest, areRows, areSelectors, areRows.ordered,
        areSelectors.ordered, isAddress, isFor.host, rfl, areArguments⟩

/-- One parameter of this operation is left out by default, one has a number, and one must be
given. -/
def schedule : Operation where
  verb := .invoke
  target := "cimv2/Jobs?Kind=All"
  selectors := [("Name", { fallback := some (.text "Jobs") })]
  body := .ofList [("Target", {}), ("Force", { fallback := some (.text []) }),
    ("Real", { fallback := some (.number 1) })]

def scheduling : Basis where
  catalog := Catalog.initial.add "idrac" "Schedule" schedule
  store := (Store.ofDefaults {}).put Variable.host (.text "h")
  client := {}
  files := ⟨[], [(["disk"], encode "b")]⟩

/-- The values of a parameter that is given twice are sent in their order, one of them from a file
and the other with an equals sign in it. -/
theorem build_arguments_scheduled :
    let words : List Text := ["Target=a=1", "Target=file:disk"]
    ∃ call request, Call.ofWords [] ("Schedule" :: words) = .ok (call, []) ∧
      build scheduling (.none Unit) call () = .ok request () ∧
      request.invocation.arguments.take 10 =
        ["invoke", "-a", "Schedule",
          "http://schemas.dmtf.org/wbem/wscim/1/cim-schema/2/Jobs?Kind=All,Name=Jobs",
          "-k", "Real=1", "-k", "Target=a=1", "-k", "Target=b"] ∧
      ∃ body, RowsOf scheduling.files words schedule.body body ∧ body.Ordered := by
  intro words
  obtain ⟨call, isRead⟩ : ∃ call, Call.ofWords [] ("Schedule" :: words) = .ok (call, []) :=
    ⟨_, rfl⟩
  have known : scheduling.catalog.operation? scheduling.store.deviceText "Schedule" =
      some schedule := by decide
  have written : (outcome (build scheduling (.none Unit) call ())).map
      (fun request => request.invocation.arguments.take 10) =
        .ok ["invoke", "-a", "Schedule",
          "http://schemas.dmtf.org/wbem/wscim/1/cim-schema/2/Jobs?Kind=All,Name=Jobs",
          "-k", "Real=1", "-k", "Target=a=1", "-k", "Target=b"] := by
    cases isRead
    decide
  cases built : build scheduling (.none Unit) call () with
  | error cause after =>
      rw [built] at written
      cases written
  | ok request after =>
      rw [built] at written
      obtain ⟨body, -, -, -, -, areRows, -, ordered, -⟩ :=
        build_arguments isRead known (by decide) built
      exact ⟨call, request, isRead, built, Except.ok.inj written, body, areRows,
        ordered (Table.ordered_ofList _)⟩

end Request

end ManagementShell
