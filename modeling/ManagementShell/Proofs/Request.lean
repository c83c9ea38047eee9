import ManagementShell.Proofs.Call
import ManagementShell.Proofs.FileTree
import ManagementShell.Proofs.Policy
import ManagementShell.Proofs.Store

/-
This file shows that a request is shown without a secret that the parts of its call hold only as a
whole, and that so is a failure to build it.
-/

namespace ManagementShell
open Text Masking

variable {c : Char} {secret : Text}

/-- Neither a default nor a name of the operation has the character. -/
structure Operation.Lacks (c : Char) (operation : Operation) : Prop where
  target : c ∉ operation.target
  action : ∀ name ∈ operation.action, c ∉ name
  names : ∀ entry ∈ operation.selectors ++ operation.body, c ∉ entry.1
  defaults : ∀ entry ∈ operation.selectors ++ operation.body, ∀ fallback ∈ entry.2.fallback,
    ∀ value ∈ fallback.values, c ∉ value

instance (operation : Operation) : Decidable (operation.Lacks c) :=
  decidable_of_iff (c ∉ operation.target ∧ (∀ name ∈ operation.action, c ∉ name) ∧
      (∀ entry ∈ operation.selectors ++ operation.body, c ∉ entry.1) ∧
      ∀ entry ∈ operation.selectors ++ operation.body, ∀ fallback ∈ entry.2.fallback,
        ∀ value ∈ fallback.values, c ∉ value)
    ⟨fun ⟨target, action, names, defaults⟩ => ⟨target, action, names, defaults⟩,
      fun lacks => ⟨lacks.target, lacks.action, lacks.names, lacks.defaults⟩⟩

/-- Neither the name of a method nor its operation has the character. -/
def Catalog.Lacks (c : Char) (catalog : Catalog) : Prop :=
  ∀ device ∈ catalog, ∀ entry ∈ device.2, c ∉ entry.1 ∧ entry.2.Lacks c

instance (catalog : Catalog) : Decidable (catalog.Lacks c) :=
  inferInstanceAs (Decidable (∀ device ∈ catalog, ∀ entry ∈ device.2, c ∉ entry.1 ∧ entry.2.Lacks c))

theorem Catalog.operation?_lacks {catalog : Catalog} (lacks : catalog.Lacks c)
    {device method : Text} {operation : Operation}
    (isOperation : catalog.operation? device method = some operation) :
    c ∉ method ∧ operation.Lacks c := by
  rw [Catalog.operation?, Catalog.operations] at isOperation
  cases isDevice : catalog.get? device with
  | none =>
      rw [isDevice] at isOperation
      cases isOperation
  | some table =>
      rw [isDevice] at isOperation
      exact lacks _ (Table.mem_of_get? isDevice) _ (Table.mem_of_get? isOperation)

theorem gives_mapM {ε α β : Type} {convert : α → Except ε β} {done : β → Prop} {failed : ε → Prop}
    {values : List α} (each : ∀ value ∈ values, Gives (convert value) done failed) :
    Gives (values.mapM convert) (fun converted => ∀ value ∈ converted, done value) failed := by
  induction values with
  | nil => simp
  | cons first rest inductionHypothesis =>
      simp only [List.mem_cons, forall_eq_or_imp] at each
      rw [List.mapM_cons, gives_bind]
      refine each.1.weaken (fun value isDone => ?_) (fun _ isFailed => isFailed)
      rw [gives_bind]
      refine (inductionHypothesis each.2).weaken (fun values areDone => ?_) (fun _ isFailed => isFailed)
      simp only [gives_pure, List.mem_cons, forall_eq_or_imp]
      exact ⟨isDone, areDone⟩

namespace Request

/-- The names of the parameters do not have the character, and their values can be masked. -/
def Resolved (c : Char) (secret : Text) (table : Table (List Text)) : Prop :=
  ∀ entry ∈ table, c ∉ entry.1 ∧ ∀ value ∈ entry.2, Maskable c secret value

theorem contents_gives {files : FileTree} {parameter value : Text} (lacksFiles : files.Lacks c)
    (lacksName : c ∉ parameter) (whole : ∀ part ∈ Call.valueParts value, Whole c secret part) :
    Gives (contents files parameter value) (Maskable c secret) fun failure =>
      failure.Quotes (Whole c secret) := by
  unfold contents
  split
  · exact maskable_of_parts whole
  · rename_i path isPath
    split
    · rename_i text isText
      exact maskable_of_lacks (lacksFiles.readText isText)
    · exact ⟨whole path (Call.path_mem_parts isPath), whole_of_lacks lacksName⟩

section

variable {call : Call} (whole : ∀ part ∈ call.parts, Whole c secret part)
include whole

theorem values_whole : ∀ value ∈ call.values, ∀ part ∈ Call.valueParts value, Whole c secret part :=
  fun _ isValue part isPart => whole part (.tail _ (List.mem_append_left _
    (List.mem_flatMap.mpr ⟨_, isValue, isPart⟩)))

theorem filter_whole : ∀ pair ∈ call.filter.pairs, Whole c secret pair :=
  fun pair isPair => whole pair (.tail _ (List.mem_append_right _ isPair))

theorem values?_gives {name : Text} {parameter : Parameter} (lacksMethod : c ∉ call.method)
    (lacksName : c ∉ name)
    (defaults : ∀ fallback ∈ parameter.fallback, ∀ value ∈ fallback.values, c ∉ value) :
    Gives (values? call name parameter)
      (fun found => ∀ values ∈ found, ∀ value ∈ values, ∀ part ∈ Call.valueParts value,
        Whole c secret part)
      fun failure => failure.Quotes (Whole c secret) := by
  unfold values?
  split
  · rename_i given isGiven
    rintro _ ⟨⟩ value member
    exact values_whole whole value (Call.get?_subset isGiven value member)
  · exact ⟨whole_of_lacks lacksMethod, whole_of_lacks lacksName⟩
  · rename_i fallback _ isFallback
    split
    · simp
    · rintro _ ⟨⟩ value member part isPart
      exact whole_of_lacks (Call.valueParts_lacks (defaults fallback isFallback value member) part isPart)

/-- The induction is on the declared parameters. -/
theorem resolve_gives {files : FileTree} (lacksFiles : files.Lacks c) (lacksMethod : c ∉ call.method)
    {declared : Table Parameter} (names : ∀ entry ∈ declared, c ∉ entry.1)
    (defaults : ∀ entry ∈ declared, ∀ fallback ∈ entry.2.fallback, ∀ value ∈ fallback.values,
      c ∉ value) :
    Gives (resolve files call declared) (Resolved c secret) fun failure =>
      failure.Quotes (Whole c secret) := by
  induction declared with
  | nil => exact List.forall_mem_nil _
  | cons entry rest inductionHypothesis =>
      obtain ⟨name, parameter⟩ := entry
      simp only [List.mem_cons, forall_eq_or_imp] at names defaults
      have first := values?_gives whole lacksMethod names.1 defaults.1
      have later := inductionHypothesis names.2 defaults.2
      unfold resolve
      split
      · rename_i failure failed
        rw [failed] at first
        exact first
      · exact later
      · rename_i values isValues
        rw [isValues] at first
        have converted := gives_mapM fun value member =>
          contents_gives lacksFiles names.1 (first values rfl value member)
        split
        · rename_i failure failed
          rw [failed] at converted
          exact converted
        · rename_i texts isTexts
          rw [isTexts] at converted
          split
          · rename_i failure failed
            rw [failed] at later
            exact later
          · rename_i others isOthers
            rw [isOthers] at later
            exact List.forall_mem_cons.mpr ⟨⟨names.1, converted⟩, later⟩

end

/-- A call that can be completed to a request that can be shown. -/
structure Prepared.Safe (c : Char) (secret : Text) (prepared : Prepared) : Prop where
  method : c ∉ prepared.call.method
  parts : ∀ part ∈ prepared.call.parts, Whole c secret part
  operation : prepared.operation.Lacks c
  filter : ∀ pair ∈ prepared.filter.pairs, Whole c secret pair
  selectors : Resolved c secret prepared.selectors
  body : Resolved c secret prepared.body
  host : c ∉ prepared.host

/-- What a request is built from besides the call does not have the character, but for the password. -/
structure Basis.Guarded (c : Char) (secret : Text) (basis : Basis) : Prop where
  catalog : basis.catalog.Lacks c
  store : basis.store.Guarded c secret
  program : c ∉ basis.client.program
  flags : ∀ flag ∈ basis.client.flags, c ∉ flag
  files : basis.files.Lacks c

section

variable {basis : Basis} (guarded : basis.Guarded c secret)
include guarded

theorem prepare_gives {password : Text} {call : Call}
    (whole : ∀ part ∈ call.parts, Whole c password part) :
    Gives (prepare basis call) (Prepared.Safe c password) fun failure =>
      failure.Quotes (Whole c password) := by
  have lacksHost : c ∉ (basis.store.shown? Variable.host).getD [] :=
    guarded.store.shown? (by decide)
  unfold prepare
  split
  · exact whole _ List.mem_cons_self
  · rename_i operation isOperation
    obtain ⟨lacksMethod, lacks⟩ := Catalog.operation?_lacks guarded.catalog isOperation
    have selectors := resolve_gives whole guarded.files lacksMethod
      (fun entry member => lacks.names entry (List.mem_append_left _ member))
      (fun entry member => lacks.defaults entry (List.mem_append_left _ member))
    have body := resolve_gives whole guarded.files lacksMethod
      (fun entry member => lacks.names entry (List.mem_append_right _ member))
      (fun entry member => lacks.defaults entry (List.mem_append_right _ member))
    split
    · rename_i failure failed
      rw [failed] at selectors
      exact selectors
    · rename_i given isGiven
      rw [isGiven] at selectors
      split
      · rename_i failure failed
        rw [failed] at body
        exact body
      · rename_i inside isInside
        rw [isInside] at body
        dsimp only
        split
        · rename_i first rest isHost
          rw [isHost] at lacksHost
          exact ⟨lacksMethod, whole, lacks, filter_whole whole, selectors, body, lacksHost⟩
        · trivial

end

theorem remoteName_lacks {operation : Operation} {method : Text} (lacks : operation.Lacks c)
    (lacksMethod : c ∉ method) : c ∉ operation.remoteName method := by
  unfold Operation.remoteName
  cases isAction : operation.action with
  | none => exact lacksMethod
  | some name => exact lacks.action name isAction

theorem resource_lacks (fresh : Fresh c) {template : Text} (lacks : c ∉ template) :
    c ∉ resource template := by
  have comma : c ∉ ("," : Text) := fresh.literal (by decide)
  have address : c ∉ if (template.after? "http").isSome then template
      else schemaRoot ++ (dropBytes? 4 template).getD [] := by
    split
    · exact lacks
    · rw [List.mem_append, not_or]
      exact ⟨fresh.literal (by decide), dropBytes?_lacks lacks⟩
  exact replaceAll_lacks comma address

theorem assigned_whole (fresh : Fresh c) {name value : Text} (lacksName : c ∉ name)
    (whole : Whole c secret value) : Whole c secret (name ++ "=" ++ value) :=
  ((whole_of_lacks lacksName).append (whole_of_lacks (fresh.literal (by decide)))).append whole

theorem withSelectors_whole (fresh : Fresh c) {resource method : Text}
    {selectors : Table (List Text)} (lacks : c ∉ resource) (resolved : Resolved c secret selectors) :
    Whole c secret (withSelectors resource method selectors) := by
  have comma : c ∉ ("," : Text) := fresh.literal (by decide)
  have path : Whole c secret (resource ++ selectors.flatMap fun entry =>
      if isClassOfMeta method entry.1 then entry.2.flatten else []) := by
    refine (whole_of_lacks lacks).append (Whole.flatMap fun entry member => ?_)
    split
    · exact Whole.flatten fun value isValue => ((resolved entry member).2 value isValue).1
    · exact .nil
  have query : ∀ part ∈ selectors.flatMap fun entry => if isClassOfMeta method entry.1 then []
      else entry.2.map fun value => entry.1 ++ "=" ++ value, Whole c secret part := by
    intro part member
    obtain ⟨entry, isEntry, isPart⟩ := List.mem_flatMap.mp member
    split at isPart
    · cases isPart
    · obtain ⟨value, isValue, rfl⟩ := List.mem_map.mp isPart
      obtain ⟨lacksName, maskable⟩ := resolved entry isEntry
      exact assigned_whole fresh lacksName (maskable value isValue).1
  have mark (path : Text) : c ∉ ((if '?' ∈ path then "," else "?" : String) : Text) := by
    split
    · exact comma
    · exact fresh.literal (by decide)
  unfold withSelectors
  dsimp only
  split
  · exact path
  · exact (path.append (whole_of_lacks (mark _))).append (Whole.join comma query)

theorem bodyArguments_whole (fresh : Fresh c) {body : Table (List Text)}
    (resolved : Resolved c secret body) : ∀ word ∈ bodyArguments body, Whole c secret word := by
  intro word member
  obtain ⟨entry, isEntry, isWord⟩ := List.mem_flatMap.mp member
  obtain ⟨value, isValue, isPart⟩ := List.mem_flatMap.mp isWord
  obtain ⟨lacksName, maskable⟩ := resolved entry isEntry
  simp only [List.mem_cons, List.not_mem_nil, or_false] at isPart
  rcases isPart with rfl | rfl
  · exact whole_of_lacks (fresh.literal (by decide))
  · exact assigned_whole fresh lacksName (maskable value isValue).1

theorem dialectArguments_whole (fresh : Fresh c) {call : Call}
    (whole : ∀ part ∈ call.parts, Whole c secret part) :
    ∀ word ∈ dialectArguments call, Whole c secret word := by
  have fixed : ∀ dialect ∈ dialects, c ∉ ("--dialect=" : Text) ++ dialect.2 := by
    have all : dialects.all fun dialect => (("--dialect=" : Text) ++ dialect.2).all isFixed := by
      decide
    exact fun dialect member => fresh.lacks (List.all_eq_true.mp all dialect member)
  intro word member
  unfold dialectArguments at member
  dsimp only at member
  cases isUsed : dialects.findSome? fun entry => (call.first? entry.1).map fun filter =>
      [("--dialect=" : Text) ++ entry.2, "--filter=" ++ filter] with
  | none =>
      rw [isUsed] at member
      cases member
  | some used =>
      rw [isUsed] at member
      obtain ⟨dialect, isDialect, isGiven⟩ := List.exists_of_findSome?_eq_some isUsed
      obtain ⟨filter, isFilter, rfl⟩ := Option.map_eq_some_iff.mp isGiven
      simp only [Option.getD_some, List.mem_cons, List.not_mem_nil, or_false] at member
      rcases member with rfl | rfl
      · exact whole_of_lacks (fixed dialect isDialect)
      · exact (whole_of_lacks (fresh.literal (by decide))).append
          (values_whole whole filter (Call.first?_mem isFilter) filter List.mem_cons_self)

section

variable {basis : Basis} (guarded : basis.Guarded c secret) (fresh : Fresh c)
include guarded fresh

/-- The words of the command hold the password only as a whole. -/
theorem assemble_words_whole {prepared : Prepared} (safe : prepared.Safe c basis.store.passwordText)
    {target : Text} (lacks : c ∉ target) (payload : Option Text) :
    ∀ word ∈ (assemble basis prepared target payload).invocation.program ::
        (assemble basis prepared target payload).invocation.arguments,
      Whole c basis.store.passwordText word := by
  have fixed {characters : List Char} (known : areFixed characters = true) :
      Whole c basis.store.passwordText (String.ofList characters).toList :=
    whole_of_lacks (fresh.literal known)
  have shown {name : Text} (differs : name ≠ Variable.password) :
      Whole c basis.store.passwordText ((basis.store.shown? name).getD []) :=
    whole_of_lacks (guarded.store.shown? differs)
  have flags : ∀ flag ∈ basis.client.flags, Whole c basis.store.passwordText flag :=
    fun flag member => whole_of_lacks (guarded.flags flag member)
  have program : Whole c basis.store.passwordText basis.client.program :=
    whole_of_lacks guarded.program
  have host : Whole c basis.store.passwordText prepared.host := whole_of_lacks safe.host
  have remote : Whole c basis.store.passwordText
      (prepared.operation.remoteName prepared.call.method) :=
    whole_of_lacks (remoteName_lacks safe.operation safe.method)
  have resource : Whole c basis.store.passwordText
      (withSelectors (resource target) prepared.call.method prepared.selectors) :=
    withSelectors_whole fresh (resource_lacks fresh lacks) safe.selectors
  have nothing : ∀ word ∈ ([] : List Text), Whole c basis.store.passwordText word :=
    List.forall_mem_nil _
  have pair {first second : Text} (one : Whole c basis.store.passwordText first)
      (other : Whole c basis.store.passwordText second) :
      ∀ word ∈ [first, second], Whole c basis.store.passwordText word :=
    List.forall_mem_cons.mpr ⟨one, List.forall_mem_singleton.mpr other⟩
  unfold assemble
  simp only [List.forall_mem_cons, List.forall_mem_append]
  refine ⟨program, ⟨⟨⟨⟨⟨⟨⟨⟨?verb, nothing⟩, ?action⟩, resource, nothing⟩, ?body⟩, ?access⟩, flags⟩,
    dialectArguments_whole fresh safe.parts⟩, ?format⟩, ?file⟩
  case verb =>
      cases prepared.operation.verb <;> exact fixed (by decide)
  case action =>
      split
      · exact pair (fixed (by decide)) remote
      · exact nothing
  case body =>
      split
      · exact nothing
      · exact bodyArguments_whole fresh safe.body
  case access =>
      exact ⟨fixed (by decide), host, fixed (by decide), shown (by decide),
        fixed (by decide), shown (by decide), fixed (by decide),
        Whole.itself, nothing⟩
  case format =>
      split
      · exact pair (fixed (by decide)) (fixed (by decide))
      · exact nothing
  case file =>
      split
      · exact pair (fixed (by decide)) (whole_of_lacks (fresh.lacks (by decide)))
      · exact nothing

/-- The password in the command is masked when it is shown. -/
theorem assemble_shown_lacks {prepared : Prepared} (safe : prepared.Safe c basis.store.passwordText)
    {target : Text} (lacks : c ∉ target) (payload : Option Text)
    (unquoted : c ∈ basis.store.passwordText → '\'' ∉ basis.store.passwordText) :
    c ∉ (assemble basis prepared target payload).invocation.shown := by
  have words := assemble_words_whole guarded fresh safe lacks payload
  have free : c ∉ mask := fresh.literal (by decide)
  refine (hideSecret_lacks_iff free).mpr ?_
  by_cases member : c ∈ basis.store.passwordText
  · exact Whole.unwords fresh (unquoted member) words
  · exact whole_of_lacks (unwords_lacks fresh fun word isWord => (words word isWord).lacks member)

end

/-- Neither the method nor the command, as it is shown, has the character. -/
structure Shows (c : Char) (request : Request) : Prop where
  method : c ∉ request.method
  command : c ∉ request.invocation.shown

/-- Endpoints are found without the character for references that can be masked. -/
structure Endpoints.Secure {σ : Type} (policy : Policy Failure σ) (c : Char) (secret : Text)
    (endpoints : Endpoints σ) : Prop where
  url : ∀ {method reference : Text} {filter : Endpoint.Filter}, Whole c secret method →
    Maskable c secret reference → (∀ pair ∈ filter.pairs, Whole c secret pair) →
    policy.Secures True (endpoints.url method reference filter) fun url => c ∉ url
  address : ∀ {method reference parameter : Text} {filter : Endpoint.Filter},
    Whole c secret method → Maskable c secret reference → c ∉ parameter →
    (∀ pair ∈ filter.pairs, Whole c secret pair) →
    policy.Secures True (endpoints.address method reference parameter filter) fun _ => True

section

variable {σ : Type} {policy : Policy Failure σ} {password : Text} {endpoints : Endpoints σ}

section

variable {prepared : Prepared} (safe : prepared.Safe c password)
  (secure : endpoints.Secure policy c password)
include safe secure

theorem element_secures {name value : Text} (lacksName : c ∉ name)
    (maskable : Maskable c password value) :
    policy.Secures True (element endpoints prepared name value) fun _ => True := by
  unfold element
  split
  · exact secure.address (whole_of_lacks safe.method) maskable lacksName safe.filter
  · exact Policy.secures_pure fun _ => trivial

theorem elements_secures {entries : List (Text × Text)}
    (maskable : ∀ entry ∈ entries, c ∉ entry.1 ∧ Maskable c password entry.2) :
    policy.Secures True (elements endpoints prepared entries) fun _ => True := by
  induction entries with
  | nil => exact Policy.secures_pure fun _ => trivial
  | cons entry rest inductionHypothesis =>
      simp only [List.mem_cons, forall_eq_or_imp] at maskable
      apply Policy.Secures.bind (element_secures safe secure maskable.1.1 maskable.1.2)
      intro first
      rw [true_and]
      apply Policy.Secures.bind (inductionHypothesis maskable.2)
      exact fun others => Policy.secures_pure fun _ => trivial

theorem target_secures :
    policy.Secures True (target endpoints prepared) fun address => c ∉ address := by
  have lacks := safe.operation.target
  unfold target
  split
  · exact secure.url (whole_of_lacks safe.method) (maskable_of_lacks lacks) safe.filter
  · exact Policy.secures_pure fun _ => lacks

omit secure in
theorem entries_maskable :
    ∀ entry ∈ prepared.entries, c ∉ entry.1 ∧ Maskable c password entry.2 := by
  intro entry member
  obtain ⟨parameter, isParameter, isEntry⟩ := List.mem_flatMap.mp member
  obtain ⟨value, isValue, rfl⟩ := List.mem_map.mp isEntry
  obtain ⟨lacksName, maskable⟩ := safe.body parameter isParameter
  exact ⟨lacksName, maskable value isValue⟩

end

variable {basis : Basis} (guarded : basis.Guarded c secret) (fresh : Fresh c)
  (unquoted : c ∈ basis.store.passwordText → '\'' ∉ basis.store.passwordText)
include guarded fresh unquoted

theorem complete_secures {prepared : Prepared} (safe : prepared.Safe c basis.store.passwordText)
    (secure : endpoints.Secure policy c basis.store.passwordText) :
    policy.Secures True (complete basis endpoints prepared) (Shows c) := by
  have assembled {address : Text} (lacks : c ∉ address) (payload : Option Text) :
      Shows c (assemble basis prepared address payload) :=
    ⟨safe.method, assemble_shown_lacks guarded fresh safe lacks payload unquoted⟩
  apply Policy.Secures.bind (target_secures safe secure)
  intro address
  split
  · apply Policy.Secures.bind
    · exact (elements_secures safe secure (entries_maskable safe)).weaken (fun _ => trivial)
        fun _ _ _ => trivial
    · exact fun inside => Policy.secures_pure fun holds => assembled holds.1.2 _
  · exact Policy.secures_pure fun holds => assembled holds.2 _

/-- Whatever a call comes to, a request for it or a failure, can be shown. -/
theorem build_secures {call : Call} (whole : ∀ part ∈ call.parts, Whole c basis.store.passwordText part)
    (secure : endpoints.Secure policy c basis.store.passwordText)
    (tells : ∀ {failure state}, failure.Quotes (Whole c basis.store.passwordText) →
      policy.tells failure state) :
    policy.Secures True (build basis endpoints call) (Shows c) := by
  have prepared := prepare_gives guarded whole
  unfold build
  split
  · rename_i failure failed
    rw [failed] at prepared
    exact Policy.secures_throw fun _ _ _ => tells prepared
  · rename_i ready isPrepared
    rw [isPrepared] at prepared
    exact complete_secures guarded fresh unquoted prepared secure

end

end Request

end ManagementShell
