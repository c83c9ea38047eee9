import ManagementShell.Proofs.Arithmetic
import ManagementShell.Proofs.Command.Texts
import ManagementShell.Proofs.Session.Call
import ManagementShell.Proofs.Session.Stack

/-
This file shows that commands show no secret and keep it in the password alone.
-/

namespace ManagementShell.Session
open Text Masking

variable {σ : Type} {c : Char} {secret : Text} {calm : σ → Prop} {assumed : Prop}

theorem onlyFails_secures (fresh : Fresh c) {α : Type} {cause : Failure} {guaranteed : α → Prop}
    (quotes : assumed → cause.Quotes (c ∉ ·)) :
    (policy c secret calm).Secures assumed (fail cause : Action σ α) guaranteed :=
  Policy.secures_throw fun _ _ isAssumed =>
    whole_of_lacks (Failure.message_lacks fresh (quotes isAssumed))

theorem onlyChecks_secures (fresh : Fresh c) {α : Type} {outcome : Except Failure α}
    {guaranteed : α → Prop}
    (gives : assumed → Gives outcome guaranteed fun cause => cause.Quotes (c ∉ ·)) :
    (policy c secret calm).Secures assumed (check outcome : Action σ α) guaranteed := by
  cases outcome with
  | ok value => exact Policy.secures_pure gives
  | error cause => exact onlyFails_secures fresh gives

/-- The variables are read and changed before the action goes on. -/
theorem changed_secures (fresh : Fresh c) {α β : Type} {change : Store → Except Failure α}
    {changed : α → Store} {next : α → Action σ β} {middle : α → Prop} {guaranteed : β → Prop}
    (gives : ∀ store : Store, store.Guarded c secret → assumed → Gives (change store)
      (fun result => (changed result).Guarded c secret ∧ middle result) fun cause => cause.Quotes (c ∉ ·))
    (second : ∀ result, (policy c secret calm).Secures (assumed ∧ middle result) (next result)
      guaranteed) :
    (policy c secret calm).Secures assumed (do
      let session ← get
      let result ← check (change session.store)
      set { session with store := changed result }
      next result) guaranteed := by
  intro session
  simp only [ends_bind, ends_get]
  have given := gives session.store
  cases isChange : change session.store with
  | error cause =>
      rw [isChange] at given
      exact Policy.step_of_events rfl fun good isAssumed =>
        ⟨good, whole_of_lacks (Failure.message_lacks fresh (given good.store isAssumed))⟩
  | ok result =>
      rw [isChange] at given
      refine (second result).after (Policy.step_of_events rfl fun good isAssumed => ?_)
      obtain ⟨isGuarded, holds⟩ := given good.store isAssumed
      exact ⟨⟨isGuarded, good.connection, good.response, good.frames⟩, holds⟩

section

variable (fresh : Fresh c) {name : Text} (lacksName : c ∉ name)
include fresh lacksName

theorem assign_secures {value : Text} (lacks : assumed → c ∉ value) :
    (policy c secret calm).Secures assumed (assign name value : Action σ Unit) fun _ => True :=
  changed_secures fresh
    (fun _ guarded isAssumed => Store.set_gives guarded fresh lacksName (lacks isAssumed))
    fun _ => secures_of_steady fun _ => recordAll_secures fun holds => holds.2

theorem bind_secures {value : Value} (lacks : assumed → c ∉ value.shown) :
    (policy c secret calm).Secures assumed (bind name value : Action σ Unit) fun _ => True := by
  have second (_ : Store) : (policy c secret calm).Secures (assumed ∧ True)
      (pure ⟨⟩ : Action σ Unit) fun _ => True := Policy.secures_pure fun _ => trivial
  exact changed_secures fresh (fun _ guarded isAssumed =>
    (Store.bind_gives guarded lacksName (lacks isAssumed)).weaken
      (fun _ isGuarded => ⟨isGuarded, trivial⟩) fun _ quotes => quotes) second

theorem unset_secures : (policy c secret calm).Secures assumed (unset name : Action σ Bool)
    fun _ => True := by
  have second (result : Bool × Store) : (policy c secret calm).Secures (assumed ∧ True)
      (pure result.1 : Action σ Bool) fun _ => True := Policy.secures_pure fun _ => trivial
  exact changed_secures fresh (fun _ guarded _ =>
    (Store.unset_gives guarded lacksName).weaken
      (fun _ isGuarded => ⟨isGuarded, trivial⟩) fun _ quotes => quotes) second

end

theorem clear_secures (name : Text) :
    (policy c secret calm).Secures assumed (clear name : Action σ Unit) fun _ => True :=
  Policy.secures_modify (fun _ => rfl) fun _ good _ =>
    ⟨⟨Store.clear_guarded good.store name, good.connection, good.response, good.frames⟩, trivial⟩

theorem nothingExtracted_secures (fresh : Fresh c) :
    (policy c secret calm).Secures assumed (record nothingExtracted) fun _ => True :=
  secures_of_steady fun _ => record_secures fun _ => fresh.literal (by decide)

theorem scope?_lacks {session : Session σ} (guarded : session.Guarded c secret calm)
    {scope : Element.Place} (isScope : session.scope? = some scope) : scope.element.Lacks c := by
  unfold scope? at isScope
  split at isScope
  · cases isScope
  · rename_i root isTree _
    cases isScope
    exact guarded.response.tree root isTree
  · rename_i root number isTree _
    exact Element.placeFrom_lacks _ _ _ root (guarded.response.tree root isTree) scope isScope

theorem scope_lacks {session : Session σ} (guarded : session.Guarded c secret calm) :
    ∀ place ∈ session.context.bind fun _ => session.scope?, place.element.Lacks c := by
  intro place isPlace
  obtain ⟨_, _, isScope⟩ := Option.bind_eq_some_iff.mp isPlace
  exact scope?_lacks guarded isScope

section

variable (fresh : Fresh c)
include fresh

theorem findQuery_secures {look : Text} {name : Option Text} (position : Option Nat)
    (lacks : assumed → c ∉ look) (lacksName : ∀ text ∈ name, c ∉ text) :
    (policy c secret calm).Secures assumed (findQuery look name position : Action σ (Option Match))
      fun _ => True := by
  apply Policy.Secures.andThen
  · cases name with
    | none => exact Policy.secures_pure fun _ => trivial
    | some text => exact clear_secures text
  intro _
  split
  · exact onlyFails_secures fresh lacks
  · apply Policy.Secures.bind Policy.secures_get
    intro session
    split
    · exact (nothingExtracted_secures fresh).andThen fun _ => Policy.secures_pure fun _ => trivial
    · rename_i query _ place isScope
      split
      · rename_i found text isFound
        refine Policy.Secures.andThen (bind_secures fresh (lacksName _ rfl) fun holds => ?_)
          fun _ => Policy.secures_pure fun _ => trivial
        exact Query.find?_lacks (scope?_lacks holds.2 isScope) isFound
      · exact Policy.secures_pure fun _ => trivial

variable {setting : Setting σ} (discreet : setting.Discreet c calm)
include discreet

theorem expands_secures {text : Text} (lacks : c ∉ text) :
    (policy c secret calm).Secures assumed (expand setting text) fun expanded => c ∉ expanded :=
  secures_of_steady fun _ => expand_secures discreet fresh fun _ => lacks

theorem find_secures {look : Text} {name position : Option Text} (lacks : c ∉ look)
    (lacksName : ∀ text ∈ name, c ∉ text) (lacksPosition : ∀ text ∈ position, c ∉ text) :
    (policy c secret calm).Secures assumed (find setting look name position) fun _ => True := by
  apply Policy.Secures.bind (expands_secures fresh discreet lacks)
  intro expanded
  split
  · exact findQuery_secures fresh none And.right lacksName
  · rename_i text
    apply Policy.Secures.bind (expands_secures fresh discreet (lacksPosition text rfl))
    intro number
    split
    · exact findQuery_secures fresh _ (fun holds => holds.1.2) lacksName
    · exact Policy.secures_pure fun _ => trivial

theorem findAll_secures {field name : Text} (lacks : c ∉ field) (lacksName : c ∉ name) :
    (policy c secret calm).Secures assumed (findAll setting field name) fun _ => True := by
  apply Policy.Secures.bind (expands_secures fresh discreet lacks)
  intro expanded
  apply Policy.Secures.andThen (clear_secures name)
  intro _
  apply Policy.Secures.bind Policy.secures_get
  intro session
  split
  · exact (nothingExtracted_secures fresh).andThen fun _ => Policy.secures_pure fun _ => trivial
  · rename_i place isScope
    split
    · exact Policy.secures_pure fun _ => trivial
    · refine Policy.Secures.andThen (bind_secures fresh lacksName fun holds => ?_)
        fun _ => Policy.secures_pure fun _ => trivial
      refine join_lacks (fresh.literal (by decide)) fun value isValue => ?_
      obtain ⟨found, isFound, rfl⟩ := List.mem_map.mp isValue
      exact Extraction.findAll_lacks (scope?_lacks holds.2 isScope) expanded none found isFound

omit discreet in
theorem count_secures {name : Text} (lacksName : c ∉ name) :
    (policy c secret calm).Secures assumed (count name : Action σ Bool) fun _ => True := by
  apply Policy.Secures.bind Policy.secures_get
  intro session
  have shown : c ∉ (Value.integer session.response.parts).shown :=
    ofInt_lacks fresh session.response.parts
  exact Policy.Secures.andThen (bind_secures fresh lacksName fun _ => shown)
    fun _ => Policy.secures_pure fun _ => trivial

theorem reportFilter_secures {filter : Option Text} (lacks : ∀ text ∈ filter, c ∉ text) :
    (policy c secret calm).Secures assumed (reportFilter setting filter) fun pair =>
      ∀ parts ∈ pair, c ∉ parts.1 := by
  cases filter with
  | none => exact Policy.secures_pure fun _ => by simp
  | some text =>
      apply Policy.Secures.bind (expands_secures fresh discreet (lacks text rfl))
      intro expanded
      split
      · rename_i parts isCut
        refine Policy.secures_pure fun holds => ?_
        rintro _ ⟨⟩
        exact (cut?_lacks isCut holds.2).1
      · exact onlyFails_secures fresh And.right

omit fresh discreet in
theorem fieldNames_lacks {fields : Text} (lacks : c ∉ fields) :
    ∀ name ∈ fieldNames fields, c ∉ name := by
  intro name member
  obtain ⟨part, isPart, rfl⟩ := List.mem_map.mp (List.mem_filter.mp member).1
  exact trim_lacks (splitOn_lacks lacks part isPart)

theorem report_secures {fields : Text} {filter : Option Text} (lacks : c ∉ fields)
    (lacksFilter : ∀ text ∈ filter, c ∉ text) :
    (policy c secret calm).Secures assumed (report setting fields filter) fun _ => True := by
  apply Policy.Secures.bind (expands_secures fresh discreet lacks)
  intro expanded
  apply Policy.Secures.bind (reportFilter_secures fresh discreet lacksFilter)
  intro pair
  apply Policy.Secures.bind Policy.secures_get
  intro session
  have made (lacksExpanded : c ∉ expanded) (lacksPair : ∀ parts ∈ pair, c ∉ parts.1)
      (good : session.Guarded c secret calm) :=
    Report.make_lacks fresh good.response (scope_lacks good) (fieldNames_lacks lacksExpanded) lacksPair
  apply Policy.Secures.andThen
  · exact secures_of_steady fun _ => recordAll_secures fun holds =>
      (made holds.1.1.2 holds.1.2 holds.2).2
  intro _
  split
  · rename_i text isText
    apply Policy.Secures.andThen
    · exact secures_of_steady fun _ => write_secures fun holds =>
        (made holds.1.1.2 holds.1.2 holds.2).1 text isText
    · exact fun _ => Policy.secures_pure fun _ => trivial
  · exact Policy.secures_pure fun _ => trivial

theorem holds_secures {condition : Text} (lacks : c ∉ condition) :
    (policy c secret calm).Secures assumed (holds setting condition) fun _ => True := by
  have sides {left right : Text} {expected : Bool}
      (isSides : sides? condition = some (left, right, expected)) : c ∉ left ∧ c ∉ right := by
    unfold sides? at isSides
    split at isSides <;> cases isSides <;> exact cut?_lacks (by assumption) lacks
  unfold holds
  split
  · exact onlyFails_secures fresh fun _ => lacks
  · rename_i left right expected isSides
    apply Policy.Secures.andThen
    · exact (expands_secures fresh discreet (sides isSides).1).weaken id fun _ _ _ => trivial
    intro first
    apply Policy.Secures.andThen
    · exact (expands_secures fresh discreet (sides isSides).2).weaken id fun _ _ _ => trivial
    exact fun second => Policy.secures_pure fun _ => trivial

theorem evaluate_secures {name expression : Text} (lacksName : c ∉ name) (lacks : c ∉ expression) :
    (policy c secret calm).Secures assumed (evaluate setting name expression) fun _ => True := by
  apply Policy.Secures.bind (expands_secures fresh discreet lacks)
  intro expanded
  have computed (lacksExpanded : c ∉ expanded) := Arithmetic.evaluate_lacks fresh lacksExpanded
  split
  · exact Policy.Secures.andThen (assign_secures fresh lacksName fun _ => ofInt_lacks fresh _)
      fun _ => Policy.secures_pure fun _ => trivial
  · rename_i fault isFault
    rw [isFault] at computed
    exact onlyFails_secures fresh fun holds => ⟨holds.2, computed holds.2⟩

theorem sleepFor_secures {text : Text} (lacks : c ∉ text) :
    (policy c secret calm).Secures assumed (sleepFor setting text) fun _ => True := by
  apply Policy.Secures.bind (expands_secures fresh discreet lacks)
  intro expanded
  split
  · exact Policy.Secures.andThen (secures_of_steady fun _ => sleep_secures _)
      fun _ => Policy.secures_pure fun _ => trivial
  · exact onlyFails_secures fresh And.right

omit fresh discreet in
theorem keepsFile_gives {mode : Option Text} (lacks : ∀ text ∈ mode, c ∉ text) :
    Gives (keepsFile mode) (fun _ => True) fun cause => cause.Quotes (c ∉ ·) := by
  unfold keepsFile
  split
  · trivial
  · rename_i text
    split
    · trivial
    · split
      · trivial
      · exact lacks text rfl

omit discreet in
/-- A log that is opened for adding keeps what its file held. -/
theorem openLog_secures (path : Text) {mode : Option Text}
    (lacks : assumed → ∀ text ∈ mode, c ∉ text) :
    (policy c secret calm).Secures assumed (openLog path mode : Action σ Unit) fun _ => True := by
  apply Policy.Secures.andThen
  · exact onlyChecks_secures fresh fun isAssumed => keepsFile_gives (lacks isAssumed)
  intro keeps session
  simp only [ends_bind, ends_get]
  cases isOpened : session.connection.files.openForWriting path keeps with
  | error fault =>
      have quotes : (Failure.file fault).Quotes (c ∉ ·) := trivial
      exact onlyFails_secures fresh (fun _ => quotes) session
  | ok opened =>
      refine Policy.step_of_events rfl fun good _ => ⟨?_, trivial⟩
      have files := FileTree.openForWriting_lacks good.connection.files isOpened
      exact ⟨good.store, ⟨files, good.connection.cache, good.connection.peer⟩, good.response,
        good.frames⟩

theorem expandGiven_secures {given : Option Text} (lacks : ∀ text ∈ given, c ∉ text) :
    (policy c secret calm).Secures assumed (expandGiven setting given) fun expanded =>
      ∀ text ∈ expanded, c ∉ text := by
  cases given with
  | none => exact Policy.secures_pure fun _ => by simp
  | some text =>
      intro before
      simp only [expandGiven, ends_map]
      refine (expands_secures fresh discreet (lacks text rfl) before).weaken ?_ fun _ _ step => step
      exact fun expanded after step => step.weaken fun lacksExpanded => by simpa using lacksExpanded

theorem changeLog_secures {path mode : Option Text} (lacks : ∀ text ∈ path, c ∉ text)
    (lacksMode : ∀ text ∈ mode, c ∉ text) :
    (policy c secret calm).Secures assumed (changeLog setting path mode) fun _ => True := by
  apply Policy.Secures.andThen
  · exact Policy.secures_modify (fun _ => rfl) fun _ good _ =>
      ⟨⟨good.store, good.connection, good.response, good.frames⟩, trivial⟩
  intro _
  split
  · exact Policy.secures_pure fun _ => trivial
  · rename_i text
    apply Policy.Secures.bind (expands_secures fresh discreet (lacks text rfl))
    intro expanded
    apply Policy.Secures.bind (expandGiven_secures fresh discreet lacksMode)
    intro expandedMode
    exact Policy.Secures.andThen (openLog_secures fresh expanded And.right)
      fun _ => Policy.secures_pure fun _ => trivial

/-- A frame that runs shows no secret if its script does not have it. -/
def FrameSecures (c : Char) (secret : Text) (calm : σ → Prop) (runFrame : Frame → Action σ Bool) :
    Prop :=
  ∀ frame, (policy c secret calm).Secures (frame.Lacks c) (runFrame frame) fun _ => True

variable {runFrame : Frame → Action σ Bool} (frameSecures : FrameSecures c secret calm runFrame)
include frameSecures

theorem batch_secures {path : Text} (lacks : c ∉ path) :
    (policy c secret calm).Secures assumed (batch setting runFrame path) fun _ => True := by
  apply Policy.Secures.bind (expands_secures fresh discreet lacks)
  intro expanded
  apply Policy.Secures.bind Policy.secures_get
  intro session
  apply Policy.Secures.bind
  · exact onlyChecks_secures fresh fun holds =>
      Frame.load_gives holds.2.connection.files holds.1.2 false
  · exact fun frame => (frameSecures frame).weaken And.right fun _ _ _ => trivial

omit fresh discreet frameSecures in
/-- A frame of the session is replaced by another one, and the move is noted. -/
theorem moved_secures {frame : Frame} {below : List Frame} {depth : Nat} {move : Move}
    (lacks : assumed → ∀ other ∈ frame :: below, other.Lacks c) :
    (policy c secret calm).Secures assumed (do
      modify fun session => { session with frames := frame :: below }
      emit (.moved depth move)
      pure true : Action σ Bool) fun _ => True := by
  apply Policy.Secures.andThen
  · exact Policy.secures_modify (fun _ => rfl) fun session good isAssumed =>
      ⟨⟨good.store, good.connection, good.response, lacks isAssumed⟩, trivial⟩
  intro _
  exact Policy.Secures.andThen (secures_of_steady fun _ => emit_secures fun _ _ => ⟨trivial, trivial⟩)
    fun _ => Policy.secures_pure fun _ => trivial

/-- The frames that a jump leaves come from the script that it leads to. -/
theorem jump_secures {target : Text} (lacks : c ∉ target) (isGosub : Bool) :
    (policy c secret calm).Secures assumed (jump setting runFrame target isGosub) fun _ => True := by
  apply Policy.Secures.bind Policy.secures_get
  intro session
  split
  · exact onlyFails_secures fresh fun _ => trivial
  · rename_i frame below isFrames
    have frames (good : session.Guarded c secret calm) : ∀ other ∈ frame :: below, other.Lacks c :=
      isFrames ▸ good.frames
    apply Policy.Secures.bind (expands_secures fresh discreet lacks)
    intro expanded
    have destination (lacksExpanded : c ∉ expanded) := Destination.read_lacks lacksExpanded
    split
    · rename_i path place isDestination
      rw [isDestination] at destination
      apply Policy.Secures.bind Policy.secures_get
      intro current
      apply Policy.Secures.bind (onlyChecks_secures fresh fun holds =>
        enter_gives holds.2.connection.files (destination holds.1.2).1 (destination holds.1.2).2 _)
      intro other
      split
      · exact (frameSecures other).weaken And.right fun _ _ _ => trivial
      · refine moved_secures fun holds => List.forall_mem_cons.mpr ⟨holds.2, ?_⟩
        exact (List.forall_mem_cons.mp (frames holds.1.1.1.2)).2
    · rename_i place isDestination
      rw [isDestination] at destination
      apply Policy.Secures.bind (onlyChecks_secures fresh fun holds =>
        Frame.locate_gives (frames holds.1.2 frame List.mem_cons_self) (destination holds.2))
      intro cursor
      refine moved_secures fun holds => ?_
      obtain ⟨first, rest⟩ := List.forall_mem_cons.mp (frames holds.1.1.2)
      exact List.forall_mem_cons.mpr ⟨⟨first.name, first.lines⟩, rest⟩

end

theorem leave_secures (fresh : Fresh c) :
    (policy c secret calm).Secures assumed (leave : Action σ Bool) fun _ => True := by
  have noScript : (Failure.script .noScript).Quotes (c ∉ ·) := trivial
  have noGosub : (Failure.script .returnWithoutGosub).Quotes (c ∉ ·) := trivial
  intro session
  simp only [leave, ends_bind, ends_get]
  split
  · exact onlyFails_secures fresh (fun _ => noScript) session
  · rename_i frame below isFrames
    split
    · rename_i resumed isReturned
      have noted : (policy c secret calm).Secures (assumed ∧ True)
          (do emit (.moved (below.length + 1) .leave); pure true : Action σ Bool) fun _ => True :=
        Policy.Secures.andThen (secures_of_steady fun _ => emit_secures fun _ _ => ⟨trivial, trivial⟩)
          fun _ => Policy.secures_pure fun _ => trivial
      refine noted.after (Policy.step_of_events rfl fun good _ => ⟨?_, trivial⟩)
      obtain ⟨first, rest⟩ := List.forall_mem_cons.mp (isFrames ▸ good.frames)
      exact ⟨good.store, good.connection, good.response,
        List.forall_mem_cons.mpr ⟨returned?_lacks isReturned first, rest⟩⟩
    · exact onlyFails_secures fresh (fun _ => noGosub) session

/-- The context is set back however the action ends. -/
theorem withContext_secures {action : Action σ Bool}
    (secures : (policy c secret calm).Secures assumed action fun _ => True) (number : Nat) :
    (policy c secret calm).Secures assumed (withContext number action) fun _ => True := by
  intro before
  apply withContext_ends
  have step {after : Session σ} {wanted : Prop}
      (narrowed : (policy c secret calm).Step assumed wanted { before with context := some number } after) :
      (policy c secret calm).Step assumed wanted before { after with context := none } := by
    obtain ⟨added, events, secures⟩ := narrowed
    refine ⟨added, events, fun good isAssumed careful => ?_⟩
    obtain ⟨quiet, goodAfter, holds⟩ :=
      secures ⟨good.store, good.connection, good.response, good.frames⟩ isAssumed careful
    exact ⟨quiet, ⟨goodAfter.store, goodAfter.connection, goodAfter.response, goodAfter.frames⟩, holds⟩
  exact (secures _).weaken (fun _ _ => step) (fun _ _ => step)

theorem inContext_secures {setting : Setting σ} (discreet : setting.Discreet c calm) (fresh : Fresh c)
    {look : Text} {inner : Action σ Bool} (lacks : c ∉ look)
    (secures : (policy c secret calm).Secures True inner fun _ => True) :
    (policy c secret calm).Secures assumed (inContext setting look inner) fun _ => True := by
  apply Policy.Secures.bind (expands_secures fresh discreet lacks)
  intro expanded
  apply Policy.Secures.andThen (onlyIf_secures (onlyFails_secures fresh And.right))
  intro _
  apply Policy.Secures.andThen
  · have sought (lacksExpanded : c ∉ expanded) : (policy c secret calm).Secures True
        (find setting expanded none none) fun _ => True :=
      find_secures fresh discreet lacksExpanded (by simp) (by simp)
    exact Policy.secures_of_assumed (grows_of_remains
      (remains_of_still (find_still setting expanded none none)))
      fun holds => sought holds.2
  intro found
  split
  · exact onlyFails_secures fresh And.right
  · exact withContext_secures secures.under _

end ManagementShell.Session
