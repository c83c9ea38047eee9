import ManagementShell.Proofs.Discovery
import ManagementShell.Proofs.Place
import ManagementShell.Proofs.Session.Run

/-
This file shows that the context is always a node of the last response, that the response is always
that of the last call, and that a call which fails leaves no response behind.
-/

namespace ManagementShell

/-- The event belongs to a call. -/
def Event.isRemote : Event → Bool
  | .sent _ | .called _ => true
  | _ => false

theorem Event.isRemote_of_isOutput {event : Event} (output : event.isOutput = true) :
    event.isRemote = false := by
  cases event <;> first | rfl | cases output

namespace Session

variable {σ : Type}

/-- The context, if there is one, is a node of the last response. -/
def Sound (session : Session σ) : Prop :=
  ∀ number ∈ session.context, ∃ root ∈ session.response.tree, number < root.nodes.length

/-- The response is what the peer has answered to the invocation. -/
def Answers (peer : Peer σ) (invocation : Invocation) (response : Response) : Prop :=
  ∃ files state output, (peer.answer invocation files state).1 = .ok output ∧
    response = .ofOutput output.text

/-- The response is empty, or it is the answer to the last invocation, and no call has begun since
that was sent. -/
def Current (peer : Peer σ) (session : Session σ) : Prop :=
  session.response = .empty ∨ ∃ early invocation late,
    session.connection.events = early ++ .sent invocation :: late ∧
      (∀ event ∈ late, event.isRemote = false) ∧ Answers peer invocation session.response

/-- There is neither a response nor a context. -/
structure Cleared (session : Session σ) : Prop where
  response : session.response = .empty
  context : session.context = none

theorem sound_of_none {session : Session σ} (none : session.context = none) : session.Sound := by
  intro number isContext
  rw [none] at isContext
  cases isContext

/-- In a sound state there is something to extract from whenever there is a tree. -/
theorem Sound.scope?_isSome {session : Session σ} (sound : session.Sound) :
    session.scope?.isSome = session.response.tree.isSome := by
  unfold scope?
  cases isTree : session.response.tree with
  | none => rfl
  | some root =>
      cases isContext : session.context with
      | none => rfl
      | some number =>
          obtain ⟨_, same, isNode⟩ := sound number isContext
          cases isTree.symm.trans same
          exact Element.place?_isSome isNode

/-- The scope lies in the tree of the response. -/
theorem scope?_within {session : Session σ} {place : Element.Place}
    (isScope : session.scope? = some place) :
    ∃ root ∈ session.response.tree, place.Within root.nodes.length := by
  unfold scope? at isScope
  split at isScope
  · cases isScope
  · rename_i root isTree _
    cases isScope
    exact ⟨root, isTree, Element.rootPlace_within root⟩
  · rename_i root number isTree _
    exact ⟨root, isTree, Element.place?_within isScope⟩

/-- The response stays the last one while nothing but other events are added. -/
theorem Current.goesOn {peer : Peer σ} {before after : Session σ} (current : before.Current peer)
    (response : after.response = before.response)
    (events : before.connection.Adds (fun event => event.isRemote = false) after.connection) :
    after.Current peer := by
  unfold Current
  rw [response]
  refine current.imp_right ?_
  rintro ⟨early, invocation, late, sent, none, answers⟩
  obtain ⟨added, grows, others⟩ := events
  refine ⟨early, invocation, late ++ added, by simp [grows, sent], fun event member => ?_, answers⟩
  exact (List.mem_append.mp member).elim (none event) (others event)

/-- A sound state stays sound, no context is left where there was none, and the response stays that
of the last call. -/
structure Keeps (peer : Peer σ) (before after : Session σ) : Prop where
  sound : before.Sound → after.Sound
  context : before.context = none → after.context = none
  current : before.Current peer → after.Current peer

variable {peer : Peer σ}

theorem keeps_chains : Chains (Keeps peer) where
  stay _ := ⟨id, id, id⟩
  join first second := ⟨second.sound ∘ first.sound, second.context ∘ first.context,
    second.current ∘ first.current⟩

theorem keeps_of_same {before after : Session σ} (response : after.response = before.response)
    (context : after.context = before.context)
    (events : before.connection.Adds (fun event => event.isRemote = false) after.connection) :
    Keeps peer before after := by
  refine ⟨fun sound => ?_, context.trans, fun current => current.goesOn response events⟩
  unfold Sound
  rw [response, context]
  exact sound

/-- One event that belongs to no call has been added, and the response and the context stay. -/
theorem keeps_of_event {before after : Session σ} (event : Event) (other : event.isRemote = false)
    (events : after.connection.events = before.connection.events ++ [event])
    (response : after.response = before.response) (context : after.context = before.context) :
    Keeps peer before after :=
  keeps_of_same response context ⟨[event], events, by simpa using other⟩

theorem keeps_of_cleared {before after : Session σ} (cleared : after.Cleared) :
    Keeps peer before after :=
  ⟨fun _ => sound_of_none cleared.context, fun _ => cleared.context,
    fun _ => .inl cleared.response⟩

theorem Still.keeps {before after : Session σ} (still : Still before after) :
    Keeps peer before after := by
  obtain ⟨added, grows, output⟩ := still.events
  exact keeps_of_same still.response still.context
    ⟨added, grows, fun event member => Event.isRemote_of_isOutput (output event member)⟩

theorem keeps_of_still {α : Type} {action : Action σ α} (still : Leads Still action) :
    Leads (Keeps peer) action := fun session =>
  (still session).weaken (fun _ _ step => step.keeps) (fun _ _ step => step.keeps)

/-- A match is a node of the response, and so is its parent. -/
theorem findQuery_within (look : Text) (name : Option Text) (position : Option Nat)
    (before : Session σ) :
    Ends (findQuery look name position) before
      (fun found _ => ∀ occurrence ∈ found, ∃ root ∈ before.response.tree,
        occurrence.Within root.nodes.length)
      (fun _ _ => True) := by
  rw [findQuery, ends_bind]
  refine (clearTarget_still name before).weaken (fun _ middle still => ?_) (fun _ _ _ => trivial)
  split
  · trivial
  · rename_i query _
    rw [ends_bind, ends_get]
    split
    · simp [record, emit]
    · rename_i place isScope
      obtain ⟨root, isTree, inside⟩ := scope?_within isScope
      rw [still.response] at isTree
      have within : ∀ occurrence ∈ query.find? place, occurrence.Within root.nodes.length := by
        intro occurrence isFound
        obtain ⟨limit, member⟩ := Query.find?_mem isFound
        exact Extraction.findAll_within inside _ limit occurrence member
      split
      · rename_i found name isFound
        rw [ends_bind]
        refine (ends_anything _ _).weaken (fun _ _ _ => ?_) (fun _ _ _ => trivial)
        rintro _ ⟨⟩
        exact ⟨root, isTree, within found isFound⟩
      · exact fun occurrence isFound => ⟨root, isTree, within occurrence isFound⟩

theorem find_within (setting : Setting σ) (look : Text) (name position : Option Text)
    (before : Session σ) :
    Ends (find setting look name position) before
      (fun found _ => ∀ occurrence ∈ found, ∃ root ∈ before.response.tree,
        occurrence.Within root.nodes.length)
      (fun _ _ => True) := by
  simp only [find, expand, ends_bind, ends_get, ends_pure]
  split
  · exact findQuery_within _ _ _ _
  · simp only [ends_bind, ends_get, ends_pure]
    split
    · exact findQuery_within _ _ _ _
    · simp

/-- What a context is narrowed to is a node of the response. -/
theorem sound_of_found {setting : Setting σ} {look : Text} {before after : Session σ}
    {found : Match} (finds : find setting look none none before = .ok (some found) after) :
    Sound { after with context := some (found.parent.getD found.node) } := by
  obtain ⟨root, isTree, within⟩ := ends_of_eq_ok finds (find_within setting look none none before)
    found rfl
  have still := ends_of_eq_ok finds (find_still setting look none none before)
  rintro _ ⟨⟩
  refine ⟨root, still.response ▸ isTree, ?_⟩
  cases isParent : found.parent with
  | none => exact within.node
  | some parent => exact within.parent parent isParent

/-- No context is left after the inner action, so that it has to keep nothing but the rest. -/
theorem inContext_keeps (setting : Setting σ) (look : Text) {inner : Action σ Bool}
    (keeps : Leads (Keeps peer) inner) : Leads (Keeps peer) (inContext setting look inner) := by
  apply Leads.bind keeps_chains (keeps_of_still (expand_still setting look))
  intro expanded
  apply Leads.bind keeps_chains (keeps_of_still (onlyIf_leads still_chains (fail_still _)))
  intro _
  apply Leads.bind keeps_chains (keeps_of_still (find_still setting expanded none none))
  intro found
  cases found with
  | none => exact keeps_of_still (fail_still _)
  | some found =>
      intro before
      let within := { before with context := some (found.parent.getD found.node) }
      have left {after : Session σ} (keeps : Keeps peer within after) :
          Keeps peer before { after with context := none } :=
        ⟨fun _ => sound_of_none rfl, fun _ => rfl, keeps.current⟩
      exact withContext_ends ((keeps within).weaken (fun _ _ => left) (fun _ _ => left))

theorem Still.cleared {before after : Session σ} (still : Still before after)
    (cleared : before.Cleared) : after.Cleared :=
  ⟨still.response.trans cleared.response, still.context.trans cleared.context⟩

theorem expandAll_ends (setting : Setting σ) (words : List Text) (before : Session σ) :
    Ends (expandAll setting words) before
      (fun expanded after => after = before ∧ expanded.length = words.length)
      (fun _ _ => False) := by
  induction words with
  | nil => exact ⟨rfl, rfl⟩
  | cons word rest inductionHypothesis =>
      simp only [expandAll, expandSecret, ends_bind, ends_get, ends_pure]
      refine inductionHypothesis.weaken (fun others after same => ?_) (fun _ _ never => never)
      exact ⟨same.1, by rw [List.length_cons, List.length_cons, same.2]⟩

/-- The request of a call drops the last response. -/
theorem request_clears (setting : Setting σ) {words : List Text} (named : words ≠ [])
    (before : Session σ) :
    Ends (request setting words) before (fun _ after => after.Cleared)
      (fun _ after => after.Cleared) := by
  rw [request, ends_bind]
  refine (expandAll_ends setting words before).weaken (fun expanded middle same => ?_)
    (fun _ _ never => never.elim)
  simp only [emit, ends_bind, ends_modify, ends_get]
  cases expanded with
  | nil => exact absurd (List.eq_nil_of_length_eq_zero same.2.symm) named
  | cons method arguments =>
      rw [Call.ofWords, check, ends_pure]
      refine (recordAll_ends _ _).weaken (fun _ recorded _ => ?_) (fun _ _ never => never.elim)
      rw [ends_onConnection]
      exact (ends_anything _ _).weaken (fun _ _ _ => ⟨rfl, rfl⟩) (fun _ _ _ => ⟨rfl, rfl⟩)

theorem exchange_answers (setting : Setting σ) (request : Request) (before : Session σ) :
    Ends (exchange setting request) before
      (fun response _ => Answers setting.peer request.invocation response) (fun _ _ => True) := by
  rw [exchange, ends_bind, ends_get, ends_bind]
  refine (ends_anything _ _).weaken (fun _ announced _ => ?_) (fun _ _ _ => trivial)
  rw [ends_bind]
  refine (ends_anything _ _).weaken (fun started ready _ => ?_) (fun _ _ _ => trivial)
  rw [ends_bind, ends_onConnection]
  refine (Connection.send_sends setting.peer request.invocation _).weaken
    (fun output after answered => ?_) (fun _ _ _ => trivial)
  simp only [ends_bind]
  refine (ends_anything _ _).weaken (fun _ _ _ => ?_) (fun _ _ _ => trivial)
  refine (ends_anything _ _).weaken (fun _ _ _ => ?_) (fun _ _ _ => trivial)
  refine (ends_anything _ _).weaken (fun _ _ _ => ?_) (fun _ _ _ => trivial)
  exact ⟨_, _, output, answered.1, rfl⟩

/-- The request of a call that names a method drops the last response and the context. If the call
fails then, nothing is left; otherwise its own answer is the response. -/
theorem call_ends (setting : Setting σ) {words : List Text} (named : words ≠ [])
    (before : Session σ) :
    Ends (call setting words) before
      (fun _ after => after.context = none ∧ after.Current setting.peer)
      (fun _ after => after.Cleared) := by
  rw [call, ends_bind]
  refine (request_clears setting named before).weaken (fun request middle cleared => ?_)
    (fun _ _ cleared => cleared)
  rw [ends_bind]
  refine ((exchange_exchanges setting request middle).both
    (exchange_answers setting request middle)).weaken (fun response after ends => ?_)
    (fun _ after ends => ⟨ends.1.response.trans cleared.response,
      ends.1.context.trans cleared.context⟩)
  obtain ⟨exchanges, answers⟩ := ends
  obtain ⟨early, late, events, _, output⟩ := exchanges.events
  simp only [ends_bind, ends_modify, ends_pure]
  refine ⟨exchanges.context.trans cleared.context, .inr ⟨middle.connection.events ++ early,
    request.invocation, late, by simp [events], fun event member => ?_, answers⟩⟩
  exact Event.isRemote_of_isOutput (output event member)

theorem call_keeps (setting : Setting σ) {words : List Text} (named : words ≠ []) :
    Leads (Keeps setting.peer) (call setting words) := fun before =>
  (call_ends setting named before).weaken
    (fun _ _ ends => ⟨fun _ => sound_of_none ends.1, fun _ => ends.1, fun _ => ends.2⟩)
    (fun _ _ cleared => keeps_of_cleared cleared)

/-- The induction is on the number of calls that the poll may make. -/
theorem pollRun_keeps (setting : Setting σ) {poll : Poll} (named : poll.words ≠ [])
    (started calls : Nat) : Leads (Keeps setting.peer) (Poll.run setting poll started calls) := by
  induction calls with
  | zero => exact leads_throw keeps_chains _
  | succ calls inductionHypothesis =>
      rw [pollRun_succ]
      apply Leads.bind keeps_chains (call_keeps setting named)
      intro answered
      split
      · exact leads_pure keeps_chains _
      · apply Leads.bind keeps_chains (leads_get keeps_chains)
        intro session
        split
        · exact leads_pure keeps_chains _
        · split
          · exact leads_pure keeps_chains _
          · exact Leads.bind keeps_chains (keeps_of_still (wait_still setting poll started _))
              fun _ => inductionHypothesis

theorem poll_keeps (setting : Setting σ) (calls : Nat) (condition : Text) (words : List Text) :
    Leads (Keeps setting.peer) (poll setting calls condition words) := by
  apply Leads.bind keeps_chains (keeps_of_still (expand_still setting condition))
  intro expanded
  split
  · apply Leads.bind keeps_chains (keeps_of_still (timing_still setting words))
    rintro ⟨interval, timeout, method⟩
    dsimp only
    by_cases named : method = []
    · intro before
      simpa [onlyIf, named, fail] using keeps_chains.stay before
    · apply Leads.bind keeps_chains (keeps_of_still (onlyIf_leads still_chains (fail_still _)))
      intro _
      exact Leads.bind keeps_chains (keeps_of_still (lookAtClock_still _))
        fun _ => pollRun_keeps setting named _ _
  · exact keeps_of_still (fail_still _)

section

variable {setting : Setting σ} {runFrame : Frame → Action σ Bool}
  (nested : ∀ frame, Leads (Keeps setting.peer) (runFrame frame))
include nested

theorem batch_keeps (path : Text) : Leads (Keeps setting.peer) (batch setting runFrame path) := by
  apply Leads.bind keeps_chains (keeps_of_still (expand_still setting path))
  intro expanded
  apply Leads.bind keeps_chains (leads_get keeps_chains)
  intro session
  exact Leads.bind keeps_chains (keeps_of_still (check_still _)) nested

theorem jump_keeps (target : Text) (isGosub : Bool) :
    Leads (Keeps setting.peer) (jump setting runFrame target isGosub) := by
  intro session
  apply ends_jump
  case fails => exact fun _ => keeps_chains.stay session
  case runs => exact fun _ _ other _ _ => nested other session
  case replaces =>
    exact fun _ below _ _ _ _ _ _ =>
      keeps_of_event (.moved (below.length + 1) .replace) rfl rfl rfl rfl
  case moves =>
    exact fun _ below _ _ _ _ =>
      keeps_of_event (.moved (below.length + 1) (if isGosub then .gosub else .goto)) rfl rfl rfl rfl

end

theorem leave_keeps : Leads (Keeps peer) (leave : Action σ Bool) := by
  intro session
  apply ends_leave
  case fails => exact fun _ => keeps_chains.stay session
  case leaves =>
    exact fun _ below _ _ _ => keeps_of_event (.moved (below.length + 1) .leave) rfl rfl rfl rfl

section

variable {setting : Setting σ} {calls : Nat} {runFrame : Frame → Action σ Bool}

mutual

/-- The induction is on the command: inner commands and operators are parts of it. -/
theorem execute_keeps (nested : ∀ frame, Leads (Keeps setting.peer) (runFrame frame))
    (command : Command) (wellFormed : command.isWellFormed = true) :
    Leads (Keeps setting.peer) (execute setting calls runFrame command) := by
  match command with
  | .nothing | .clear | .count _ | .find _ _ _ | .findAll _ _ | .log _ _ | .print _ | .report _ _
  | .listVariables | .assign _ _ | .evaluate _ _ | .sleep _ | .unset _ =>
      exact keeps_of_still (execute_still setting calls runFrame rfl)
  | .batch path => exact batch_keeps nested path
  | .context look inner =>
      rw [Command.isWellFormed] at wellFormed
      exact inContext_keeps setting look (execute_keeps nested inner wellFormed)
  | .gosub target => exact jump_keeps nested target true
  | .goto target => exact jump_keeps nested target false
  | .conditional condition inner =>
      rw [Command.isWellFormed] at wellFormed
      apply Leads.bind keeps_chains (keeps_of_still (holds_still setting condition))
      intro holds
      split
      · exact execute_keeps nested inner wellFormed
      · exact leads_pure keeps_chains _
  | .quit =>
      exact Leads.bind keeps_chains
        (leads_modify fun session => keeps_of_same rfl rfl ⟨[], by simp⟩)
        fun _ => leads_pure keeps_chains _
  | .leave => exact leave_keeps
  | .poll condition words => exact poll_keeps setting calls condition words
  | .invoke words condition operators =>
      have named := Command.words_of_isWellFormed wellFormed
      have operate (answered : Bool) : Leads (Keeps setting.peer)
          (if answered then executeAll setting calls runFrame operators else pure false) := by
        split
        · exact executeAll_keeps nested operators (Command.operators_of_isWellFormed wellFormed)
        · exact leads_pure keeps_chains _
      cases condition with
      | none => exact Leads.bind keeps_chains (call_keeps setting named) operate
      | some condition =>
          exact Leads.bind keeps_chains (poll_keeps setting calls condition words) operate

theorem executeAll_keeps (nested : ∀ frame, Leads (Keeps setting.peer) (runFrame frame))
    (commands : List Command)
    (wellFormed : ∀ command ∈ commands, command.isWellFormed = true) :
    Leads (Keeps setting.peer) (executeAll setting calls runFrame commands) := by
  match commands with
  | [] => exact leads_pure keeps_chains _
  | first :: rest =>
      rw [List.forall_mem_cons] at wellFormed
      apply Leads.bind keeps_chains (execute_keeps nested first wellFormed.1)
      intro succeeds
      split
      · exact executeAll_keeps nested rest wellFormed.2
      · exact leads_pure keeps_chains _

end

end

/-- What holds after an action and stays true when a failure is reported, holds after the line. -/
theorem settle_ends {holds : Session σ → Prop}
    (reports : ∀ message {before}, holds before →
      Ends (reportFailure message) before (fun _ after => holds after) fun _ after => holds after)
    {action : Action σ Bool} {before : Session σ}
    (ends : Ends action before (fun _ after => holds after) fun _ after => holds after)
    (name : Text) (ignoresFailure : Bool) :
    Ends (settle name ignoresFailure action) before (fun _ after => holds after)
      fun _ after => holds after := by
  rw [ends_settle]
  refine ends.weaken (fun outcome after reached => ?_) (fun halt after reached => ?_)
  · cases outcome with
    | true => exact reached
    | false => exact reports _ reached
  · cases halt with
    | failed cause => exact reports _ reached
    | exhausted => exact reached

/-- Reporting a failure shows something, and that is all. -/
theorem settle_leads {relation : Session σ → Session σ → Prop} (chains : Chains relation)
    (reports : ∀ message, Leads relation (reportFailure message : Action σ Unit))
    {action : Action σ Bool} (leads : Leads relation action) (name : Text)
    (ignoresFailure : Bool) : Leads relation (settle name ignoresFailure action) := fun before =>
  settle_ends (fun message _ reached => (reports message).after chains reached) (leads before) name
    ignoresFailure

section

variable {setting : Setting σ}

theorem executeLine_keeps {calls : Nat} {runFrame : Frame → Action σ Bool}
    (nested : ∀ frame, Leads (Keeps setting.peer) (runFrame frame)) (text : Text) :
    Leads (Keeps setting.peer) (executeLine setting calls runFrame text) := by
  intro before
  simp only [executeLine, ends_bind, ends_get]
  have reports (message : Text) :
      Leads (Keeps setting.peer) (reportFailure message : Action σ Unit) :=
    keeps_of_still (reportFailure_still message)
  split
  · exact Leads.bind keeps_chains (reports _) (fun _ => leads_pure keeps_chains _) before
  · rename_i line read
    have wellFormed := gives_of_eq_ok read (Line.read_isWellFormed _ _)
    have executes : Leads (Keeps setting.peer) (execute setting calls runFrame line.command) :=
      execute_keeps nested line.command wellFormed
    exact Leads.bind keeps_chains
      (keeps_of_still (onlyIf_leads still_chains (echo_still setting text)))
      (fun _ => settle_leads keeps_chains reports executes _ _) before

theorem begin_keeps (frame : Frame) (below : List Frame) :
    Leads (Keeps peer) (begin frame below : Action σ Unit) := fun _ =>
  keeps_of_event (.line (below.length + 1) frame) rfl rfl rfl rfl

theorem turn_keeps {line : Text → Action σ Bool} (keeps : ∀ text, Leads (Keeps peer) (line text))
    (base : Nat) : Leads (Keeps peer) (turn line base) := by
  apply Leads.bind keeps_chains (leads_get keeps_chains)
  intro session
  split
  · exact leads_pure keeps_chains _
  · split
    · exact leads_pure keeps_chains _
    · split
      · exact leads_pure keeps_chains _
      · apply Leads.bind keeps_chains (begin_keeps _ _)
        intro _
        apply Leads.bind keeps_chains (keeps _)
        intro succeeds
        split
        · exact leads_pure keeps_chains _
        · exact leads_pure keeps_chains _

theorem drive_keeps {line : Text → Action σ Bool} (keeps : ∀ text, Leads (Keeps peer) (line text))
    (base count : Nat) : Leads (Keeps peer) (drive line base count) := by
  induction count with
  | zero => exact leads_throw keeps_chains _
  | succ count inductionHypothesis =>
      apply Leads.bind keeps_chains (turn_keeps keeps base)
      rintro (_ | outcome)
      · exact inductionHypothesis
      · exact leads_pure keeps_chains _

/-- Every frame keeps the context sound; the induction is on the bound of the depth of frames. -/
theorem runFrame_keeps (bound : Nat) (frame : Frame) :
    Leads (Keeps setting.peer) (runFrame setting bound frame) := by
  induction bound generalizing frame with
  | zero => exact leads_throw keeps_chains _
  | succ bound inductionHypothesis =>
      intro before
      have lines (text : Text) :
          Leads (Keeps setting.peer) (executeLine setting bound (runFrame setting bound) text) :=
        executeLine_keeps inductionHypothesis text
      have drives := drive_keeps lines before.frames.length bound
      exact inFrame_ends ((drives _).weaken
        (fun _ _ keeps => ⟨keeps.sound, keeps.context, keeps.current⟩)
        (fun _ _ keeps => ⟨keeps.sound, keeps.context, keeps.current⟩))

theorem runLine_keeps (bound : Nat) (text : Text) :
    Leads (Keeps setting.peer) (runLine setting bound text) :=
  executeLine_keeps (runFrame_keeps bound) text

end

end Session

end ManagementShell
