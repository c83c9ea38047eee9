import ManagementShell.Proofs.Session.Scope

/-
This file follows a session through everything that it runs, however deep that is nested, and shows
that there is never anything else to extract from than the response to the last call.
-/

namespace ManagementShell.Session
open Text

variable {σ : Type}

/-- What a session can be busy with. The bound is that of the frames, the steps and the calls. -/
inductive Task where
  | runFrame (bound : Nat) (frame : Frame)
  | runLine (bound : Nat) (text : Text)
  | execute (bound : Nat) (command : Command)
  | executeAll (bound : Nat) (commands : List Command)
  | poll (bound : Nat) (condition : Text) (words : List Text)
  /-- A poll that began at a time may still make a number of calls. -/
  | pollOn (current : Poll) (started calls : Nat)
  | call (words : List Text)

namespace Task

def run (setting : Setting σ) : Task → Action σ Bool
  | .runFrame bound frame => Session.runFrame setting bound frame
  | .runLine bound text => Session.runLine setting bound text
  | .execute bound command =>
      Session.execute setting bound (Session.runFrame setting bound) command
  | .executeAll bound commands =>
      Session.executeAll setting bound (Session.runFrame setting bound) commands
  | .poll bound condition words => Session.poll setting bound condition words
  | .pollOn current started calls => current.run setting started calls
  | .call words => Session.call setting words

/-- A method is called once, or until a condition holds. -/
def ofInvoke (bound : Nat) (words : List Text) : Option Text → Task
  | some condition => .poll bound condition words
  | none => .call words

/-- Every call that the task makes names a method. -/
def NamesMethods : Task → Prop
  | .execute _ command => command.isWellFormed = true
  | .executeAll _ commands => ∀ command ∈ commands, command.isWellFormed = true
  | .pollOn current _ _ => current.words ≠ []
  | .call words => words ≠ []
  | _ => True

end Task

theorem Task.ofInvoke_named (bound : Nat) (condition : Option Text) {words : List Text}
    (named : words ≠ []) : (Task.ofInvoke bound words condition).NamesMethods := by
  cases condition with
  | some condition => trivial
  | none => exact named

/-- A task, and the state in which it begins. -/
structure Stage (σ : Type) where
  task : Task
  before : Session σ

/-- The second stage is a step on the way of the first one: the session comes to it while it is busy
with the first one's task. -/
inductive Part (setting : Setting σ) : Stage σ → Stage σ → Prop
  | line {bound frame before head innermost below text begun}
      (isHead : FrameHeads setting (bound + 1) frame before head) (goesOn : head.quits = false)
      (running : head.frames = innermost :: below)
      (isLine : innermost.lines[innermost.cursor]? = some text)
      (begins : begin innermost below head = .ok () begun) :
      Part setting ⟨.runFrame (bound + 1) frame, before⟩ ⟨.runLine bound text, begun⟩
  | command {bound text before line ready}
      (reads : Line.read before.connection.files.isFile text = .ok line)
      (echoes : onlyIf (!line.command.isNothing ∧ callLevel < before.store.verbosityLevel)
        (echo setting text) before = .ok () ready) :
      Part setting ⟨.runLine bound text, before⟩ ⟨.execute bound line.command, ready⟩
  | batch {bound path before expanded ready frame}
      (expands : expand setting path before = .ok expanded ready)
      (loads : Frame.load ready.connection.files expanded false = .ok frame) :
      Part setting ⟨.execute bound (.batch path), before⟩ ⟨.runFrame bound frame, ready⟩
  | gosub {bound target before running below expanded ready path place frame}
      (runs : before.frames = running :: below)
      (expands : expand setting target before = .ok expanded ready)
      (leads : Destination.read expanded = .script path place)
      (enters : enter ready.connection.files path place true = .ok frame) :
      Part setting ⟨.execute bound (.gosub target), before⟩ ⟨.runFrame bound frame, ready⟩
  | context {bound look inner before expanded ready found after}
      (expands : expand setting look before = .ok expanded ready)
      (isCondition : (splitOn expanded '=').length = 2)
      (finds : find setting expanded none none ready = .ok (some found) after) :
      Part setting ⟨.execute bound (.context look inner), before⟩
        ⟨.execute bound inner, { after with context := some (found.parent.getD found.node) }⟩
  | conditional {bound condition inner before ready}
      (isTrue : holds setting condition before = .ok true ready) :
      Part setting ⟨.execute bound (.conditional condition inner), before⟩
        ⟨.execute bound inner, ready⟩
  | poll {bound condition words before} :
      Part setting ⟨.execute bound (.poll condition words), before⟩
        ⟨.poll bound condition words, before⟩
  | invoke {bound words condition operators before} :
      Part setting ⟨.execute bound (.invoke words condition operators), before⟩
        ⟨.ofInvoke bound words condition, before⟩
  | operators {bound words condition operators before after}
      (answers : (Task.ofInvoke bound words condition).run setting before = .ok true after) :
      Part setting ⟨.execute bound (.invoke words condition operators), before⟩
        ⟨.executeAll bound operators, after⟩
  | first {bound command rest before} :
      Part setting ⟨.executeAll bound (command :: rest), before⟩ ⟨.execute bound command, before⟩
  | rest {bound command rest before after}
      (succeeds : (Task.execute bound command).run setting before = .ok true after) :
      Part setting ⟨.executeAll bound (command :: rest), before⟩ ⟨.executeAll bound rest, after⟩
  | pollOn {bound condition words before expanded ready field value interval timeout method timed
        started begun}
      (expands : expand setting condition before = .ok expanded ready)
      (isCondition : splitOn expanded '=' = [field, value])
      (times : timing setting words ready = .ok (interval, timeout, method) timed)
      (named : method ≠ [])
      (starts : lookAtClock setting.clock timed = .ok started begun) :
      Part setting ⟨.poll bound condition words, before⟩
        ⟨.pollOn ⟨field, value, interval, timeout, method⟩ started bound, begun⟩
  | call {current started calls before} :
      Part setting ⟨.pollOn current started (calls + 1), before⟩ ⟨.call current.words, before⟩
  | again {current started calls before answered root ready}
      (answers : Session.call setting current.words before = .ok true answered)
      (isTree : answered.response.tree = some root)
      (differs : current.query.find? root.rootPlace = none)
      (waits : current.wait setting started root answered = .ok () ready) :
      Part setting ⟨.pollOn current started (calls + 1), before⟩
        ⟨.pollOn current started calls, ready⟩

/-- What an input runs; nothing if its script cannot be loaded. -/
def Input.task? (bound : Nat) (files : FileTree) : Input → Option Task
  | .typed line => some (.runLine bound line)
  | .source name text => some (.runFrame bound (.ofSource name text false))
  | .script path => match Frame.load files path false with
    | .ok frame => some (.runFrame bound frame)
    | .error _ => none

/-- The session comes to the stage while it runs one of the inputs. -/
inductive Reached (setting : Setting σ) (bound : Nat) (first : Session σ) (inputs : List Input) :
    Stage σ → Prop
  | input {early late : List Input} {input : Input} {task : Task}
      (isInput : inputs = early ++ input :: late)
      (runs : task ∈ input.task? bound (afterAll setting bound first early).connection.files) :
      Reached setting bound first inputs ⟨task, afterAll setting bound first early⟩
  | part {whole stage : Stage σ} (reached : Reached setting bound first inputs whole)
      (part : Part setting whole stage) : Reached setting bound first inputs stage

/-- The context is a node of the response, and the response is that of the last call. -/
structure Consistent (peer : Peer σ) (session : Session σ) : Prop where
  sound : session.Sound
  current : session.Current peer

theorem Keeps.consistent {peer : Peer σ} {before after : Session σ}
    (keeps : Keeps peer before after) (consistent : before.Consistent peer) :
    after.Consistent peer :=
  ⟨keeps.sound consistent.sound, keeps.current consistent.current⟩

theorem Cleared.consistent {peer : Peer σ} {session : Session σ} (cleared : session.Cleared) :
    session.Consistent peer := ⟨sound_of_none cleared.context, .inl cleared.response⟩

section

variable {setting : Setting σ}

/-- A task that names its methods keeps the context and the response in order. -/
theorem Task.run_keeps {task : Task} (named : task.NamesMethods) :
    Leads (Keeps setting.peer) (task.run setting) := by
  cases task with
  | runFrame bound frame => exact runFrame_keeps bound frame
  | runLine bound text => exact runLine_keeps bound text
  | execute bound command => exact execute_keeps (runFrame_keeps bound) command named
  | executeAll bound commands => exact executeAll_keeps (runFrame_keeps bound) commands named
  | poll bound condition words => exact poll_keeps setting bound condition words
  | pollOn current started calls => exact pollRun_keeps setting named started calls
  | call words => exact call_keeps setting named

theorem FrameHeads.keeps {bound : Nat} {frame : Frame} {before head : Session σ}
    (isHead : FrameHeads setting bound frame before head) : Keeps setting.peer before head := by
  cases bound with
  | zero => exact isHead.elim
  | succ bound =>
      induction isHead with
      | first => exact keeps_of_same rfl rfl ((Connection.adds_chains _).stay _)
      | next _ turned inductionHypothesis =>
          exact keeps_chains.join inductionHypothesis
            ((turn_keeps (runLine_keeps bound) _).relates turned)

/-- What a stage begins with, and what its steps need to name their methods, its steps have too. -/
theorem Part.consistent {whole stage : Stage σ} (part : Part setting whole stage)
    (named : whole.task.NamesMethods) (consistent : whole.before.Consistent setting.peer) :
    stage.task.NamesMethods ∧ stage.before.Consistent setting.peer := by
  cases part with
  | line isHead goesOn running isLine begins =>
      have keeps := keeps_chains.join isHead.keeps ((begin_keeps _ _).relates begins)
      exact ⟨trivial, keeps.consistent consistent⟩
  | command reads echoes =>
      have still := (onlyIf_leads still_chains (echo_still _ _)).relates echoes
      have wellFormed := gives_of_eq_ok reads (Line.read_isWellFormed _ _)
      exact ⟨wellFormed, still.keeps.consistent consistent⟩
  | batch expands _ =>
      exact ⟨trivial, ((expand_still _ _).relates expands).keeps.consistent consistent⟩
  | gosub _ expands _ _ =>
      exact ⟨trivial, ((expand_still _ _).relates expands).keeps.consistent consistent⟩
  | context expands _ finds =>
      have still := still_chains.join ((expand_still _ _).relates expands)
        ((find_still _ _ _ _).relates finds)
      simp only [Task.NamesMethods, Command.isWellFormed] at named
      exact ⟨named, sound_of_found finds, (still.keeps.consistent consistent).current⟩
  | conditional isTrue =>
      simp only [Task.NamesMethods, Command.isWellFormed] at named
      exact ⟨named, ((holds_still _ _).relates isTrue).keeps.consistent consistent⟩
  | poll => exact ⟨trivial, consistent⟩
  | invoke => exact ⟨Task.ofInvoke_named _ _ (Command.words_of_isWellFormed named), consistent⟩
  | operators answers =>
      have keeps := (Task.run_keeps (Task.ofInvoke_named _ _
        (Command.words_of_isWellFormed named))).relates answers
      exact ⟨Command.operators_of_isWellFormed named, keeps.consistent consistent⟩
  | first => exact ⟨named _ List.mem_cons_self, consistent⟩
  | @rest bound command _ _ _ succeeds =>
      have first : (Task.execute bound command).NamesMethods := named _ List.mem_cons_self
      exact ⟨fun command member => named command (.tail _ member),
        ((Task.run_keeps first).relates succeeds).consistent consistent⟩
  | pollOn expands _ times isNamed starts =>
      have still := still_chains.join ((expand_still _ _).relates expands)
        (still_chains.join ((timing_still _ _).relates times)
          ((lookAtClock_still _).relates starts))
      exact ⟨isNamed, still.keeps.consistent consistent⟩
  | call => exact ⟨named, consistent⟩
  | again answers _ _ waits =>
      have keeps := keeps_chains.join ((call_keeps setting named).relates answers)
        ((wait_still _ _ _ _).relates waits).keeps
      exact ⟨named, keeps.consistent consistent⟩

/-- A script is run if it can be loaded. -/
theorem Input.task?_script {bound : Nat} {files : FileTree} {path : Text} {task : Task} :
    task ∈ (Input.script path).task? bound files ↔
      ∃ frame, Frame.load files path false = .ok frame ∧ task = .runFrame bound frame := by
  rw [Input.task?]
  cases Frame.load files path false with
  | error fault => simp
  | ok frame => simp [eq_comm]

theorem Input.task?_named {bound : Nat} {files : FileTree} {input : Input} {task : Task}
    (runs : task ∈ input.task? bound files) : task.NamesMethods := by
  cases input with
  | typed | source =>
      cases runs
      trivial
  | script path =>
      obtain ⟨frame, -, rfl⟩ := Input.task?_script.mp runs
      trivial

theorem input_keeps (bound : Nat) (input : Input) :
    Leads (Keeps setting.peer) (input.run setting bound) := by
  cases input with
  | typed line => exact runLine_keeps bound line
  | source name text => exact runFrame_keeps bound _
  | script path =>
      apply Leads.bind keeps_chains (leads_get keeps_chains)
      intro session
      split
      · exact runFrame_keeps bound _
      · exact Leads.bind keeps_chains (keeps_of_still (emit_still rfl)) fun _ =>
          leads_pure keeps_chains _

theorem afterAll_keeps (bound : Nat) (first : Session σ) (inputs : List Input) :
    Keeps setting.peer first (afterAll setting bound first inputs) :=
  afterAll_relates keeps_chains (input_keeps bound) first inputs

/-- The induction is on the way to the stage. -/
theorem Reached.consistent {bound : Nat} {first : Session σ} {inputs : List Input}
    {stage : Stage σ} (reached : Reached setting bound first inputs stage)
    (cleared : first.Cleared) :
    stage.task.NamesMethods ∧ stage.before.Consistent setting.peer := by
  induction reached with
  | input _ runs =>
      exact ⟨Input.task?_named runs, (afterAll_keeps _ _ _).consistent cleared.consistent⟩
  | part _ part inductionHypothesis =>
      exact part.consistent inductionHypothesis.1 inductionHypothesis.2

/-- The stage begins and ends consistently, can extract from every tree, leaves no context where
there was none, and leaves neither a response nor a context if it is a call that fails. -/
structure Stage.Careful (setting : Setting σ) (stage : Stage σ) : Prop where
  before : stage.before.Consistent setting.peer
  scope : stage.before.scope?.isSome = stage.before.response.tree.isSome
  after : Ends (stage.task.run setting) stage.before (fun _ after => after.Consistent setting.peer)
    fun _ after => after.Consistent setting.peer
  context : stage.before.context = none → Ends (stage.task.run setting) stage.before
    (fun _ after => after.context = none) fun _ after => after.context = none
  failed : ∀ words cause after, stage.task = .call words →
    call setting words stage.before = .error cause after → after.Cleared

theorem Stage.careful {stage : Stage σ} (named : stage.task.NamesMethods)
    (consistent : stage.before.Consistent setting.peer) : stage.Careful setting := by
  have keeps : Leads (Keeps setting.peer) (stage.task.run setting) := Task.run_keeps named
  refine ⟨consistent, consistent.sound.scope?_isSome, ?_, fun none => ?_,
    fun words cause after isCall failed => ?_⟩
  · exact (keeps _).weaken (fun _ _ keeps => keeps.consistent consistent)
      (fun _ _ keeps => keeps.consistent consistent)
  · exact (keeps _).weaken (fun _ _ keeps => keeps.context none)
      (fun _ _ keeps => keeps.context none)
  · rw [isCall] at named
    exact ends_of_eq_error failed (call_ends setting named stage.before)

/-- Whatever inputs are run, no context is left after the last one, and whatever a session comes to
while it runs them, it extracts from nodes of the response to its last call only. -/
theorem afterAll_consistent (setting : Setting σ) (bound : Nat) {first : Session σ}
    (cleared : first.Cleared) (inputs : List Input) :
    (afterAll setting bound first inputs).context = none ∧
      ∀ stage, Reached setting bound first inputs stage → stage.Careful setting := by
  refine ⟨(afterAll_keeps bound first inputs).context cleared.context, fun stage reached => ?_⟩
  obtain ⟨named, consistent⟩ := reached.consistent cleared
  exact Stage.careful named consistent

end

/-- This setting has one method. -/
def described : Setting (List (Except Text Text)) :=
  { Setting.plain with
    catalog := [("idrac", [("GetKey", { verb := .get, target := "http://h" })])] }

def quietDefaults : Defaults := { verbosity := 0 }

/-- The first call in this session will be answered. -/
def answered : Session (List (Except Text Text)) :=
  { start quietDefaults [.ok "<a><b>1</b></a>"] ⟨[], []⟩ with
    store := (Store.ofDefaults quietDefaults).put Variable.host (.text "h") }

/-- A call of an unknown method, in a context that an earlier call has given. -/
theorem afterAll_consistent_unknown :
    ∃ before, Reached described 3 answered [.typed "GetKey", .typed "Context b=1 Nope"]
        ⟨.call ["Nope"], before⟩ ∧ before.context = some 0 ∧ before.response.tree.isSome = true ∧
      ∃ cause after, call described ["Nope"] before = .error cause after ∧ after.Cleared := by
  have cleared : answered.Cleared := ⟨rfl, rfl⟩
  let between := afterAll described 3 answered [.typed "GetKey"]
  have typed : Reached described 3 answered [.typed "GetKey", .typed "Context b=1 Nope"]
      ⟨.runLine 3 "Context b=1 Nope", between⟩ := .input rfl rfl
  have reads : Line.read between.connection.files.isFile "Context b=1 Nope" =
      .ok ⟨false, .context "b=1" (.invoke ["Nope"] none [])⟩ := rfl
  have silent : ¬callLevel < between.store.verbosityLevel := by decide +kernel
  have read := Reached.part typed (.command reads
    (congrFun (if_neg fun shown => silent shown.2) between))
  have same : between.store.expand (between.date described.clock) "b=1" = "b=1" := by
    decide +kernel
  have expands : expand described "b=1" between = .ok "b=1" between :=
    congrArg (fun text => EStateM.Result.ok text between) same
  have finds : outcome (find described "b=1" none none between) = .ok (some ⟨"1", 1, some 0⟩) := by
    decide +kernel
  have narrowed := Reached.part read (.context expands rfl (eq_ok_of_outcome finds))
  let before := { finalState (find described "b=1" none none between) with context := some 0 }
  have reached : Reached described 3 answered [.typed "GetKey", .typed "Context b=1 Nope"]
      ⟨.call ["Nope"], before⟩ := .part narrowed .invoke
  have isTree : before.response.tree.isSome = true := by decide +kernel
  have fails : outcome (call described ["Nope"] before) =
      .error (.failed (.unknownMethod "Nope")) := by decide +kernel
  have ran := eq_error_of_outcome fails
  have careful := (afterAll_consistent described 3 cleared _).2 _ reached
  exact ⟨before, reached, rfl, isTree, _, _, ran, careful.failed _ _ _ rfl ran⟩
end ManagementShell.Session
