import ManagementShell.Proofs.Session.Commands
import ManagementShell.Proofs.Session.Run

/-
This file shows that no run of lines and scripts shows a character of the password, as long as calls
do not tear the password apart and no payload has it.
-/

namespace ManagementShell.Session
open Text Masking

variable {σ : Type} {c : Char} {secret : Text} {calm : σ → Prop} {assumed : Prop}

section

variable {setting : Setting σ} {calls : Nat} {runFrame : Frame → Action σ Bool}

mutual

/-- The induction is on the command: inner commands and operators are parts of it. -/
theorem execute_secures (discreet : setting.Discreet c calm) (fresh : Fresh c)
    (unquoted : '\'' ∉ secret) (frameSecures : FrameSecures c secret calm runFrame)
    (command : Command) (lacks : command.Lacks c) :
    (policy c secret calm).Secures True (execute setting calls runFrame command) fun _ => True := by
  have succeeds {assumed : Prop} : (policy c secret calm).Secures assumed
      (pure true : Action σ Bool) fun _ => True := Policy.secures_pure fun _ => trivial
  have ends : c ∉ ("\n" : Text) := fresh.literal (by decide)
  match command with
  | .nothing => exact succeeds
  | .batch path => exact batch_secures fresh discreet frameSecures lacks
  | .clear =>
      apply Policy.Secures.andThen
      · exact secures_of_steady fun _ => emit_secures fun _ _ =>
          ⟨fresh.literal (by decide), trivial⟩
      · exact fun _ => succeeds
  | .context look inner =>
      exact inContext_secures discreet fresh lacks.1
        (execute_secures discreet fresh unquoted frameSecures inner lacks.2)
  | .count name => exact count_secures fresh lacks
  | .find look name position =>
      exact Policy.Secures.andThen (find_secures fresh discreet lacks.1 lacks.2.1 lacks.2.2)
        fun _ => Policy.secures_pure fun _ => trivial
  | .findAll field name => exact findAll_secures fresh discreet lacks.1 lacks.2
  | .gosub target => exact jump_secures fresh discreet frameSecures lacks true
  | .goto target => exact jump_secures fresh discreet frameSecures lacks false
  | .conditional condition inner =>
      apply Policy.Secures.andThen (holds_secures fresh discreet lacks.1)
      intro holds
      split
      · exact execute_secures discreet fresh unquoted frameSecures inner lacks.2
      · exact succeeds
  | .log path mode => exact changeLog_secures fresh discreet lacks.1 lacks.2
  | .print text =>
      apply Policy.Secures.bind (expands_secures fresh discreet lacks)
      intro expanded
      apply Policy.Secures.andThen
      · refine secures_of_steady fun _ => write_secures fun holds => ?_
        rw [List.mem_append, not_or]
        exact ⟨holds.2, ends⟩
      · exact fun _ => succeeds
  | .quit =>
      apply Policy.Secures.andThen
      · exact Policy.secures_modify (fun _ => rfl) fun _ good _ =>
          ⟨⟨good.store, good.connection, good.response, good.frames⟩, trivial⟩
      · exact fun _ => succeeds
  | .report fields filter => exact report_secures fresh discreet lacks.1 lacks.2
  | .leave => exact leave_secures fresh
  | .listVariables =>
      apply Policy.Secures.bind Policy.secures_get
      intro session
      apply Policy.Secures.andThen
      · refine secures_of_steady fun _ => write_secures fun holds => ?_
        rw [List.mem_append, not_or]
        exact ⟨join_lacks ends (Store.listing_lacks holds.2.store fresh), ends⟩
      · exact fun _ => succeeds
  | .assign name value =>
      apply Policy.Secures.bind (expands_secures fresh discreet lacks.2)
      intro expanded
      exact Policy.Secures.andThen (assign_secures fresh lacks.1 And.right) fun _ => succeeds
  | .evaluate name expression => exact evaluate_secures fresh discreet lacks.1 lacks.2
  | .sleep seconds => exact sleepFor_secures fresh discreet lacks
  | .unset name => exact unset_secures fresh lacks
  | .poll condition words =>
      exact secures_of_steady fun _ => poll_secures discreet fresh unquoted calls lacks.1 lacks.2
  | .invoke words condition operators =>
      have operate (answered : Bool) : (policy c secret calm).Secures True
          (if answered then executeAll setting calls runFrame operators else pure false)
          fun _ => True := by
        split
        · exact executeAll_secures discreet fresh unquoted frameSecures operators lacks.2.2
        · exact Policy.secures_pure fun _ => trivial
      cases condition with
      | none =>
          exact Policy.Secures.andThen (secures_of_steady fun _ =>
            call_secures discreet fresh unquoted lacks.1) operate
      | some condition =>
          exact Policy.Secures.andThen (secures_of_steady fun _ =>
            poll_secures discreet fresh unquoted calls (lacks.2.1 condition rfl) lacks.1) operate

theorem executeAll_secures (discreet : setting.Discreet c calm) (fresh : Fresh c)
    (unquoted : '\'' ∉ secret) (frameSecures : FrameSecures c secret calm runFrame)
    (commands : List Command) (lacks : Command.AllLack c commands) :
    (policy c secret calm).Secures True (executeAll setting calls runFrame commands)
      fun _ => True := by
  match commands with
  | [] => exact Policy.secures_pure fun _ => trivial
  | first :: rest =>
      apply Policy.Secures.andThen
      · exact execute_secures discreet fresh unquoted frameSecures first lacks.1
      intro succeeds
      split
      · exact executeAll_secures discreet fresh unquoted frameSecures rest lacks.2
      · exact Policy.secures_pure fun _ => trivial

end

end

section

variable {setting : Setting σ} (discreet : setting.Discreet c calm) (fresh : Fresh c)
include discreet fresh

variable (unquoted : '\'' ∉ secret) {runFrame : Frame → Action σ Bool}
  (frameSecures : FrameSecures c secret calm runFrame)
include unquoted frameSecures

end

section

variable (fresh : Fresh c) {line : Text → Action σ Bool}
  (lineSecures : ∀ text, (policy c secret calm).Secures (c ∉ text) (line text) fun _ => True)
include fresh lineSecures

end

theorem Passes.grows {passed : List Step} {before after : Session σ}
    (passes : before.Passes passed after) : Grows before after :=
  passes.events.imp fun _ => And.left

def Input.Lacks (c : Char) : Input → Prop
  | .typed line => c ∉ line
  | .source name text => c ∉ name ∧ c ∉ text
  | .script path => c ∉ path

section

variable {setting : Setting σ}

variable (discreet : setting.Discreet c calm) (fresh : Fresh c) (unquoted : '\'' ∉ secret)
include discreet fresh unquoted

end

/-- Two methods take a key: one in its selectors, the other one in its payload. -/
def keyed : Setting (List (Except Text Text)) :=
  { Setting.plain with
    catalog := [("idrac", [
      ("GetKey", { verb := .get, target := "http://h", selectors := [("Key", {})] }),
      ("SetKey", { verb := .invoke, target := "http://h", body := [("Key", ⟨none, some (.list [])⟩)] })])] }

end ManagementShell.Session
