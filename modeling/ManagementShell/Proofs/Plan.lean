import ManagementShell.Plan
import ManagementShell.Proofs.Host

/-
This file shows that the items of a session for one host are sorted into the plan that they were
written from.
-/

namespace ManagementShell.Plan
open Text

def presetItem (preset : Text × Text) : Text := preset.1 ++ "=" ++ preset.2

def isHost (preset : Text × Text) : Bool := preset.1 == hostName

/-- The hosts that the plan itself has as presets. -/
def ownHosts (plan : Plan) : List Text := (plan.presets.filter isHost).map Prod.snd

/-- The plan of a session for one of the hosts. Later presets win, so that the host comes after the
hosts that the plan itself has. -/
def forHost (plan : Plan) (host : Text) (quits : Bool) : Plan where
  hosts := []
  presets := (plan.presets.filter isHost).reverse ++
    (hostName, host) :: plan.presets.filter (!isHost ·)
  commands := plan.commands
  scripts := plan.scripts
  quits := quits

/-- A host that an item can give on its own: it names no file and has no comma in it. -/
structure IsUsable (files : FileTree) (host : Text) : Prop where
  noFile : files.isFile host = false
  noComma : ',' ∉ host

/-- The parts of a plan, each written as an item, are sorted where they stand. -/
structure Sorted (files : FileTree) (plan : Plan) : Prop where
  hosts : ∀ host ∈ plan.hosts, Host.Canonical host
  ownHosts : ∀ preset ∈ plan.presets, isHost preset = true → Host.Canonical preset.2
  presets : ∀ preset ∈ plan.presets, preset? (presetItem preset) = some preset
  commands : ∀ command ∈ plan.commands, preset? command = none ∧ files.isFile command = false
  scripts : ∀ script ∈ plan.scripts, preset? script = none ∧ files.isFile script = true

variable {files : FileTree} {plan : Plan}

theorem preset?_written {item : Text} {preset : Text × Text} (isPreset : preset? item = some preset) :
    presetItem preset = item := by
  unfold preset? at isPreset
  split at isPreset
  · rename_i name value isCut
    split at isPreset
    · cases isPreset
      rw [((cut?_eq_some '=').mp isCut).1, presetItem, List.append_assoc]
      rfl
    · cases isPreset
  · cases isPreset

theorem preset?_hostItem {host : Text} (nonempty : host ≠ []) :
    preset? (hostItem host) = some (hostName, host) := by
  have absent : '=' ∉ hostName := by decide
  have isCut : cut? (hostItem host) "=" = some (hostName, host) := cut?_append absent
  rw [preset?, isCut]
  exact if_pos ⟨by decide, nonempty, by decide⟩

theorem Sorted.addHosts (sorted : Sorted files plan) (value : Text) {found : Host.Found}
    (canonical : found.AllCanonical) : Sorted files (plan.addHosts value found).1 := by
  unfold Plan.addHosts
  split
  · exact sorted
  · rename_i host isOne
    have isCanonical : Host.Canonical host := canonical host (by simp [isOne])
    refine { sorted with ownHosts := ?_, presets := ?_ }
    · exact List.forall_mem_cons.mpr ⟨fun _ => isCanonical, sorted.ownHosts⟩
    · exact List.forall_mem_cons.mpr
        ⟨preset?_hostItem isCanonical.nonempty, sorted.presets⟩
  · exact { sorted with hosts := canonical }

theorem Sorted.add {item : Text} {more : Plan} {records : List Record}
    (sorted : Sorted files plan) (added : plan.add? files item = some (more, records)) :
    Sorted files more := by
  unfold add? at added
  split at added
  · rename_i name value isPreset
    split at added
    · obtain ⟨found, expanded, isMore⟩ := Option.map_eq_some_iff.mp added
      have kept := sorted.addHosts value (Host.expand?_canonical expanded)
      rw [isMore] at kept
      exact kept
    · rename_i isOther
      cases added
      refine { sorted with ownHosts := ?_, presets := ?_ }
      · refine List.forall_mem_append.mpr ⟨sorted.ownHosts, ?_⟩
        simp [isHost, isOther]
      · refine List.forall_mem_append.mpr ⟨sorted.presets, ?_⟩
        rw [List.forall_mem_singleton, preset?_written isPreset]
        exact isPreset
  · rename_i noPreset
    split at added
    · rename_i isFile
      cases added
      refine { sorted with scripts := ?_ }
      exact List.forall_mem_append.mpr
        ⟨sorted.scripts, List.forall_mem_singleton.mpr ⟨noPreset, isFile⟩⟩
    · rename_i noFile
      cases added
      refine { sorted with commands := ?_ }
      exact List.forall_mem_append.mpr
        ⟨sorted.commands, List.forall_mem_singleton.mpr ⟨noPreset, by simpa using noFile⟩⟩

theorem Sorted.addAll {items : List Text} {more : Plan} {records : List Record}
    (sorted : Sorted files plan) (added : plan.addAll? files items = some (more, records)) :
    Sorted files more := by
  induction items generalizing plan records with
  | nil =>
      cases added
      exact sorted
  | cons item rest inductionHypothesis =>
      unfold addAll? at added
      split at added
      · cases added
      · rename_i next first isNext
        obtain ⟨⟨last, later⟩, isLast, isMore⟩ := Option.map_eq_some_iff.mp added
        cases isMore
        exact inductionHypothesis (sorted.add isNext) isLast

theorem sorted_empty (quits : Bool) : Sorted files ⟨[], [], [], [], quits⟩ :=
  ⟨List.forall_mem_nil _, List.forall_mem_nil _, List.forall_mem_nil _, List.forall_mem_nil _,
    List.forall_mem_nil _⟩

theorem add?_hostItem {host : Text} (canonical : Host.Canonical host)
    (usable : IsUsable files host) : plan.add? files (hostItem host) =
      some ({ plan with presets := (hostName, host) :: plan.presets }, []) := by
  rw [add?, preset?_hostItem canonical.nonempty]
  dsimp only
  rw [if_pos rfl, splitOn_of_not_mem usable.noComma, canonical.expand? usable.noFile]
  rfl

theorem addAll?_cons {item : Text} {rest : List Text} {more : Plan}
    (added : plan.add? files item = some (more, [])) :
    plan.addAll? files (item :: rest) = more.addAll? files rest := by
  rw [addAll?, added]
  simp

/-- The hosts among the presets come to the front one by one, the other presets keep their order. -/
theorem addAll?_presets {presets : List (Text × Text)}
    (written : ∀ preset ∈ presets, preset? (presetItem preset) = some preset)
    (canonical : ∀ preset ∈ presets, isHost preset = true → Host.Canonical preset.2)
    (usable : ∀ preset ∈ presets, isHost preset = true → IsUsable files preset.2)
    (rest : List Text) :
    plan.addAll? files (presets.map presetItem ++ rest) =
      addAll? files { plan with presets := (presets.filter isHost).reverse ++
        (plan.presets ++ presets.filter (!isHost ·)) } rest := by
  induction presets generalizing plan with
  | nil => simp
  | cons preset others inductionHypothesis =>
      rw [List.forall_mem_cons] at written canonical usable
      rw [List.map_cons, List.cons_append]
      cases own : isHost preset with
      | true =>
          have isItem : presetItem preset = hostItem preset.2 := by
            rw [presetItem, beq_iff_eq.mp own, hostItem]
          rw [isItem, addAll?_cons (add?_hostItem (canonical.1 own) (usable.1 own)),
            inductionHypothesis written.2 canonical.2 usable.2]
          have isPreset : (hostName, preset.2) = preset := by rw [← beq_iff_eq.mp own]
          simp [own, isPreset]
      | false =>
          have added : plan.add? files (presetItem preset) =
              some ({ plan with presets := plan.presets ++ [preset] }, []) := by
            rw [add?, written.1]
            exact if_neg (by simpa [isHost] using own)
          rw [addAll?_cons added, inductionHypothesis written.2 canonical.2 usable.2]
          simp [own]

theorem addAll?_commands {commands : List Text}
    (sorted : ∀ command ∈ commands, preset? command = none ∧ files.isFile command = false)
    (rest : List Text) : plan.addAll? files (commands ++ rest) =
      addAll? files { plan with commands := plan.commands ++ commands } rest := by
  induction commands generalizing plan with
  | nil => simp
  | cons command others inductionHypothesis =>
      rw [List.forall_mem_cons] at sorted
      have added : plan.add? files command =
          some ({ plan with commands := plan.commands ++ [command] }, []) := by
        simp [add?, sorted.1]
      rw [List.cons_append, addAll?_cons added, inductionHypothesis sorted.2]
      simp

theorem addAll?_scripts {scripts : List Text}
    (sorted : ∀ script ∈ scripts, preset? script = none ∧ files.isFile script = true) :
    plan.addAll? files scripts = some ({ plan with scripts := plan.scripts ++ scripts }, []) := by
  induction scripts generalizing plan with
  | nil => simp [addAll?]
  | cons script others inductionHypothesis =>
      rw [List.forall_mem_cons] at sorted
      have added : plan.add? files script =
          some ({ plan with scripts := plan.scripts ++ [script] }, []) := by
        simp [add?, sorted.1]
      rw [addAll?_cons added, inductionHypothesis sorted.2]
      simp

/-- The host of the environment is not an item of a session that has a host of its own. -/
theorem withEnvironment_childItems (host : Text) (environmentHost : Option Text) :
    withEnvironment (plan.childItems host) environmentHost = plan.childItems host := by
  have named : namesHost (hostItem host) = true := by
    have after : (hostItem host).after? (hostItem []) = some host := after?_eq_some.mpr (by
      simp [hostItem])
    rw [namesHost, after]
    rfl
  cases environmentHost with
  | none => rfl
  | some other => simp [withEnvironment, childItems, named]

/-- The session for one of the hosts has the plan again, with the host as a preset of its own. -/
theorem ofItems?_childItems {items : List Text} {environmentHost : Option Text} {quits : Bool}
    {records : List Record}
    (isPlan : ofItems? files items environmentHost quits = some (plan, records)) {host : Text}
    (listed : host ∈ plan.hosts) (usable : ∀ text ∈ host :: plan.ownHosts, IsUsable files text)
    (environmentHost' : Option Text) (quits' : Bool) :
    ofItems? files (plan.childItems host) environmentHost' quits' =
      some (plan.forHost host quits', []) := by
  have sorted : Sorted files plan := (sorted_empty quits).addAll isPlan
  rw [List.forall_mem_cons] at usable
  have usableOwn : ∀ preset ∈ plan.presets, isHost preset = true → IsUsable files preset.2 :=
    fun preset member own =>
      usable.2 _ (List.mem_map_of_mem (List.mem_filter.mpr ⟨member, own⟩))
  have written : plan.childItems host = hostItem host :: (plan.presets.map presetItem ++
      (plan.commands ++ plan.scripts)) := by
    rw [childItems, List.append_assoc, List.cons_append]
    rfl
  rw [ofItems?, withEnvironment_childItems, written,
    addAll?_cons (add?_hostItem (sorted.hosts host listed) usable.1),
    addAll?_presets sorted.presets sorted.ownHosts usableOwn, addAll?_commands sorted.commands,
    addAll?_scripts sorted.scripts]
  rfl

/-- Two addresses of a range with one user, next to a host of the plan itself, a command and a
script. -/
theorem ofItems?_childItems_range :
    ofItems? ⟨[], [(["run.cfg"], [])]⟩
        ["IP=10.0.0.9", "IP=root:pw@10.0.0.1-10.0.0.2", "MODE=fast", "show", "run.cfg"] none true =
      some (⟨["root:pw@10.0.0.1", "root:pw@10.0.0.2"], [("IP", "10.0.0.9"), ("MODE", "fast")],
        ["show"], ["run.cfg"], true⟩, []) ∧
    ofItems? ⟨[], [(["run.cfg"], [])]⟩
        ["IP=root:pw@10.0.0.2", "IP=10.0.0.9", "MODE=fast", "show", "run.cfg"] (some "h") false =
      some (⟨[], [("IP", "10.0.0.9"), ("IP", "root:pw@10.0.0.2"), ("MODE", "fast")],
        ["show"], ["run.cfg"], false⟩, []) := by
  have isPlan : ofItems? ⟨[], [(["run.cfg"], [])]⟩
      ["IP=10.0.0.9", "IP=root:pw@10.0.0.1-10.0.0.2", "MODE=fast", "show", "run.cfg"] none true =
      some (⟨["root:pw@10.0.0.1", "root:pw@10.0.0.2"], [("IP", "10.0.0.9"), ("MODE", "fast")],
        ["show"], ["run.cfg"], true⟩, []) := by
    decide +kernel
  have listed : ("root:pw@10.0.0.2" : Text) ∈
      (["root:pw@10.0.0.1", "root:pw@10.0.0.2"] : List Text) := by
    decide
  refine ⟨isPlan, ofItems?_childItems isPlan listed ?_ _ _⟩
  exact List.forall_mem_cons.mpr ⟨⟨by decide +kernel, by decide⟩,
    List.forall_mem_singleton.mpr ⟨by decide +kernel, by decide⟩⟩

/-- A host that the plan itself has comes to the front of the presets, and the host that the session
is for does not stay there. -/
theorem childItems_host_not_first :
    ¬∀ (files : FileTree) (items : List Text) (environmentHost environmentHost' : Option Text)
        (quits quits' : Bool) (plan : Plan) (records : List Record) (host : Text),
      ofItems? files items environmentHost quits = some (plan, records) →
      1 < plan.hosts.length → host ∈ plan.hosts →
      (∀ text ∈ plan.hosts, files.isFile text = false) →
      ∃ records', ofItems? files (plan.childItems host) environmentHost' quits' =
        some (⟨[], (hostName, host) :: plan.presets, plan.commands, plan.scripts, quits'⟩,
          records') := by
  intro claimed
  obtain ⟨records, same⟩ := claimed ⟨[], []⟩ ["IP=10.0.0.9", "IP=10.0.0.1,10.0.0.2"] none none
    false false ⟨["10.0.0.1", "10.0.0.2"], [("IP", "10.0.0.9")], [], [], false⟩ [] "10.0.0.1"
    (by decide) (by decide) (by decide) (by decide)
  have reordered : ofItems? ⟨[], []⟩ ["IP=10.0.0.1", "IP=10.0.0.9"] none false =
      some (⟨[], [("IP", "10.0.0.9"), ("IP", "10.0.0.1")], [], [], false⟩, []) := by
    decide
  have differs := reordered.symm.trans same
  simp [hostName] at differs

end ManagementShell.Plan
