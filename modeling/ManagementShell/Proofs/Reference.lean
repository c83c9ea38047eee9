import ManagementShell.Proofs.Arguments

/-
This file shows what becomes of a default that refers to an endpoint. In a payload, the reference is
replaced by the address that is found for it; without a payload, it is sent as it is.
-/

namespace ManagementShell
open Text

theorem ParameterValue.lacks_of_number {value : Int} {text : Text}
    (isValue : text ∈ (ParameterValue.number value).values) : 'E' ∉ text := by
  have noDigit {number : Nat} : 'E' ∉ ofNat number := fun member =>
    absurd (Nat.isDigit_of_mem_toDigits (by decide) (by decide) member) (by decide)
  obtain rfl := List.mem_singleton.mp isValue
  cases value with
  | ofNat number => exact noDigit
  | negSucc number => exact List.not_mem_cons_of_ne_of_not_mem (by decide) noDigit

/-- A default that refers to an endpoint makes a payload if there is no sample beside it. -/
theorem Operation.hasPayload_of_default {operation : Operation} {name value : Text}
    {parameter : Parameter} {fallback : ParameterValue}
    (isDeclared : (name, parameter) ∈ operation.body) (noSample : parameter.sample = none)
    (isDefault : parameter.fallback = some fallback) (isValue : value ∈ fallback.values)
    (refers : value.includes Request.referenceMark = true) : operation.hasPayload = true := by
  refine List.any_eq_true.mpr ⟨_, isDeclared, ?_⟩
  have mentions : value.includes endpointMark = true :=
    includes_iff.mpr (List.IsInfix.trans ⟨[], ":", by decide⟩ (includes_iff.mp refers))
  unfold needsPayload
  simp only [noSample, isDefault]
  cases fallback with
  | text given =>
      obtain rfl := List.mem_singleton.mp isValue
      exact mentions
  | number given =>
      have lacks := ParameterValue.lacks_of_number isValue
      rw [includes_of_lacks (by decide : 'E' ∈ endpointMark) lacks] at mentions
      cases mentions
  | list items => rfl

namespace Request

/-- A parameter that is left out is sent with what the values of its default stand for, unless they
are all empty. The induction is on the declared parameters. -/
theorem resolve_default {files : FileTree} {call : Call} {declared : Table Parameter}
    {resolved : Table (List Text)} (isResolved : resolve files call declared = .ok resolved)
    {name : Text} {parameter : Parameter} {fallback : ParameterValue}
    (isDeclared : (name, parameter) ∈ declared) (omitted : call.arguments.get? name = none)
    (isDefault : parameter.fallback = some fallback)
    (some : ¬fallback.values.all List.isEmpty = true) :
    ∃ texts, (name, texts) ∈ resolved ∧ List.Forall₂ (StandsFor files) fallback.values texts := by
  have isGiven : values? call name parameter = .ok (.some fallback.values) := by
    unfold values?
    rw [omitted, isDefault]
    exact if_neg some
  induction declared generalizing resolved with
  | nil => cases isDeclared
  | cons entry rest inductionHypothesis =>
      rcases resolve_cons_cases isResolved with
        ⟨isOmitted, areOthers⟩ | ⟨values, texts, others, areValues, areTexts, areOthers, rfl⟩
      · rcases List.mem_cons.mp isDeclared with rfl | isDeclared
        · cases isGiven.symm.trans isOmitted
        · exact inductionHypothesis areOthers isDeclared
      · rcases List.mem_cons.mp isDeclared with rfl | isDeclared
        · cases isGiven.symm.trans areValues
          exact ⟨texts, List.mem_cons_self, standFor_of_mapM areTexts⟩
        · obtain ⟨sent, isSent, standFor⟩ := inductionHypothesis areOthers isDeclared
          exact ⟨sent, List.mem_cons_of_mem _ isSent, standFor⟩

variable {σ : Type}

/-- From one state to another, the texts are written for the parameters of a body: for each reference
the address that is found for it, and for any other value its element. -/
inductive AreWritten (endpoints : Endpoints σ) (prepared : Prepared) :
    σ → List (Text × Text) → List Text → σ → Prop
  | none (state : σ) : AreWritten endpoints prepared state [] [] state
  | found {name value text : Text} {before between after : σ} {rest : List (Text × Text)}
      {texts : List Text} (refers : value.includes referenceMark = true)
      (finds : endpoints.address prepared.call.method value name prepared.filter before =
        .ok text between)
      (others : AreWritten endpoints prepared between rest texts after) :
      AreWritten endpoints prepared before ((name, value) :: rest) (text :: texts) after
  | itself {name value : Text} {before after : σ} {rest : List (Text × Text)} {texts : List Text}
      (noReference : value.includes referenceMark = false)
      (others : AreWritten endpoints prepared before rest texts after) :
      AreWritten endpoints prepared before ((name, value) :: rest)
        (payloadElement name value :: texts) after

/-- The induction is on the parameters, each of which may change the state. -/
theorem elements_areWritten (endpoints : Endpoints σ) (prepared : Prepared)
    {entries : List (Text × Text)} {before after : σ} {inside : Text}
    (ran : elements endpoints prepared entries before = .ok inside after) :
    ∃ texts, inside = texts.flatten ∧
      AreWritten endpoints prepared before entries texts after := by
  induction entries generalizing before inside with
  | nil =>
      cases ran
      exact ⟨[], rfl, .none _⟩
  | cons entry rest inductionHypothesis =>
      obtain ⟨name, value⟩ := entry
      rw [elements, run_bind_eq_ok] at ran
      obtain ⟨text, between, isText, ran⟩ := ran
      obtain ⟨_, last, isRest, ran⟩ := run_bind_eq_ok.mp ran
      cases ran
      obtain ⟨texts, rfl, areTexts⟩ := inductionHypothesis isRest
      refine ⟨text :: texts, rfl, ?_⟩
      unfold element at isText
      split at isText
      · rename_i refers
        exact .found refers isText areTexts
      · rename_i noReference
        rw [Bool.not_eq_true] at noReference
        cases isText
        exact .itself noReference areTexts

/-- The body is in the payload, with an address for each reference, and no argument is a part of
it. -/
structure IsInPayload (basis : Basis) (endpoints : Endpoints σ) (prepared : Prepared)
    (address : Text) (before : σ) (request : Request) (after : σ) : Prop where
  payload : ∃ texts, AreWritten endpoints prepared before prepared.entries texts after ∧
    request.invocation.payload = some (prepared.payload address texts.flatten)
  arguments : request.invocation.arguments =
    leading prepared address ++ trailing basis prepared ++ [("-J" : Text), payloadPath]

/-- The values of the body are arguments as they are, and there is no payload. -/
structure IsInArguments (basis : Basis) (prepared : Prepared) (address : Text)
    (request : Request) : Prop where
  payload : request.invocation.payload = none
  arguments : request.invocation.arguments =
    leading prepared address ++ bodyArguments prepared.body ++ trailing basis prepared

variable {basis : Basis} {endpoints : Endpoints σ} {request : Request} {before after : σ}

theorem complete_places {prepared : Prepared}
    (completed : complete basis endpoints prepared before = .ok request after) :
    ∃ address between, target endpoints prepared before = .ok address between ∧
      if prepared.operation.hasPayload then
        IsInPayload basis endpoints prepared address between request after
      else IsInArguments basis prepared address request := by
  obtain ⟨address, between, isAddress, completed⟩ := run_bind_eq_ok.mp completed
  refine ⟨address, between, isAddress, ?_⟩
  split at completed
  · rename_i hasPayload
    obtain ⟨inside, last, isInside, completed⟩ := run_bind_eq_ok.mp completed
    cases completed
    obtain ⟨texts, rfl, areWritten⟩ := elements_areWritten endpoints prepared isInside
    rw [if_pos hasPayload]
    exact ⟨⟨texts, areWritten, rfl⟩, assemble_payload basis prepared address _⟩
  · rename_i noPayload
    cases completed
    rw [if_neg noPayload]
    exact ⟨rfl, assemble_bodyArguments basis prepared address⟩

/-- A default that refers to an endpoint is sent for the parameter that is left out. It is replaced
by the address of the endpoint exactly if the operation has a payload, which it always has if there
is no sample beside the default. -/
theorem build_default {call : Call} {operation : Operation} {name value : Text}
    {parameter : Parameter} {fallback : ParameterValue}
    (known : basis.catalog.operation? basis.store.deviceText call.method = some operation)
    (isDeclared : (name, parameter) ∈ operation.body) (omitted : call.arguments.get? name = none)
    (isDefault : parameter.fallback = some fallback) (isValue : value ∈ fallback.values)
    (refers : value.includes referenceMark = true)
    (built : build basis endpoints call before = .ok request after) :
    ∃ prepared address between, prepared.IsFor basis call ∧
      target endpoints prepared before = .ok address between ∧
      (∃ texts, (name, texts) ∈ prepared.body ∧
        List.Forall₂ (StandsFor basis.files) fallback.values texts) ∧
      (parameter.sample = none → operation.hasPayload = true) ∧
      if operation.hasPayload then
        IsInPayload basis endpoints prepared address between request after
      else IsInArguments basis prepared address request := by
  cases isPrepared : prepare basis call with
  | error failure =>
      rw [build, isPrepared] at built
      cases built
  | ok prepared =>
      have isFor := gives_of_eq_ok isPrepared (prepare_isFor basis call)
      have isOperation := isFor.operation
      rw [known, Option.some.injEq] at isOperation
      subst isOperation
      rw [build, isPrepared] at built
      obtain ⟨address, between, isAddress, isPlaced⟩ := complete_places built
      have some : ¬fallback.values.all List.isEmpty = true := by
        intro allEmpty
        have empty := List.isEmpty_iff.mp (List.all_eq_true.mp allEmpty value isValue)
        rw [empty] at refers
        cases refers
      exact ⟨prepared, address, between, isFor, isAddress,
        resolve_default isFor.body isDeclared omitted isDefault some,
        fun noSample => Operation.hasPayload_of_default isDeclared noSample isDefault isValue refers,
        isPlaced⟩

/-- The parameter of this operation refers to an endpoint by default. -/
def attach (sample : Option ParameterValue) : Operation where
  verb := .invoke
  target := "http://h"
  body := [("Service", { fallback := some (.text "EPR:Service"), sample := sample })]

def attaching (sample : Option ParameterValue) : Basis where
  catalog := Catalog.initial.add "idrac" "Attach" (attach sample)
  store := (Store.ofDefaults {}).put Variable.host (.text "h")
  client := {}
  files := ⟨[], []⟩

/-- There is one endpoint for all references. -/
def oneEndpoint (σ : Type) : Endpoints σ where
  url _ _ _ := pure (Endpoint.mk "r" [("n", "v")]).url
  address _ _ parameter _ := pure ((Endpoint.mk "r" [("n", "v")]).address parameter)

/-- Without a sample, the reference is replaced. -/
theorem build_default_attached : ∃ request prepared address,
    build (attaching none) (oneEndpoint Unit) (.ofMethod "Attach") () = .ok request () ∧
      IsInPayload (attaching none) (oneEndpoint Unit) prepared address () request () ∧
      request.invocation.payload = some (payload "Attach" "http://h"
        ((Endpoint.mk "r" [("n", "v")]).address "Service")) := by
  have known : (attaching none).catalog.operation? (attaching none).store.deviceText "Attach" =
      some (attach none) := by decide +kernel
  have isPayload : (outcome (build (attaching none) (oneEndpoint Unit) (.ofMethod "Attach") ())).map
      (fun request => request.invocation.payload) = .ok (some (payload "Attach" "http://h"
        ((Endpoint.mk "r" [("n", "v")]).address "Service"))) := by
    decide +kernel
  cases built : build (attaching none) (oneEndpoint Unit) (.ofMethod "Attach") () with
  | error cause after =>
      rw [built] at isPayload
      cases isPayload
  | ok request after =>
      rw [built] at isPayload
      obtain ⟨prepared, address, _, -, -, -, hasPayload, isPlaced⟩ :=
        build_default known List.mem_cons_self rfl rfl List.mem_cons_self (by decide) built
      rw [if_pos (hasPayload rfl)] at isPlaced
      exact ⟨request, prepared, address, rfl, isPlaced, Except.ok.inj isPayload⟩

/-- With a sample that is no reference, the reference is sent as it is. -/
theorem build_default_unread :
    (outcome (build (attaching (some (.text "Service"))) (oneEndpoint Unit) (.ofMethod "Attach")
      ())).map (fun request => (request.invocation.arguments.take 6, request.invocation.payload)) =
        .ok (["invoke", "-a", "Attach", "http://h", "-k", "Service=EPR:Service"], none) := by
  decide

end Request

end ManagementShell
