import ManagementShell.Proofs.Address
import ManagementShell.Proofs.Caching

/-
This file shows that a payload is read back as the parameters that it is written from, as long as
their texts are no markup.
-/

namespace ManagementShell
open Text Xml

namespace Request

theorem payloadElement_isChild (space : Text) {name value : Text} (isName : IsBase name)
    (literal : IsLiteral value) :
    ∃ tag : Tag, tag.base = name ∧
      IsChild [("p", space)] (payloadElement name value) (.mk tag (trim value) []) := by
  have writable : Name.IsWritable ⟨"p", name⟩ := ⟨(by decide : IsBase "p"), isName⟩
  obtain ⟨shown, isChild⟩ := writable.child [("p", space)] (by decide : ("p" : Text) ≠ "xmlns") rfl
    literal.contents (fun some => absurd rfl some) "  " "\r\n" rfl rfl
  have same : payloadElement name value = ("  " : Text) ++ (Name.opening ⟨"p", name⟩ ">" ++
      (value ++ (Name.closing ⟨"p", name⟩ ++ ("\r\n" : Text)))) := by
    unfold payloadElement
    simp only [Name.opening, Name.closing, Name.written, List.append_assoc, List.cons_append]
    rfl
  exact ⟨⟨shown, name, []⟩, rfl, same ▸ isChild⟩

/-- The first declared parameter is left out, or what its values stand for is sent before the
others. -/
theorem resolve_cons_cases {files : FileTree} {call : Call} {name : Text} {parameter : Parameter}
    {rest : Table Parameter} {resolved : Table (List Text)}
    (isResolved : resolve files call ((name, parameter) :: rest) = .ok resolved) :
    (values? call name parameter = .ok none ∧ resolve files call rest = .ok resolved) ∨
      ∃ values texts others, values? call name parameter = .ok (some values) ∧
        values.mapM (contents files name) = .ok texts ∧ resolve files call rest = .ok others ∧
        resolved = (name, texts) :: others := by
  unfold resolve at isResolved
  split at isResolved
  · cases isResolved
  · rename_i omitted
    exact .inl ⟨omitted, isResolved⟩
  · rename_i values areValues
    split at isResolved
    · cases isResolved
    · rename_i texts areTexts
      split at isResolved
      · cases isResolved
      · rename_i others areOthers
        exact .inr ⟨values, texts, others, areValues, areTexts, areOthers,
          (Except.ok.inj isResolved).symm⟩

/-- The parameters that are sent are declared ones, in their order. -/
theorem resolve_names {files : FileTree} {call : Call} {declared : Table Parameter}
    {resolved : Table (List Text)} (isResolved : resolve files call declared = .ok resolved) :
    resolved.names.Sublist declared.names := by
  induction declared generalizing resolved with
  | nil =>
      cases isResolved
      exact .slnil
  | cons entry rest inductionHypothesis =>
      rcases resolve_cons_cases isResolved with ⟨-, areOthers⟩ | ⟨_, _, _, -, -, areOthers, rfl⟩
      · exact (inductionHypothesis areOthers).cons entry.1
      · exact (inductionHypothesis areOthers).cons_cons entry.1

theorem resolve_ordered {files : FileTree} {call : Call} {declared : Table Parameter}
    {resolved : Table (List Text)} (isResolved : resolve files call declared = .ok resolved)
    (ordered : declared.Ordered) : resolved.Ordered :=
  List.pairwise_map.mp ((List.pairwise_map.mpr ordered).sublist (resolve_names isResolved))

theorem prepare_body {basis : Basis} {call : Call} {prepared : Prepared}
    (isPrepared : prepare basis call = .ok prepared) :
    resolve basis.files prepared.call prepared.operation.body = .ok prepared.body := by
  have isFor := gives_of_eq_ok isPrepared (prepare_isFor basis call)
  rw [isFor.isCall, isFor.body]

/-- The names of a payload are in the space of the resource without its query. -/
def spaceOf (address : Text) : Text := ((resource address).splitOn '?').headD []

/-- A text that can be the name of a space of names. -/
structure IsSpaceName (text : Text) : Prop where
  value : IsAttributeValue text
  noDeclaration : text ≠ declarationSpace
  noXml : text ≠ xmlSpace

instance (text : Text) : Decidable (IsSpaceName text) :=
  decidable_of_iff (IsAttributeValue text ∧ text ≠ declarationSpace ∧ text ≠ xmlSpace)
    ⟨fun ⟨value, noDeclaration, noXml⟩ => ⟨value, noDeclaration, noXml⟩,
      fun ⟨value, noDeclaration, noXml⟩ => ⟨value, noDeclaration, noXml⟩⟩

theorem IsSpaceName.attributeValue_ne {text reserved : Text} (differs : text ≠ reserved)
    (noSpace : ' ' ∉ reserved) : attributeValue (literalData text) ≠ reserved := fun same =>
  (attributeValue_cases text).elim (fun kept => differs (kept.symm.trans same))
    fun member => noSpace (same ▸ member)

theorem IsSpaceName.declares {text : Text} (isSpace : IsSpaceName text) :
    declarations? [(⟨"xmlns", "p"⟩, attributeValue (literalData text))] =
      some [(("p" : Text), attributeValue (literalData text))] := by
  have noDeclaration := IsSpaceName.attributeValue_ne isSpace.noDeclaration (by decide)
  have noXml := IsSpaceName.attributeValue_ne isSpace.noXml (by decide)
  generalize attributeValue (literalData text) = value at *
  simp [declarations?, noDeclaration, noXml]

/-- The tags of a payload say which space its names are in. -/
theorem payload_isElement {action text : Text} (isAction : IsBase action)
    (isSpace : IsSpaceName text) :
    ∃ shown, IsElement [] [("p", attributeValue (literalData text))]
      (Name.opening ⟨"p", action ++ "_INPUT"⟩ (' ' :: ("xmlns:p" ++ ("=\"" ++ (text ++ "\">")))))
      (Name.closing ⟨"p", action ++ "_INPUT"⟩) ⟨shown, action ++ "_INPUT", []⟩ := by
  have writable : Name.IsWritable ⟨"p", action ++ "_INPUT"⟩ :=
    ⟨(by decide : IsBase "p"), isAction.append (by decide) (by decide)⟩
  have reads := attributes?_single ⟨"xmlns", "p"⟩ "xmlns:p" (by decide) rfl
    isSpace.value
  exact writable.element [] _ (lacking_cons (by decide) _) reads (by decide : ("p" : Text) ≠ "xmlns")
    isSpace.declares rfl rfl

/-- The fixed parts of a payload are tags and the line ends around them. -/
theorem payload_pieces :
    ("_INPUT xmlns:p=\"" : Text) =
      ("_INPUT" : Text) ++ ' ' :: (("xmlns:p" : Text) ++ ("=\"" : Text)) ∧
    ("\">\r\n" : Text) = ("\">" : Text) ++ ("\r\n" : Text) ∧
    ("_INPUT>\r\n" : Text) = ("_INPUT" : Text) ++ ((">" : Text) ++ ("\r\n" : Text)) := by decide

/-- The elements of a payload are the children of its root. -/
theorem payload_parses {action text : Text} (isAction : IsBase action) (isSpace : IsSpaceName text)
    {texts : List Text} {children : List Element}
    (areChildren : List.Forall₂ (IsChild [("p", attributeValue (literalData text))]) texts children) :
    ∃ shown, Xml.parse? (payload action text texts.flatten) =
      some (.mk ⟨shown, action ++ "_INPUT", []⟩ [] children) := by
  obtain ⟨shown, isElement⟩ := payload_isElement isAction isSpace
  have contents := isContents_children areChildren "\r\n" [] rfl rfl
  refine ⟨shown, ?_⟩
  have isDocument := isElement.document contents (fun _ => rfl) "\r\n" rfl rfl
  have same : payload action text texts.flatten =
      Name.opening ⟨"p", action ++ "_INPUT"⟩ (' ' :: ("xmlns:p" ++ ("=\"" ++ (text ++ "\">")))) ++
        ((("\r\n" : Text) ++ (texts.flatten ++ [])) ++
          (Name.closing ⟨"p", action ++ "_INPUT"⟩ ++ ("\r\n" : Text))) := by
    unfold payload
    rw [opening_parameter, closing_parameter]
    simp only [payload_pieces, List.append_assoc, List.cons_append, List.append_nil]
  rw [same]
  exact isDocument

end Request

/-- What the lookup is answered with is no markup where it is written to. -/
def Lookup.IsPlain : Lookup → Text → Prop
  | .url _ _, text => Request.IsSpaceName (Request.spaceOf text)
  | .address _ parameter _, text =>
      ∃ endpoint : Endpoint, endpoint.IsPlain ∧ text = endpoint.address parameter

namespace Request

/-- No text of the call itself is markup where it is written to. -/
structure Prepared.IsPlain (prepared : Prepared) : Prop where
  action : IsBase (prepared.operation.remoteName prepared.call.method)
  names : ∀ entry ∈ prepared.entries, IsBase entry.1
  values : ∀ entry ∈ prepared.entries, entry.2.includes referenceMark = false → IsLiteral entry.2
  target : prepared.operation.target.includes Operation.endpointMark = false →
    IsSpaceName (spaceOf prepared.operation.target)

/-- The element is what a parameter with the value is read back as. Only what a reference stands for
is not in the value itself. -/
structure Represents (entry : Text × Text) (element : Element) : Prop where
  name : element.tag.base = entry.1
  leaf : entry.2.includes referenceMark = false →
    element.children = [] ∧ element.text? = some (trim entry.2)

/-- The payload of the request is read back as the parameters of the body. -/
def Prepared.IsReadBack (prepared : Prepared) (request : Request) : Prop :=
  ∃ payload root, request.invocation.payload = some payload ∧ Xml.parse? payload = some root ∧
    root.tag.base = prepared.operation.remoteName prepared.call.method ++ "_INPUT" ∧
    List.Forall₂ Represents prepared.entries root.children

section

variable {σ : Type} {endpoints : Endpoints σ} {prepared : Prepared} {good : σ → Prop}

/-- In the states that are good, which the answers lead to again, no answer is markup. -/
def Endpoints.AnswerPlainly (endpoints : Endpoints σ) (prepared : Prepared) (good : σ → Prop) :
    Prop :=
  ∀ lookup ∈ prepared.lookups, ∀ before, good before →
    Ends (endpoints.answer prepared.call.method lookup) before
      (fun text after => good after ∧ lookup.IsPlain text) fun _ _ => True

/-- One parameter is written as one child, which is what it is read back as. -/
theorem element_reads (space : Text) (hasPayload : prepared.operation.hasPayload = true)
    (plain : prepared.IsPlain)
    (answers : endpoints.AnswerPlainly prepared good) {entry : Text × Text}
    (member : entry ∈ prepared.entries) {before : σ} (isGood : good before) :
    Ends (element endpoints prepared entry.1 entry.2) before
      (fun text after => good after ∧
        ∃ child, IsChild [("p", space)] text child ∧ Represents entry child) fun _ _ => True := by
  have isName := plain.names entry member
  unfold element
  split
  · rename_i refers
    have isLookup : .address entry.2 entry.1 prepared.filter ∈ prepared.lookups := by
      simp only [Prepared.lookups, hasPayload, if_true, List.mem_append, List.mem_map,
        List.mem_filter]
      exact .inr ⟨entry, ⟨member, refers⟩, rfl⟩
    refine (answers _ isLookup before isGood).weaken ?_ fun _ _ anything => anything
    rintro text after ⟨stillGood, endpoint, isPlain, isText⟩
    obtain ⟨child, isChild, isReference⟩ :=
      Endpoint.address_isChild (rfl : Scope.Knows [("p", space)] "p") isPlain isName
    have represents : Represents entry child :=
      ⟨isReference.base_eq, fun none => absurd (none.symm.trans refers) Bool.false_ne_true⟩
    exact ⟨stillGood, child, isChild.of_eq isText, represents⟩
  · rename_i none
    rw [Bool.not_eq_true] at none
    have literal := plain.values entry member none
    obtain ⟨tag, isNamed, isChild⟩ := payloadElement_isChild space isName literal
    exact ⟨isGood, _, isChild, isNamed, fun _ => ⟨rfl, rfl⟩⟩

/-- The induction is on the parameters; the state stays good from one to the next. -/
theorem elements_read (space : Text) {entries : List (Text × Text)}
    (read : ∀ entry ∈ entries, ∀ before, good before →
      Ends (element endpoints prepared entry.1 entry.2) before
        (fun text after => good after ∧
          ∃ child, IsChild [("p", space)] text child ∧ Represents entry child) fun _ _ => True)
    {before : σ} (isGood : good before) :
    Ends (elements endpoints prepared entries) before
      (fun inside _ => ∃ texts children, inside = texts.flatten ∧
        List.Forall₂ (IsChild [("p", space)]) texts children ∧
        List.Forall₂ Represents entries children) fun _ _ => True := by
  induction entries generalizing before with
  | nil => exact ⟨[], [], rfl, .nil, .nil⟩
  | cons entry rest inductionHypothesis =>
      rw [List.forall_mem_cons] at read
      rw [elements, ends_bind]
      refine (read.1 before isGood).weaken ?_ fun _ _ anything => anything
      rintro first between ⟨stillGood, child, isChild, represents⟩
      rw [ends_bind]
      refine (inductionHypothesis read.2 stillGood).weaken ?_ fun _ _ anything => anything
      rintro _ after ⟨texts, children, rfl, areChildren, represent⟩
      exact ⟨first :: texts, child :: children, rfl, .cons isChild areChildren,
        .cons represents represent⟩

theorem target_isSpace (plain : prepared.IsPlain) (answers : endpoints.AnswerPlainly prepared good)
    {before : σ} (isGood : good before) :
    Ends (target endpoints prepared) before
      (fun address after => good after ∧ IsSpaceName (spaceOf address)) fun _ _ => True := by
  unfold target
  split
  · rename_i refers
    exact answers (.url prepared.operation.target prepared.filter)
      (by simp [Prepared.lookups, refers]) before isGood
  · rename_i none
    rw [Bool.not_eq_true] at none
    exact ⟨isGood, plain.target none⟩

theorem complete_reads (basis : Basis) (hasPayload : prepared.operation.hasPayload = true)
    (plain : prepared.IsPlain)
    (answers : endpoints.AnswerPlainly prepared good) {before : σ} (isGood : good before) :
    Ends (complete basis endpoints prepared) before (fun request _ => prepared.IsReadBack request)
      fun _ _ => True := by
  rw [complete, ends_bind]
  refine (target_isSpace plain answers isGood).weaken ?_ fun _ _ anything => anything
  rintro address between ⟨stillGood, isSpace⟩
  rw [if_pos hasPayload, ends_bind]
  have read := elements_read (attributeValue (literalData (spaceOf address)))
    (fun _ member _ => element_reads _ hasPayload plain answers member) stillGood
  refine read.weaken ?_ fun _ _ anything => anything
  rintro _ after ⟨texts, children, rfl, areChildren, represent⟩
  obtain ⟨shown, isRead⟩ := payload_parses plain.action isSpace areChildren
  exact ⟨_, _, rfl, isRead, rfl, represent⟩

end

end Request

variable {σ : Type}

/-- No endpoint that one of the lookups chooses from an answer to a discovery is markup where it is
written to. -/
def Peer.AnswersPlainly (peer : Peer σ) (lookups : List Lookup) : Prop :=
  ∀ invocation : Invocation, invocation.IsDiscovery → ∀ files state output,
    (peer.answer invocation files state).1 = .ok output →
      ∀ root, (Response.ofOutput output.text).tree = some root →
        ∀ lookup ∈ lookups, ∀ endpoint,
          Endpoint.choose root lookup.parameter lookup.filter = .ok endpoint →
            lookup.IsPlain (lookup.written endpoint)

/-- A text is plain for all lookups that are written for the same. -/
theorem Lookup.IsPlain.of_form {first second : Lookup} {text : Text} (plain : first.IsPlain text)
    (same : first.form = second.form) : second.IsPlain text := by
  cases first with
  | url _ _ => cases second with
    | url _ _ => exact plain
    | address _ _ _ => cases same
  | address _ _ _ => cases second with
    | url _ _ => cases same
    | address _ _ _ =>
        cases same
        exact plain

namespace Connection

/-- What is kept for the lookups is no markup where it is written to. -/
def KeepsPlain (basis : Request.Basis) (lookups : List Lookup) (cache : Cache) : Prop :=
  ∀ lookup ∈ lookups, ∀ text, cache.lookup (lookup.key basis) = some text → lookup.IsPlain text

section

variable {peer : Peer σ} {lookups : List Lookup} (answersPlainly : peer.AnswersPlainly lookups)
  (basis : Request.Basis) (method : Text) {lookup : Lookup} (isLookup : lookup ∈ lookups)
include answersPlainly isLookup

/-- What the lookup chooses from a discovery is no markup where it is written to. -/
theorem discover_plain (reference : Text) (connection : Connection σ) :
    Ends (discover peer basis method reference) connection
      (fun root _ => ∀ endpoint,
        Endpoint.choose root lookup.parameter lookup.filter = .ok endpoint →
          lookup.IsPlain (lookup.written endpoint))
      fun _ _ => True := by
  unfold discover
  split
  · trivial
  · rw [ends_bind]
    refine (Request.build_discovers basis (.none _) rfl connection).weaken ?_
      fun _ _ anything => anything
    intro request between discovers
    simp only [report, send, ends_bind, ends_modify, ends_get, ends_set]
    split
    · rename_i output answered
      rw [ends_pure]
      split
      · rename_i root isRoot
        exact answersPlainly _ discovers _ _ _ answered root isRoot lookup isLookup
      · trivial
    · trivial

theorem direct_plain (connection : Connection σ) :
    Ends ((direct peer basis).answer method lookup) connection
      (fun text _ => lookup.IsPlain text) fun _ _ => True := by
  rw [direct_answer, find, ends_bind]
  refine (discover_plain answersPlainly basis method isLookup _ connection).weaken ?_
    fun _ _ anything => anything
  intro root after chosen
  split
  · trivial
  · rename_i endpoint isChosen
    exact chosen endpoint isChosen

/-- What is found for one lookup is kept for those that share its key only. -/
theorem answer_plain (apart : ∀ other ∈ lookups,
      lookup.key basis = other.key basis → lookup.form = other.form) {connection : Connection σ}
    (keeps : KeepsPlain basis lookups connection.cache) :
    Ends ((endpoints peer basis).answer method lookup) connection
      (fun text after => KeepsPlain basis lookups after.cache ∧ lookup.IsPlain text)
      fun _ _ => True := by
  unfold Ends
  cases cached : connection.cache.lookup (lookup.key basis) with
  | some value =>
      rw [answer_of_cached method cached]
      exact ⟨keeps, keeps lookup isLookup value cached⟩
  | none =>
      rw [answer_of_uncached method cached]
      change Ends _ _ _ _
      rw [ends_bind]
      refine ((direct_plain answersPlainly basis method isLookup connection).both
        (direct_cache peer basis method lookup connection)).weaken ?_ fun _ _ _ => trivial
      rintro text after ⟨plain, stays⟩
      refine ⟨fun other isOther kept isKept => ?_, plain⟩
      change ((lookup.key basis, text) :: after.cache).lookup (other.key basis) = some kept at isKept
      rw [List.lookup_cons, stays] at isKept
      split at isKept
      · rename_i same
        cases isKept
        exact plain.of_form (apart other isOther (beq_iff_eq.mp same).symm)
      · exact keeps other isOther kept isKept

end

/-- A payload that a build completes is read back as exactly the parameters that were resolved for
it, in their order, if no text that is written into it is markup. An endpoint that comes out of the
cache is only known to be written for its parameter if the keys tell the lookups apart. -/
theorem build_read {peer : Peer σ} {basis : Request.Basis} {call : Call}
    {prepared : Request.Prepared} (isPrepared : Request.prepare basis call = .ok prepared)
    (hasPayload : prepared.operation.hasPayload = true) (plain : prepared.IsPlain)
    (answersPlainly : peer.AnswersPlainly prepared.lookups)
    (apart : KeysTellApart [(basis, call)]) {connection after : Connection σ}
    (keeps : KeepsPlain basis prepared.lookups connection.cache) {request : Request}
    (built : build peer basis call connection = .ok request after) :
    prepared.IsReadBack request ∧
      Request.resolve basis.files prepared.call prepared.operation.body = .ok prepared.body ∧
      prepared.body.names.Sublist prepared.operation.body.names ∧
      (prepared.operation.body.Ordered → prepared.body.Ordered) := by
  have isResolved := Request.prepare_body isPrepared
  have areLookups : Request.lookups basis call = prepared.lookups := by
    rw [Request.lookups, isPrepared]
  have answers : (endpoints peer basis).AnswerPlainly prepared
      fun connection => KeepsPlain basis prepared.lookups connection.cache := by
    intro lookup isLookup before kept
    refine answer_plain answersPlainly basis _ isLookup (fun other isOther => ?_) kept
    rw [← areLookups] at isLookup isOther
    exact apart _ List.mem_cons_self _ List.mem_cons_self lookup isLookup other isOther
  have reads := Request.complete_reads basis hasPayload plain answers keeps
  have completed : Request.complete basis (endpoints peer basis) prepared connection =
      .ok request after := by
    rw [← built, build, Request.build, isPrepared]
  have isRead : prepared.IsReadBack request := by
    rwa [Ends, completed] at reads
  exact ⟨isRead, isResolved, Request.resolve_names isResolved, Request.resolve_ordered isResolved⟩

/-- The payload of this call has the value that is given for a key, and a reference to an
endpoint. -/
def keyed (value : Text) : Request.Prepared where
  call := (Call.ofMethod "SetKey").add "Key" value
  operation :=
    { verb := .invoke
      target := "http://h"
      body := [("Key", { sample := some (.list []) }),
        ("Service", { fallback := some (.text "EPR:Service") })] }
  filter := .empty
  selectors := []
  body := [("Key", [value]), ("Service", ["EPR:Service"])]
  host := "h"

def keyedBasis : Request.Basis where
  catalog := Catalog.initial.add "idrac" "SetKey" (keyed []).operation
  store := (Store.ofDefaults {}).put Variable.host (.text "h")
  client := {}
  files := ⟨[], []⟩

theorem onePeer_answersPlainly : onePeer.AnswersPlainly (keyed "a b").lookups := by
  intro invocation _ files state output answered root isRoot lookup isLookup endpoint isChosen
  have areLookups : (keyed "a b").lookups = [.address "EPR:Service" "Service" .empty] := by
    decide
  rw [areLookups, List.mem_singleton] at isLookup
  subst isLookup
  have isOutput := Except.ok.inj answered
  have texts : (Response.ofOutput output.text).tree.map
      (fun root => (Endpoint.selectorSets root, Endpoint.resources root)) =
        some ([[(("n" : Text), ("v" : Text))]], [("r" : Text)]) := by
    rw [← isOutput]
    decide +kernel
  rw [isRoot, Option.map_some, Option.some.injEq, Prod.mk.injEq] at texts
  unfold Endpoint.choose at isChosen
  rw [texts.1, texts.2] at isChosen
  dsimp only at isChosen
  split at isChosen
  · cases isChosen
  · split at isChosen
    · cases isChosen
    · rename_i position _ _ _ isResource
      rw [List.getElem?_singleton] at isResource
      split at isResource
      · rename_i isFirst
        subst isFirst
        cases isResource
        cases isChosen
        exact ⟨_, ⟨by decide, by decide⟩, rfl⟩
      · cases isResource

/-- A value without markup is read back, and so is a reference. -/
theorem build_read_keyed : ∃ request after payload root,
    build onePeer keyedBasis (keyed "a b").call firstConnection = .ok request after ∧
      request.invocation.payload = some payload ∧ Xml.parse? payload = some root ∧
      root.tag.base = "SetKey_INPUT" ∧
      List.Forall₂ Request.Represents [("Key", "a b"), ("Service", "EPR:Service")]
        root.children := by
  have plain : (keyed "a b").IsPlain :=
    ⟨by decide, by decide +kernel, by decide +kernel, by decide +kernel⟩
  have apart : KeysTellApart [(keyedBasis, (keyed "a b").call)] :=
    keysTellApart_of_names (by decide +kernel)
  have succeeds :
      (outcome (build onePeer keyedBasis (keyed "a b").call firstConnection)).isOk = true := by
    decide +kernel
  cases built : build onePeer keyedBasis (keyed "a b").call firstConnection with
  | error cause after =>
      rw [built] at succeeds
      cases succeeds
  | ok request after =>
      obtain ⟨⟨payload, root, isPayload, isRead, isNamed, represent⟩, -⟩ :=
        build_read rfl (by decide +kernel) plain onePeer_answersPlainly apart
          (fun _ _ _ kept => by cases kept) built
      exact ⟨request, after, payload, root, rfl, isPayload, isRead, isNamed, represent⟩

/-- The action and the parameters have proper names and the build succeeds, but with an ampersand in
the value, the payload is no document. -/
theorem build_unread : IsBase "SetKey" ∧ (∀ entry ∈ (keyed "a&b").entries, IsBase entry.1) ∧
    (outcome (build onePeer keyedBasis (keyed "a&b").call firstConnection)).map
      (fun request => request.invocation.payload.map fun payload => (Xml.parse? payload).isSome) =
        .ok (some false) := by
  decide +kernel

end Connection

end ManagementShell
