import ManagementShell.Proofs.Building
import ManagementShell.Proofs.Lookup
import ManagementShell.Proofs.Table
import Mathlib.Data.List.TakeWhile

/-
This file shows when the endpoints that are kept in the cache are the ones that a new discovery
would find.
-/

namespace ManagementShell

variable {σ : Type}

namespace Endpoint

/-- A name without a hyphen is what the key has before its first hyphen. -/
theorem Filter.key_takeWhile (filter : Filter) {parameter : Text} (plain : '-' ∉ parameter) :
    (filter.key parameter).takeWhile (· != '-') = parameter := by
  have letters : ∀ character ∈ parameter, (character != '-') = true := by
    intro character member
    simpa using ne_of_mem_of_not_mem member plain
  unfold Filter.key
  split
  · rw [List.append_assoc, List.takeWhile_append_of_pos letters]
    exact List.append_nil parameter
  · exact List.takeWhile_eq_self_iff.mpr letters

end Endpoint

namespace Lookup

/-- The key that the endpoint is kept under. -/
def key (basis : Request.Basis) (lookup : Lookup) : CacheKey :=
  ⟨(basis.store.shown? Variable.host).getD [], lookup.reference,
    lookup.filter.key lookup.parameter⟩

/-- What an endpoint is written for: the parameter of an address, and nothing for a URL. -/
def form : Lookup → Option Text
  | .url _ _ => none
  | .address _ parameter _ => some parameter

theorem parameter_plain {lookup : Lookup}
    (plain : ∀ parameter ∈ lookup.form, parameter ≠ "URL" ∧ '-' ∉ parameter) :
    '-' ∉ lookup.parameter := by
  cases lookup with
  | url reference filter =>
      rw [parameter]
      decide
  | address reference parameter filter => exact (plain parameter rfl).2

end Lookup

namespace Connection

theorem cacheStays : Chains fun before after : Connection σ => after.cache = before.cache where
  stay _ := rfl
  join first second := second.trans first

/-- Discovering endpoints does not change what is kept. -/
theorem direct_cache (peer : Peer σ) (basis : Request.Basis) (method : Text) (lookup : Lookup) :
    Leads (fun before after => after.cache = before.cache)
      ((direct peer basis).answer method lookup) := by
  have reports (record : Record) : Leads (fun before after : Connection σ =>
      after.cache = before.cache) (report (.record record)) := leads_modify fun _ => rfl
  have sends (invocation : Invocation) : Leads (fun before after : Connection σ =>
      after.cache = before.cache) (send peer invocation) := by
    intro connection
    simp only [send, ends_bind, ends_get, ends_set]
    split <;> rfl
  cases lookup with
  | url reference filter => exact find_leads cacheStays peer basis reports sends _ _ _ _ _
  | address reference parameter filter =>
      exact find_leads cacheStays peer basis reports sends _ _ _ _ _

theorem endpoints_answer (peer : Peer σ) (basis : Request.Basis) (method : Text)
    (lookup : Lookup) : (endpoints peer basis).answer method lookup =
      Connection.lookup peer basis method lookup.reference lookup.parameter lookup.filter
        lookup.written := by
  cases lookup <;> rfl

theorem direct_answer (peer : Peer σ) (basis : Request.Basis) (method : Text) (lookup : Lookup) :
    (direct peer basis).answer method lookup =
      find peer basis method lookup.reference lookup.parameter lookup.filter lookup.written := by
  cases lookup <;> rfl

section

variable {peer : Peer σ} {basis : Request.Basis} {lookup : Lookup} {connection : Connection σ}
  (method : Text)

/-- An endpoint that is kept is not discovered again. -/
theorem answer_of_cached {value : Text}
    (cached : connection.cache.lookup (lookup.key basis) = some value) :
    (endpoints peer basis).answer method lookup connection = .ok value connection := by
  rw [endpoints_answer, Connection.lookup]
  unfold Lookup.key at cached
  rw [get_bind, cached]
  rfl

/-- An endpoint that is not kept is discovered, and then it is kept. -/
theorem answer_of_uncached (uncached : connection.cache.lookup (lookup.key basis) = none) :
    (endpoints peer basis).answer method lookup connection =
      ((direct peer basis).answer method lookup >>= fun value => do
        keep (lookup.key basis) value
        pure value) connection := by
  rw [endpoints_answer, direct_answer, Connection.lookup]
  unfold Lookup.key at *
  rw [get_bind, uncached]

end

/-- Every endpoint that is kept was found by a lookup of one of the builds, and it is kept under
the key of that lookup. -/
def Sound (answer : Invocation → Except Text Output) (builds : List (Request.Basis × Call))
    (cache : Cache) : Prop :=
  ∀ key value, cache.lookup key = some value →
    ∃ build ∈ builds, ∃ first ∈ Request.lookups build.1 build.2, first.key build.1 = key ∧
      ∀ method, found answer build.1 method first = .ok value

section

variable {answer : Invocation → Except Text Output} {basis : Request.Basis} {method : Text}

/-- The method is only named in failures. -/
theorem discovered_method {reference : Text} {root : Element}
    (isRoot : discovered answer basis method reference = .ok root) (other : Text) :
    discovered answer basis other reference = .ok root := by
  unfold discovered at *
  split at isRoot
  · cases isRoot
  · split at isRoot
    · cases isRoot
    · split at isRoot
      · cases isRoot
      · split at isRoot
        · exact isRoot
        · cases isRoot

theorem found_method {lookup : Lookup} {value : Text}
    (isFound : found answer basis method lookup = .ok value) (other : Text) :
    found answer basis other lookup = .ok value := by
  unfold found at *
  cases isRoot : discovered answer basis method lookup.reference with
  | error cause =>
      rw [isRoot] at isFound
      cases isFound
  | ok root =>
      rw [isRoot] at isFound
      rw [discovered_method isRoot other]
      dsimp only at *
      split at isFound
      · cases isFound
      · exact isFound

end

section

variable {peer : Peer σ} {answer : Invocation → Except Text Output} (fixed : peer.Fixed answer)
  {builds : List (Request.Basis × Call)}
include fixed

/-- A lookup leaves the cache sound, whatever it answers. -/
theorem answer_sound {basis : Request.Basis} {call : Call} (isBuild : (basis, call) ∈ builds)
    {lookup : Lookup} (isLookup : lookup ∈ Request.lookups basis call) (method : Text)
    {connection : Connection σ} (sound : Sound answer builds connection.cache) :
    Sound answer builds
      (finalState ((endpoints peer basis).answer method lookup connection)).cache := by
  cases cached : connection.cache.lookup (lookup.key basis) with
  | some value =>
      rw [answer_of_cached method cached]
      exact sound
  | none =>
      rw [answer_of_uncached method cached]
      have same := find_outcome fixed basis method lookup connection
      have stays := direct_cache peer basis method lookup connection
      unfold Ends at stays
      simp only [bind, EStateM.bind]
      cases ran : (direct peer basis).answer method lookup connection with
      | error cause after =>
          rw [ran] at stays
          change Sound answer builds after.cache
          rwa [stays]
      | ok value after =>
          rw [ran] at same stays
          change Sound answer builds ((lookup.key basis, value) :: after.cache)
          intro key kept isKept
          rw [List.lookup_cons] at isKept
          split at isKept
          · rename_i here
            cases isKept
            refine ⟨(basis, call), isBuild, lookup, isLookup, (beq_iff_eq.mp here).symm, ?_⟩
            exact found_method same.symm
          · rw [stays] at isKept
            exact sound key kept isKept

/-- A build leaves the cache sound, whatever it ends with. -/
theorem build_sound {basis : Request.Basis} {call : Call} (isBuild : (basis, call) ∈ builds)
    {connection : Connection σ} (sound : Sound answer builds connection.cache) :
    Sound answer builds (finalState (build peer basis call connection)).cache := by
  have agree : Matches (fun first second : Connection σ =>
      first = second ∧ Sound answer builds first.cache)
      (build peer basis call) (build peer basis call) := by
    apply Request.build_matches
    rintro method lookup isLookup first _ ⟨rfl, soundFirst⟩
    exact ⟨rfl, rfl, answer_sound fixed isBuild isLookup method soundFirst⟩
  exact (agree connection connection ⟨rfl, sound⟩).2.2

end

/-- The caches that a sequence of builds may leave. Only the cache goes from one build to the next:
whatever else happens to the connection in between. -/
inductive Leaves (peer : Peer σ) : List (Request.Basis × Call) → Cache → Prop
  | start : Leaves peer [] []
  | next {builds} (connection : Connection σ) (reached : Leaves peer builds connection.cache)
      (basis : Request.Basis) (call : Call) :
      Leaves peer (builds ++ [(basis, call)])
        (finalState (build peer basis call connection)).cache

theorem Leaves.sound {peer : Peer σ} {answer : Invocation → Except Text Output}
    (fixed : peer.Fixed answer) {earlier builds : List (Request.Basis × Call)} {cache : Cache}
    (reached : Leaves peer earlier cache) (among : earlier ⊆ builds) :
    Sound answer builds cache := by
  induction reached with
  | start => exact fun _ _ none => by cases none
  | next connection _ basis call inductionHypothesis =>
      apply build_sound fixed (among (by simp))
      exact inductionHypothesis fun build member => among (by simp [member])

/-- Lookups that share a key are written for the same. -/
def KeysTellApart (builds : List (Request.Basis × Call)) : Prop :=
  ∀ first ∈ builds, ∀ second ∈ builds, ∀ early ∈ Request.lookups first.1 first.2,
    ∀ late ∈ Request.lookups second.1 second.2, early.key first.1 = late.key second.1 →
      early.form = late.form

end Connection

/-- The same basis for a call to another host. -/
def Request.Basis.toHost (basis : Basis) (host : Text) : Basis :=
  { basis with store := basis.store.put Variable.host (.text host) }

namespace Connection

/-- Names of parameters without a hyphen, other than the one that stands for the target, are told
apart. -/
theorem keysTellApart_of_names {builds : List (Request.Basis × Call)}
    (plain : ∀ build ∈ builds, ∀ lookup ∈ Request.lookups build.1 build.2,
      ∀ parameter ∈ lookup.form, parameter ≠ "URL" ∧ '-' ∉ parameter) :
    KeysTellApart builds := by
  intro first isFirst second isSecond early isEarly late isLate sameKey
  have plainEarly := Lookup.parameter_plain (plain first isFirst early isEarly)
  have plainLate := Lookup.parameter_plain (plain second isSecond late isLate)
  have sameParameter : early.parameter = late.parameter := by
    have sameChoice := congrArg CacheKey.choice sameKey
    rw [← early.filter.key_takeWhile plainEarly, ← late.filter.key_takeWhile plainLate]
    exact congrArg (List.takeWhile (· != '-')) sameChoice
  cases early with
  | url reference filter =>
      cases late with
      | url _ _ => rfl
      | address _ parameter _ =>
          exact absurd sameParameter.symm (plain second isSecond _ isLate parameter rfl).1
  | address reference parameter filter =>
      cases late with
      | url _ _ => exact absurd sameParameter (plain first isFirst _ isEarly parameter rfl).1
      | address _ _ _ => exact congrArg some sameParameter

/-- An operation whose target and whose parameter are the same endpoint. -/
def twofold (parameter : Text) : Request.Basis where
  catalog := Catalog.initial.add "idrac" "Enable"
    { verb := .invoke
      target := "EPR:Service"
      body := [(parameter, { fallback := some (.text "EPR:Service") })] }
  store := .ofDefaults {}
  client := {}
  files := ⟨[], []⟩

/-- This peer knows one endpoint. -/
def onePeer : Peer Unit where
  answer _ files state :=
    (.ok ⟨"<a><ResourceURI>r</ResourceURI><SelectorSet><Selector Name=\"n\">v</Selector></SelectorSet></a>",
      0⟩, files, state)

def firstConnection : Connection Unit := ⟨(), ⟨[], []⟩, [], []⟩

end Connection

end ManagementShell
