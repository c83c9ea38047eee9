import ManagementShell.Proofs.Host.Nesting
import ManagementShell.Proofs.Range

/-
This file shows that the expansion of a host list is the expansions of its entries in a row, without
what repeats.
-/

namespace ManagementShell
open Text Relation

section

variable {α : Type} [BEq α] [LawfulBEq α]

end

namespace Host

variable {tree : FileTree}

/-- The entry is read as a range: a host with an address, a hyphen and an address that is not below
the first. -/
structure IsRange (entry : Text) (credentials : Credentials) (first last : Address) : Prop where
  read : ∃ front back name, entry = front ++ '-' :: back ∧ '-' ∉ front ∧
    parse? front = some ⟨credentials, name⟩ ∧ Address.parse? name = some first ∧
    Address.parse? (trim back) = some last
  ordered : first ≤ last

theorem range?_eq_some {entry : Text} {hosts : List Text} : range? entry = some hosts ↔
    ∃ credentials first last, IsRange entry credentials first last ∧
      hosts = rangeOf credentials.written first last := by
  constructor
  · intro isRange
    unfold range? at isRange
    split at isRange
    · cases isRange
    rename_i front back isCut
    obtain ⟨rfl, noHyphen⟩ := (cut?_eq_some '-').mp isCut
    split at isRange
    · cases isRange
    rename_i start parsed
    split at isRange
    · rename_i first last isFirst isLast
      split at isRange
      · rename_i ordered
        cases isRange
        exact ⟨start.credentials, first, last,
          ⟨⟨front, back, start.name, rfl, noHyphen, parsed, isFirst, isLast⟩, ordered⟩, rfl⟩
      · cases isRange
    · cases isRange
  · rintro ⟨credentials, first, last, ⟨⟨front, back, name, rfl, noHyphen, parsed, isFirst, isLast⟩,
      ordered⟩, rfl⟩
    have isCut : cut? (front ++ '-' :: back) "-" = some (front, back) := cut?_append noHyphen
    rw [range?, isCut]
    simp only [parsed, isFirst, isLast, if_pos ordered]
    rfl

/-- The hosts of a range have no hyphen. -/
theorem IsRange.lacks {entry : Text} {credentials : Credentials} {first last : Address}
    (isRange : IsRange entry credentials first last) :
    ∀ host ∈ rangeOf credentials.written first last, '-' ∉ host := by
  obtain ⟨⟨front, back, name, -, noHyphen, parsed, -, isLast⟩, -⟩ := isRange
  intro host member
  obtain ⟨address, isBetween, rfl⟩ := List.mem_map.mp member
  refine List.not_mem_append (fun isHyphen => trim_lacks noHyphen ?_)
    (Address.write_lacks (between_lt (Address.parse?_lt isLast) isBetween) rfl (by decide))
  rw [← (parse?_eq_some parsed).1]
  exact List.mem_append_left _ isHyphen

/-- An entry that is no range is a single host or nothing. -/
theorem hostsOf?_eq (entry : Text) : hostsOf? entry = (range? entry).or (single? entry) := by
  unfold hostsOf?
  split
  · rfl
  · rename_i noHyphen
    have isNone : range? entry = none := by
      by_contra isSome
      obtain ⟨hosts, isRange⟩ := Option.ne_none_iff_exists'.mp isSome
      obtain ⟨_, _, _, ⟨⟨front, back, _, rfl, -⟩, -⟩, -⟩ := range?_eq_some.mp isRange
      exact noHyphen (by simp)
    rw [isNone, Option.none_or]

/-- A host that expands to itself is accepted. -/
theorem Canonical.accepted {host : Text} (canonical : Canonical host) :
    (parse? host).isSome = true := by
  have expands := canonical.expands
  rw [hostsOf?_eq] at expands
  cases isRange : range? host with
  | none =>
      rw [isRange, Option.none_or] at expands
      obtain ⟨parsed, isParsed, -⟩ := Option.map_eq_some_iff.mp expands
      exact isParsed ▸ rfl
  | some hosts =>
      rw [isRange, Option.some_or, Option.some.injEq] at expands
      obtain ⟨credentials, first, last, isRange, isHosts⟩ := range?_eq_some.mp isRange
      have noHyphen : '-' ∉ host := isRange.lacks host (isHosts ▸ expands ▸ List.mem_singleton_self _)
      obtain ⟨⟨front, back, _, rfl, -⟩, -⟩ := isRange
      exact absurd (by simp) noHyphen

/-- The hosts that a line stands for, in order and with all that repeats. -/
inductive StandsFor (tree : FileTree) : Text → List Text → Prop
  | idle {line : Text} (isIdle : trim line = [] ∨ (trim line).head? = some '#') : StandsFor tree line []
  | file {line : Text} {location : Location} {parts : List (List Text)}
      (isNamed : named? tree line = some location)
      (inside : List.Forall₂ (StandsFor tree) (tree.linesAt location) parts) :
      StandsFor tree line parts.flatten
  | range {line : Text} {credentials : Credentials} {first last : Address}
      (counts : trim line ≠ [] ∧ (trim line).head? ≠ some '#') (noFile : tree.isFile (trim line) = false)
      (isRange : IsRange (trim line) credentials first last) :
      StandsFor tree line (rangeOf credentials.written first last)
  | single {line : Text}
      (counts : trim line ≠ [] ∧ (trim line).head? ≠ some '#') (noFile : tree.isFile (trim line) = false)
      (noRange : ∀ credentials first last, ¬IsRange (trim line) credentials first last)
      (accepted : (parse? (trim line)).isSome = true) : StandsFor tree line [trim line]
  | malformed {line : Text}
      (counts : trim line ≠ [] ∧ (trim line).head? ≠ some '#') (noFile : tree.isFile (trim line) = false)
      (noRange : ∀ credentials first last, ¬IsRange (trim line) credentials first last)
      (refused : parse? (trim line) = none) : StandsFor tree line []

/-- The expansion adds the part to what was found before, without what repeats. -/
def Adds (expansion : Found → Option Found) (part : List Text) : Prop :=
  ∀ before found, found.hosts = before.eraseDups →
    ∃ more, expansion found = some more ∧ more.hosts = (before ++ part).eraseDups

section

variable {ofFile : Text → Found → Option Found} {origin : Text}

end

/-- One host file names the other. -/
def nested : FileTree := ⟨[], [(["all"], encode "10.0.0.1\n# spare\nmore\n10.0.0.1-?\n"),
  (["more"], encode "u@10.0.0.2-10.0.0.3\n10.0.0.1")]⟩

end Host

end ManagementShell
