import ManagementShell.Host.Expansion
import ManagementShell.Proofs.Text.Blank
import ManagementShell.Proofs.Text.Cut

/-
This file shows that every host that an expansion finds is one that expands to itself.
-/

namespace ManagementShell

namespace Text

theorem splitOn_append {front back : Text} {separator : Char} (absent : separator ∉ front) :
    (front ++ separator :: back).splitOn separator = front :: back.splitOn separator := by
  induction front with
  | nil => rw [List.nil_append, splitOn, if_pos rfl]
  | cons character rest inductionHypothesis =>
      rw [List.mem_cons, not_or] at absent
      rw [List.cons_append, splitOn, if_neg (Ne.symm absent.1), inductionHypothesis absent.2]

/-- Nothing is lost in a split but the separators. -/
theorem mem_of_splitOn {text : Text} (separator : Char) {holds : Char → Prop}
    (isSeparator : holds separator)
    (parts : ∀ part ∈ text.splitOn separator, ∀ character ∈ part, holds character) :
    ∀ character ∈ text, holds character := by
  induction text with
  | nil => exact List.forall_mem_nil _
  | cons first rest inductionHypothesis =>
      unfold splitOn at parts
      split at parts
      · rename_i same
        rw [List.forall_mem_cons] at parts ⊢
        exact ⟨same ▸ isSeparator, inductionHypothesis parts.2⟩
      · split at parts
        · rename_i isSplit
          rw [isSplit] at inductionHypothesis
          rw [List.forall_mem_singleton, List.forall_mem_singleton] at parts
          exact List.forall_mem_cons.mpr ⟨parts, inductionHypothesis (List.forall_mem_nil _)⟩
        · rename_i front others isSplit
          rw [isSplit] at inductionHypothesis
          rw [List.forall_mem_cons, List.forall_mem_cons] at parts
          rw [List.forall_mem_cons]
          exact ⟨parts.1.1, inductionHypothesis (List.forall_mem_cons.mpr ⟨parts.1.2, parts.2⟩)⟩

end Text

open Text

namespace Address

theorem octet?_ofNat : ∀ value < 256, octet? (ofNat value) = some value := by decide +kernel

theorem ofNat_digits : ∀ value < 256, (ofNat value).all Char.isDigit = true := by decide +kernel

theorem octet?_le {text : Text} {value : Nat} (isOctet : octet? text = some value) :
    value ≤ 255 := by
  unfold octet? at isOctet
  split at isOctet
  · split at isOctet
    · split at isOctet
      · cases isOctet
        assumption
      · cases isOctet
    · cases isOctet
  · cases isOctet

theorem octets_le {parts : List Text} {values : List Nat}
    (areOctets : parts.mapM octet? = some values) : ∀ value ∈ values, value ≤ 255 := by
  induction parts generalizing values with
  | nil =>
      cases areOctets
      exact List.forall_mem_nil _
  | cons part rest inductionHypothesis =>
      rw [List.mapM_cons] at areOctets
      obtain ⟨value, isOctet, more⟩ := Option.bind_eq_some_iff.mp areOctets
      obtain ⟨others, areOthers, isValues⟩ := Option.bind_eq_some_iff.mp more
      cases isValues
      exact List.forall_mem_cons.mpr ⟨octet?_le isOctet, inductionHypothesis areOthers⟩

theorem parse?_lt {text : Text} {address : Nat} (parsed : parse? text = some address) :
    address < 4294967296 := by
  unfold parse? at parsed
  split at parsed
  · rename_i first second third fourth areOctets
    cases parsed
    have small := octets_le areOctets
    simp only [List.forall_mem_cons] at small
    omega
  · cases parsed

theorem write_eq (address : Nat) : write address =
    ofNat (address / 16777216) ++ '.' :: (ofNat (address / 65536 % 256) ++ '.' ::
      (ofNat (address / 256 % 256) ++ '.' :: ofNat (address % 256))) := by
  simp [write, join, List.intercalate]

variable {address : Nat}

theorem write_characters (small : address < 4294967296) :
    ∀ character ∈ write address, character.isDigit = true ∨ character = '.' := by
  have digits {value : Nat} (isByte : value < 256) :
      ∀ character ∈ ofNat value, character.isDigit = true :=
    List.all_eq_true.mp (ofNat_digits value isByte)
  intro character member
  rw [write_eq] at member
  simp only [List.mem_append, List.mem_cons] at member
  rcases member with first | point | second | point | third | point | fourth
  · exact .inl (digits (by omega) _ first)
  · exact .inr point
  · exact .inl (digits (by omega) _ second)
  · exact .inr point
  · exact .inl (digits (by omega) _ third)
  · exact .inr point
  · exact .inl (digits (by omega) _ fourth)

theorem write_lacks (small : address < 4294967296) {mark : Char} (noDigit : mark.isDigit = false)
    (noPoint : mark ≠ '.') : mark ∉ write address := by
  intro member
  rcases write_characters small mark member with digit | point
  · rw [noDigit] at digit
    cases digit
  · exact noPoint point

/-- An address is written as a text that is read as the address. -/
theorem parse?_write (small : address < 4294967296) : parse? (write address) = some address := by
  have noPoint {value : Nat} (isByte : value < 256) : '.' ∉ ofNat value := by
    intro member
    have digit := List.all_eq_true.mp (ofNat_digits value isByte) _ member
    cases digit
  have split : (write address).splitOn '.' = [ofNat (address / 16777216),
      ofNat (address / 65536 % 256), ofNat (address / 256 % 256), ofNat (address % 256)] := by
    rw [write_eq, splitOn_append (noPoint (by omega)), splitOn_append (noPoint (by omega)),
      splitOn_append (noPoint (by omega)), splitOn_of_not_mem (noPoint (by omega))]
  have areOctets : ((write address).splitOn '.').mapM octet? = some [address / 16777216,
      address / 65536 % 256, address / 256 % 256, address % 256] := by
    rw [split]
    simp [octet?_ofNat _ (show address / 16777216 < 256 by omega),
      octet?_ofNat _ (show address / 65536 % 256 < 256 by omega),
      octet?_ofNat _ (show address / 256 % 256 < 256 by omega),
      octet?_ofNat _ (show address % 256 < 256 by omega)]
  have composed : ((address / 16777216 * 256 + address / 65536 % 256) * 256 +
      address / 256 % 256) * 256 + address % 256 = address := by omega
  rw [parse?, areOctets]
  exact congrArg some composed

theorem write_trimmed (small : address < 4294967296) :
    write address ≠ [] ∧ Trimmed (write address) := by
  have visible {character : Char} (member : character ∈ write address) :
      isBlank character = false := by
    rcases write_characters small character member with digit | rfl
    · exact isBlank_of_isDigit digit
    · rfl
  refine ⟨by simp [write_eq], fun character isHead => ?_, fun character isLast => ?_⟩
  · exact visible (List.mem_of_mem_head? isHead)
  · exact visible (List.mem_of_mem_getLast? isLast)

end Address

namespace Host

/-- The credentials are none, or the at-sign after them ends them. -/
def HasForm (credentials : Credentials) : Prop := credentials = .absent ∨
  ∃ before, credentials.written = before ++ ['@'] ∧ credentials? before = some credentials

theorem hasForm_of_credentials? {before : Text} {credentials : Credentials}
    (isRead : credentials? before = some credentials) :
    credentials.written = before ++ ['@'] ∧ HasForm credentials := by
  suffices written : credentials.written = before ++ ['@'] from
    ⟨written, .inr ⟨before, written, isRead⟩⟩
  unfold credentials? at isRead
  split at isRead
  · rename_i name password isCut
    obtain ⟨rfl, -⟩ := (cut?_eq_some ':').mp isCut
    split at isRead
    · cases isRead
      simp [Credentials.written]
    · cases isRead
  · split at isRead
    · cases isRead
      simp [Credentials.written]
    · cases isRead

/-- A host is read from its credentials and its name, with blanks around them. -/
theorem parse?_eq_some {text : Text} {host : Host} (parsed : parse? text = some host) :
    host.credentials.written ++ host.name = trim text ∧ HasForm host.credentials := by
  unfold parse? at parsed
  dsimp only at parsed
  cases isCut : cutLast? (trim text) '@' with
  | none =>
      rw [isCut] at parsed
      dsimp only at parsed
      split at parsed
      · cases parsed
        exact ⟨rfl, .inl rfl⟩
      · cases parsed
  | some parts =>
      obtain ⟨before, name⟩ := parts
      rw [isCut] at parsed
      dsimp only at parsed
      cases isRead : credentials? before with
      | none =>
          rw [isRead] at parsed
          cases parsed
      | some credentials =>
          rw [isRead] at parsed
          dsimp only [Option.map_some] at parsed
          split at parsed
          · cases parsed
            have form := hasForm_of_credentials? isRead
            refine ⟨?_, form.2⟩
            rw [form.1, eq_of_cutLast? isCut, List.append_assoc, List.singleton_append]
          · cases parsed

/-- Credentials in front of a host are read with it. -/
theorem parse?_written {credentials : Credentials} {name : Text} (form : HasForm credentials)
    (trimmed : Trimmed (credentials.written ++ name)) (noSign : '@' ∉ name)
    (valid : (isAddress name || isName name) = true) :
    parse? (credentials.written ++ name) = some ⟨credentials, name⟩ := by
  rw [parse?, trimmed.trim_eq]
  rcases form with rfl | ⟨before, written, isRead⟩
  · rw [Credentials.written, List.nil_append, cutLast?_eq_none noSign]
    exact if_pos valid
  · rw [written, List.append_assoc, List.singleton_append, cutLast?_append noSign]
    simp only [isRead, Option.map_some]
    exact if_pos valid

/-- A host string that expands to itself. -/
structure Canonical (text : Text) : Prop where
  trimmed : Trimmed text
  nonempty : text ≠ []
  noComment : text.head? ≠ some '#'
  expands : hostsOf? text = some [text]

/-- The credentials in front of a range begin with the first character of the range. -/
theorem head?_credentials {first : Text} {start : Host} (parsed : parse? first = some start)
    (visible : ∀ character ∈ first.head?, isBlank character = false)
    (present : start.credentials.written ≠ []) :
    start.credentials.written.head? = first.head? := by
  have written := (parse?_eq_some parsed).1
  have same : (trim first).head? = first.head? := by
    cases first with
    | nil => rfl
    | cons character rest =>
        have isVisible := visible character rfl
        rw [trim, trimStart_of_head isVisible, head?_trimEnd rest isVisible]
        rfl
  rw [← same, ← written, List.head?_append_of_ne_nil _ present]

theorem canonical_of_address {credentials : Credentials} {address : Nat}
    (form : HasForm credentials) (noHyphen : '-' ∉ credentials.written)
    (begins : ∀ character ∈ credentials.written.head?, isBlank character = false ∧ character ≠ '#')
    (small : address < 4294967296) : Canonical (credentials.written ++ Address.write address) := by
  obtain ⟨nonempty, trimmed⟩ := Address.write_trimmed small
  have head : ∀ character ∈ (credentials.written ++ Address.write address).head?,
      isBlank character = false ∧ character ≠ '#' := by
    cases isWritten : credentials.written with
    | nil =>
        intro character isHead
        refine ⟨trimmed.head character isHead, ?_⟩
        rintro rfl
        exact Address.write_lacks small rfl (by decide) (List.mem_of_mem_head? isHead)
    | cons first rest => simpa [isWritten] using begins
  have whole : Trimmed (credentials.written ++ Address.write address) := by
    refine ⟨fun character isHead => (head character isHead).1, fun character isLast => ?_⟩
    rw [List.getLast?_append_of_ne_nil _ nonempty] at isLast
    exact trimmed.last character isLast
  have valid : (isAddress (Address.write address) || isName (Address.write address)) = true := by
    rw [isAddress, Address.parse?_write small]
    rfl
  refine ⟨whole, by simp [nonempty], fun isHead => (head '#' isHead).2 rfl, ?_⟩
  have absent : '-' ∉ credentials.written ++ Address.write address :=
    List.not_mem_append noHyphen (Address.write_lacks small rfl (by decide))
  rw [hostsOf?, if_neg absent, single?, parse?_written form whole
    (Address.write_lacks small rfl (by decide)) valid]
  rfl

theorem between_lt {lower upper address : Nat} (bound : upper < 4294967296)
    (member : address ∈ Address.between lower upper) : address < 4294967296 := by
  obtain ⟨offset, isOffset, rfl⟩ := List.mem_map.mp member
  rw [List.mem_range] at isOffset
  omega

theorem canonical_of_range {entry : Text} {hosts : List Text} (trimmed : Trimmed entry)
    (noComment : entry.head? ≠ some '#') (isRange : range? entry = some hosts) :
    ∀ host ∈ hosts, Canonical host := by
  unfold range? at isRange
  split at isRange
  · cases isRange
  rename_i first last isCut
  obtain ⟨rfl, noHyphen⟩ := (cut?_eq_some '-').mp isCut
  split at isRange
  · cases isRange
  rename_i start parsed
  split at isRange
  · rename_i lower upper isLower isUpper
    split at isRange
    · cases isRange
      intro host member
      obtain ⟨address, isBetween, rfl⟩ := List.mem_map.mp member
      obtain ⟨written, form⟩ := parse?_eq_some parsed
      have begins : ∀ character ∈ first.head?, isBlank character = false ∧ character ≠ '#' := by
        intro character isHead
        have isFirst : (first ++ '-' :: last).head? = some character :=
          List.mem_head?_append_of_mem_head? isHead
        refine ⟨trimmed.head character isFirst, ?_⟩
        rintro rfl
        exact noComment isFirst
      refine canonical_of_address form (fun isHyphen => trim_lacks noHyphen ?_)
        (fun character isHead => ?_) (between_lt (Address.parse?_lt isUpper) isBetween)
      · rw [← written]
        exact List.mem_append_left _ isHyphen
      · have present : start.credentials.written ≠ [] := by
          intro absent
          rw [absent] at isHead
          cases isHead
        rw [head?_credentials parsed (fun other isFirst => (begins other isFirst).1) present]
          at isHead
        exact begins character isHead
    · cases isRange
  · cases isRange

theorem canonical_of_hostsOf? {entry : Text} {hosts : List Text} (trimmed : Trimmed entry)
    (nonempty : entry ≠ []) (noComment : entry.head? ≠ some '#')
    (isExpanded : hostsOf? entry = some hosts) : ∀ host ∈ hosts, Canonical host := by
  have alone (isSingle : single? entry = some hosts) : ∀ host ∈ hosts, Canonical host := by
    obtain ⟨parsed, -, rfl⟩ := Option.map_eq_some_iff.mp isSingle
    intro host member
    rw [List.mem_singleton] at member
    exact member ▸ ⟨trimmed, nonempty, noComment, isExpanded⟩
  unfold hostsOf? at isExpanded
  split at isExpanded
  · cases isRange : range? entry with
    | none =>
        rw [isRange, Option.none_or] at isExpanded
        exact alone isExpanded
    | some found =>
        rw [isRange, Option.some_or] at isExpanded
        cases isExpanded
        exact canonical_of_range trimmed noComment isRange
  · exact alone isExpanded

def Found.AllCanonical (found : Found) : Prop := ∀ host ∈ found.hosts, Canonical host

theorem Found.AllCanonical.add {found : Found} (all : found.AllCanonical) {host : Text}
    (canonical : Canonical host) : (found.add host).AllCanonical := by
  unfold Found.add
  split
  · exact all
  · intro other member
    rcases List.mem_append.mp member with earlier | new
    · exact all other earlier
    · exact List.mem_singleton.mp new ▸ canonical

theorem Found.AllCanonical.addAll {found : Found} (all : found.AllCanonical) {hosts : List Text}
    (canonical : ∀ host ∈ hosts, Canonical host) :
    (hosts.foldl Found.add found).AllCanonical := by
  induction hosts generalizing found with
  | nil => exact all
  | cons host rest inductionHypothesis =>
      rw [List.forall_mem_cons] at canonical
      exact inductionHypothesis (all.add canonical.1) canonical.2

variable {tree : FileTree}

theorem expandEntries_canonical {ofFile : Text → Found → Option Found} {origin : Text}
    (ofFile_canonical : ∀ entry found more, ofFile entry found = some more →
      found.AllCanonical → more.AllCanonical)
    {lines : List Text} {found more : Found}
    (expanded : expandEntries tree ofFile origin lines found = some more)
    (all : found.AllCanonical) : more.AllCanonical := by
  induction lines generalizing found with
  | nil =>
      cases expanded
      exact all
  | cons line rest inductionHypothesis =>
      unfold expandEntries at expanded
      dsimp only at expanded
      split at expanded
      · exact inductionHypothesis expanded all
      rename_i counts
      rw [not_or] at counts
      split at expanded
      · split at expanded
        · rename_i isOfFile
          exact inductionHypothesis expanded (ofFile_canonical _ _ _ isOfFile all)
        · cases expanded
      · split at expanded
        · rename_i hosts isExpanded
          exact inductionHypothesis expanded
            (all.addAll (canonical_of_hostsOf? (trimmed_trim line) counts.1 counts.2 isExpanded))
        · exact inductionHypothesis expanded all

theorem expandFile_canonical (depth : Nat) {path : Text} {found more : Found}
    (expanded : expandFile tree depth path found = some more) (all : found.AllCanonical) :
    more.AllCanonical := by
  induction depth generalizing path found more with
  | zero => cases expanded
  | succ depth inductionHypothesis =>
      unfold expandFile at expanded
      split at expanded
      · exact expandEntries_canonical (fun _ _ _ isOfFile => inductionHypothesis isOfFile)
          expanded all
      · cases expanded
        exact all

/-- Every host that an expansion finds expands to itself, whether it stands in the list, in a range
or in a file. -/
theorem expand?_canonical {entries : List Text} {found : Found}
    (expanded : expand? tree entries = some found) : found.AllCanonical :=
  expandEntries_canonical (fun _ _ _ isOfFile => expandFile_canonical _ isOfFile) expanded
    (List.forall_mem_nil _)

theorem Canonical.expand? {host : Text} (canonical : Canonical host)
    (noFile : tree.isFile host = false) : Host.expand? tree [host] = some ⟨[host], []⟩ := by
  have counts : ¬(host = [] ∨ host.head? = some '#') :=
    not_or.mpr ⟨canonical.nonempty, canonical.noComment⟩
  rw [Host.expand?, expandEntries, canonical.trimmed.trim_eq, if_neg counts, noFile,
    canonical.expands]
  rfl

/-- The characters that addresses and names are made of. -/
def IsHostCharacter (character : Char) : Prop :=
  character.isAlphanum = true ∨ character = '-' ∨ character = '.'

instance : DecidablePred IsHostCharacter := fun character =>
  inferInstanceAs (Decidable (character.isAlphanum = true ∨ character = '-' ∨ character = '.'))

/-- What can be checked of each ASCII character holds of the characters of hosts. -/
theorem IsHostCharacter.check (holds : Char → Bool)
    (all : ∀ code < 128, IsHostCharacter (Char.ofNat code) → holds (Char.ofNat code) = true)
    {character : Char} (isHost : IsHostCharacter character) : holds character = true := by
  have few : character.toNat < 128 := by
    rcases isHost with isAlphanumeric | rfl | rfl
    · exact ascii_of_isAlphanum isAlphanumeric
    · decide
    · decide
  rw [← Char.ofNat_toNat character] at isHost ⊢
  exact all character.toNat few isHost

theorem IsHostCharacter.isPasswordCharacter {character : Char} (isHost : IsHostCharacter character) :
    Masking.isPasswordCharacter character = true :=
  IsHostCharacter.check Masking.isPasswordCharacter (by decide) isHost

theorem octets_characters {parts : List Text} {values : List Nat}
    (areOctets : parts.mapM Address.octet? = some values) :
    ∀ part ∈ parts, ∀ character ∈ part, IsHostCharacter character := by
  induction parts generalizing values with
  | nil => exact List.forall_mem_nil _
  | cons part rest inductionHypothesis =>
      rw [List.mapM_cons] at areOctets
      obtain ⟨value, isOctet, more⟩ := Option.bind_eq_some_iff.mp areOctets
      obtain ⟨others, areOthers, -⟩ := Option.bind_eq_some_iff.mp more
      refine List.forall_mem_cons.mpr ⟨fun character member => ?_, inductionHypothesis areOthers⟩
      unfold Address.octet? natural? at isOctet
      split at isOctet
      · split at isOctet
        · rename_i isNumber
          simp only [Option.ite_none_right_eq_some] at isNumber
          have digit := List.all_eq_true.mp isNumber.1.2 character member
          exact .inl (by simp [Char.isAlphanum, digit])
        · cases isOctet
      · cases isOctet

theorem isAddress_characters {text : Text} (valid : isAddress text = true) :
    ∀ character ∈ text, IsHostCharacter character := by
  refine mem_of_splitOn '.' (.inr (.inr rfl)) ?_
  unfold isAddress Address.parse? at valid
  split at valid
  · rename_i areOctets
    exact octets_characters areOctets
  · cases valid

theorem isName_characters {text : Text} (valid : isName text = true) :
    ∀ character ∈ text, IsHostCharacter character := by
  simp only [isName, Bool.and_eq_true] at valid
  have inLabels : ∀ character ∈ if text.getLast? = some '.' then text.dropLast else text,
      IsHostCharacter character := by
    refine mem_of_splitOn '.' (.inr (.inr rfl)) fun label member character inside => ?_
    have isLabel := List.all_eq_true.mp valid.2 label member
    simp only [Host.isLabel, Bool.and_eq_true] at isLabel
    have labelled := List.all_eq_true.mp isLabel.2 character inside
    rw [isLabelCharacter, Bool.or_eq_true, beq_iff_eq] at labelled
    exact labelled.imp_right .inl
  split at inLabels
  · rename_i isLast
    intro character member
    rw [← List.dropLast_append_getLast? '.' isLast, List.mem_append, List.mem_singleton] at member
    exact member.elim (inLabels character) fun same => .inr (.inr same)
  · exact inLabels

/-- A host is an address or a name. -/
def IsValid (name : Text) : Prop := (isAddress name || isName name) = true

theorem IsValid.characters {name : Text} (valid : IsValid name) :
    ∀ character ∈ name, IsHostCharacter character := by
  rcases Bool.or_eq_true_iff.mp valid with address | named
  · exact isAddress_characters address
  · exact isName_characters named

theorem IsValid.lacks {name : Text} (valid : IsValid name) {mark : Char}
    (other : ¬IsHostCharacter mark) : mark ∉ name := fun member => other (valid.characters mark member)

theorem written_full (user word name : Text) : Credentials.written (.full user word) ++ name =
    user ++ ':' :: (word ++ '@' :: name) := by
  simp [Credentials.written]

/-- Credentials with a password are read up to the last at-sign. -/
theorem parse?_full {user word name : Text} (given : user ≠ []) (noColon : ':' ∉ user)
    (isGiven : word ≠ []) (valid : IsValid name)
    (trimmed : Trimmed (user ++ ':' :: (word ++ '@' :: name))) :
    parse? (user ++ ':' :: (word ++ '@' :: name)) = some ⟨.full user word, name⟩ := by
  have isRead : credentials? (user ++ ':' :: word) = some (.full user word) := by
    have split : cut? (user ++ ':' :: word) ":" = some (user, word) := cut?_append noColon
    rw [credentials?, split]
    exact if_pos ⟨given, isGiven⟩
  rw [← written_full] at trimmed ⊢
  exact parse?_written (hasForm_of_credentials? isRead).2 trimmed (valid.lacks (by decide)) valid

end Host

end ManagementShell
