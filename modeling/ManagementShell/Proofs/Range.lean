import Mathlib.Data.List.Nodup
import ManagementShell.Proofs.Host

/-
This file shows what a range of addresses in a host list stands for.
-/

namespace ManagementShell
open Text

namespace Address

theorem ofNat_isLabel : ∀ value < 256, Host.isLabel (ofNat value) = true := by decide +kernel

theorem ofNat_short : ∀ value < 256, (ofNat value).length ≤ 3 := by decide +kernel

/-- Two addresses are not written alike. -/
theorem write_inj {first second : Nat} (small : first < 4294967296)
    (smallToo : second < 4294967296) (same : write first = write second) : first = second := by
  have parsed := parse?_write small
  rw [same, parse?_write smallToo, Option.some.injEq] at parsed
  exact parsed.symm

theorem length_write {address : Nat} (small : address < 4294967296) :
    (write address).length ≤ 15 := by
  have short {value : Nat} (isByte : value < 256) : (ofNat value).length ≤ 3 :=
    ofNat_short value isByte
  have first := short (show address / 16777216 < 256 by omega)
  have second := short (show address / 65536 % 256 < 256 by omega)
  have third := short (show address / 256 % 256 < 256 by omega)
  have fourth := short (show address % 256 < 256 by omega)
  rw [write_eq]
  simp only [List.length_append, List.length_cons]
  omega

theorem getLast?_write (address : Nat) : (write address).getLast? ≠ some '.' := by
  have isByte : address % 256 < 256 := Nat.mod_lt _ (by decide)
  have nonempty : ofNat (address % 256) ≠ [] := by
    intro empty
    have label := ofNat_isLabel _ isByte
    rw [empty] at label
    cases label
  have regrouped : write address = (ofNat (address / 16777216) ++ '.' ::
      (ofNat (address / 65536 % 256) ++ '.' :: (ofNat (address / 256 % 256) ++ ['.']))) ++
        ofNat (address % 256) := by
    rw [write_eq]
    simp only [List.append_assoc, List.cons_append, List.nil_append]
  intro isLast
  rw [regrouped, List.getLast?_append_of_ne_nil _ nonempty] at isLast
  have digit := List.all_eq_true.mp (ofNat_digits _ isByte) _ (List.mem_of_getLast? isLast)
  cases digit

end Address

namespace Host

/-- A hyphen between two labels makes one label of them if they are short. -/
theorem isLabel_hyphen {first second : Text} (isLabel : isLabel first = true)
    (isLabelToo : Host.isLabel second = true) (short : first.length + second.length < 63) :
    Host.isLabel (first ++ '-' :: second) = true := by
  simp only [Host.isLabel, Bool.and_eq_true, bne_iff_ne, decide_eq_true_eq] at *
  obtain ⟨⟨⟨⟨nonempty, -⟩, head⟩, -⟩, characters⟩ := isLabel
  obtain ⟨⟨⟨⟨nonemptyToo, -⟩, -⟩, last⟩, charactersToo⟩ := isLabelToo
  refine ⟨⟨⟨⟨by simp, by simp; omega⟩, ?_⟩, ?_⟩, ?_⟩
  · rwa [List.head?_append_of_ne_nil _ nonempty]
  · rw [List.getLast?_append_of_ne_nil _ (List.cons_ne_nil _ _), List.getLast?_cons_of_ne_nil nonemptyToo]
    exact last
  · rw [List.all_append, List.all_cons, characters, charactersToo]
    rfl

/-- Two addresses with a hyphen between them have the form of a host name. -/
theorem isName_range {first last : Nat} (small : first < 4294967296)
    (smallToo : last < 4294967296) :
    isName (Address.write first ++ '-' :: Address.write last) = true := by
  have noPoint {value : Nat} (isByte : value < 256) : '.' ∉ ofNat value := by
    intro member
    have digit := List.all_eq_true.mp (Address.ofNat_digits value isByte) _ member
    cases digit
  have label {value : Nat} (isByte : value < 256) : isLabel (ofNat value) = true :=
    Address.ofNat_isLabel value isByte
  have short {value : Nat} (isByte : value < 256) : (ofNat value).length ≤ 3 :=
    Address.ofNat_short value isByte
  have middle : isLabel (ofNat (first % 256) ++ '-' :: ofNat (last / 16777216)) = true := by
    refine isLabel_hyphen (label (by omega)) (label (by omega)) ?_
    have front := short (show first % 256 < 256 by omega)
    have back := short (show last / 16777216 < 256 by omega)
    omega
  have noPointInside : '.' ∉ ofNat (first % 256) ++ '-' :: ofNat (last / 16777216) := by
    have behind : '.' ∉ '-' :: ofNat (last / 16777216) := by
      rw [List.mem_cons, not_or]
      exact ⟨by decide, noPoint (by omega)⟩
    exact List.not_mem_append (noPoint (by omega)) behind
  have split : (Address.write first ++ '-' :: Address.write last).splitOn '.' =
      [ofNat (first / 16777216), ofNat (first / 65536 % 256), ofNat (first / 256 % 256),
        ofNat (first % 256) ++ '-' :: ofNat (last / 16777216), ofNat (last / 65536 % 256),
        ofNat (last / 256 % 256), ofNat (last % 256)] := by
    have written : Address.write first ++ '-' :: Address.write last =
        ofNat (first / 16777216) ++ '.' :: (ofNat (first / 65536 % 256) ++ '.' ::
          (ofNat (first / 256 % 256) ++ '.' ::
            ((ofNat (first % 256) ++ '-' :: ofNat (last / 16777216)) ++ '.' ::
              (ofNat (last / 65536 % 256) ++ '.' :: (ofNat (last / 256 % 256) ++ '.' ::
                ofNat (last % 256)))))) := by
      rw [Address.write_eq, Address.write_eq]
      simp only [List.append_assoc, List.cons_append]
    rw [written, splitOn_append (noPoint (by omega)), splitOn_append (noPoint (by omega)),
      splitOn_append (noPoint (by omega)), splitOn_append noPointInside,
      splitOn_append (noPoint (by omega)), splitOn_append (noPoint (by omega)),
      splitOn_of_not_mem (noPoint (by omega))]
  have noEnd : (Address.write first ++ '-' :: Address.write last).getLast? ≠ some '.' := by
    have given := (Address.write_trimmed smallToo).1
    rw [List.getLast?_append_of_ne_nil _ (List.cons_ne_nil _ _), List.getLast?_cons_of_ne_nil given]
    exact Address.getLast?_write last
  have length : (Address.write first ++ '-' :: Address.write last).length ≤ 255 := by
    have front := Address.length_write small
    have back := Address.length_write smallToo
    rw [List.length_append, List.length_cons]
    omega
  have nonempty : Address.write first ++ '-' :: Address.write last ≠ [] := by simp
  rw [isName, if_neg noEnd, split]
  simp only [List.all_cons, middle, List.all_nil, Bool.and_true, decide_eq_true length,
    bne_iff_ne.mpr nonempty, label (show first / 16777216 < 256 by omega),
    label (show first / 65536 % 256 < 256 by omega), label (show first / 256 % 256 < 256 by omega),
    label (show last / 65536 % 256 < 256 by omega), label (show last / 256 % 256 < 256 by omega),
    label (show last % 256 < 256 by omega)]

/-- What an entry stands for that has the form of a range. -/
def rangeOf (prefixed : Text) (first last : Address) : List Text :=
  (Address.between first last).map fun address => prefixed ++ address.write

section

variable {credentials : Credentials} {first last : Nat} (form : HasForm credentials)
  (small : first < 4294967296) (smallToo : last < 4294967296)
include form small smallToo

/-- Without a hyphen in the credentials, the range is cut between its addresses. -/
theorem range?_of_lacks (noHyphen : '-' ∉ credentials.written)
    (trimmed : Trimmed (credentials.written ++ Address.write first)) :
    range? (credentials.written ++ Address.write first ++ '-' :: Address.write last) =
      if first ≤ last then some (rangeOf credentials.written first last) else none := by
  have absent : '-' ∉ credentials.written ++ Address.write first :=
    List.not_mem_append noHyphen (Address.write_lacks small rfl (by decide))
  have isCut : cut? (credentials.written ++ Address.write first ++ '-' :: Address.write last) "-" =
      some (credentials.written ++ Address.write first, Address.write last) := cut?_append absent
  have valid : (isAddress (Address.write first) || isName (Address.write first)) = true := by
    rw [isAddress, Address.parse?_write small]
    rfl
  have parsed := parse?_written form trimmed (Address.write_lacks small rfl (by decide)) valid
  rw [range?, isCut]
  simp only [parsed, Address.parse?_write small, (Address.write_trimmed smallToo).2.trim_eq,
    Address.parse?_write smallToo]
  rfl

omit small smallToo in
/-- With a hyphen in the credentials, the entry is cut there, and no address stands behind it. -/
theorem range?_of_mem (hyphen : '-' ∈ credentials.written) (rest : Text) :
    range? (credentials.written ++ rest) = none := by
  rcases form with rfl | ⟨before, written, -⟩
  · cases hyphen
  rw [written, List.mem_append] at hyphen
  obtain ⟨front, back, rfl, absent⟩ :=
    List.eq_append_cons_of_mem (hyphen.resolve_right (by decide))
  have isCut : cut? (front ++ '-' :: back ++ ['@'] ++ rest) "-" =
      some (front, back ++ '@' :: rest) := by
    have cut : cut? (front ++ '-' :: (back ++ '@' :: rest)) "-" = _ := cut?_append absent
    simpa using cut
  have noAddress : Address.parse? (trim (back ++ '@' :: rest)) = none := by
    by_contra isSome
    have isAddress : isAddress (trim (back ++ '@' :: rest)) = true :=
      Option.isSome_iff_ne_none.mpr isSome
    have inside : '@' ∈ trim (back ++ '@' :: rest) := mem_trim rfl (by simp)
    exact absurd (isAddress_characters isAddress '@' inside) (by decide)
  rw [written, range?, isCut]
  dsimp only
  split
  · rfl
  · rw [noAddress]
    split
    · rename_i isSome
      cases isSome
    · rfl

/-- Whatever is not read as a range is read as a host, because hyphens and digits may stand in a
name. -/
theorem hostsOf?_range
    (trimmed : Trimmed (credentials.written ++ Address.write first ++ '-' :: Address.write last)) :
    hostsOf? (credentials.written ++ Address.write first ++ '-' :: Address.write last) =
      some (if '-' ∈ credentials.written ∨ last < first then
        [credentials.written ++ Address.write first ++ '-' :: Address.write last]
      else rangeOf credentials.written first last) := by
  have member : '-' ∈ credentials.written ++ Address.write first ++ '-' :: Address.write last := by
    simp
  have valid : (isAddress (Address.write first ++ '-' :: Address.write last) ||
      isName (Address.write first ++ '-' :: Address.write last)) = true := by
    rw [isName_range small smallToo, Bool.or_true]
  have alone : single? (credentials.written ++ Address.write first ++ '-' :: Address.write last) =
      some [credentials.written ++ Address.write first ++ '-' :: Address.write last] := by
    have noSign : '@' ∉ Address.write first ++ '-' :: Address.write last :=
      IsValid.lacks valid (by decide)
    rw [List.append_assoc] at trimmed ⊢
    rw [single?, parse?_written form trimmed noSign valid]
    rfl
  rw [hostsOf?, if_pos member, alone]
  by_cases hyphen : '-' ∈ credentials.written
  · rw [if_pos (.inl hyphen), List.append_assoc, range?_of_mem form hyphen]
    rfl
  · obtain ⟨nonempty, trimmedFirst⟩ := Address.write_trimmed small
    have trimmedPart : Trimmed (credentials.written ++ Address.write first) := by
      refine ⟨fun character isHead => trimmed.head character ?_, fun character isLast => ?_⟩
      · exact List.mem_head?_append_of_mem_head? isHead
      · rw [List.getLast?_append_of_ne_nil _ nonempty] at isLast
        exact trimmedFirst.last character isLast
    rw [range?_of_lacks form small smallToo hyphen trimmedPart]
    by_cases reversed : last < first
    · rw [if_neg (Nat.not_le.mpr reversed), if_pos (.inr reversed)]
      rfl
    · rw [if_pos (Nat.not_lt.mp reversed), if_neg (not_or.mpr ⟨hyphen, reversed⟩)]
      rfl

end

theorem foldl_add {hosts : List Text} (distinct : hosts.Nodup) {found : Found}
    (new : ∀ host ∈ hosts, host ∉ found.hosts) :
    hosts.foldl Found.add found = { found with hosts := found.hosts ++ hosts } := by
  induction hosts generalizing found with
  | nil => simp
  | cons host rest inductionHypothesis =>
      rw [List.nodup_cons] at distinct
      rw [List.forall_mem_cons] at new
      have added : found.add host = { found with hosts := found.hosts ++ [host] } := by
        rw [Found.add, if_neg (by simpa using new.1)]
      rw [List.foldl_cons, added, inductionHypothesis distinct.2]
      · simp
      · intro other member
        rw [List.mem_append, List.mem_singleton, not_or]
        exact ⟨new.2 other member, fun same => distinct.1 (same ▸ member)⟩

theorem nodup_rangeOf (prefixed : Text) (first : Nat) {last : Nat} (small : last < 4294967296) :
    (rangeOf prefixed first last).Nodup := by
  have distinct : (Address.between first last).Nodup :=
    List.Nodup.map (fun _ _ same => Nat.add_left_cancel same) List.nodup_range
  refine List.Nodup.map_on (fun one isOne other isOther same => ?_) distinct
  exact Address.write_inj (between_lt small isOne) (between_lt small isOther)
    (List.append_cancel_left same)

/-- Blanks around an entry do not count. An entry with credentials and two addresses stands for its
range exactly if the credentials have no hyphen and the range is not reversed; otherwise the whole
entry is taken for a host. -/
theorem expand?_range (tree : FileTree) {credentials : Credentials} {first last : Address}
    (small : first < 4294967296) (smallToo : last < 4294967296)
    (accepted : parse? (credentials.written ++ first.write) = some ⟨credentials, first.write⟩)
    {entry : Text} (isEntry : trim entry = credentials.written ++ first.write ++ '-' :: last.write)
    (noComment : (trim entry).head? ≠ some '#') (noFile : tree.isFile (trim entry) = false) :
    expand? tree [entry] = some ⟨if '-' ∈ credentials.written ∨ last < first then [trim entry]
      else (Address.between first last).map fun address => credentials.written ++ address.write,
      []⟩ := by
  have form := (parse?_eq_some accepted).2
  have expands := hostsOf?_range form small smallToo (isEntry ▸ trimmed_trim entry)
  have nonempty : trim entry ≠ [] := by
    rw [isEntry]
    simp
  rw [← isEntry] at expands
  rw [expand?, expandEntries, if_neg (not_or.mpr ⟨nonempty, noComment⟩), noFile, expands]
  have collected {hosts : List Text} (distinct : hosts.Nodup) :
      hosts.foldl Found.add .empty = ⟨hosts, []⟩ :=
    foldl_add distinct fun _ _ => List.not_mem_nil
  simp only [expandEntries]
  rw [collected]
  · rfl
  · split
    · simp
    · exact nodup_rangeOf _ _ smallToo

/-- The user and the password stand before every address, also past the last address of a byte. -/
theorem expand?_range_credentials :
    let credentials : Credentials := .full "root" "p@w:d"
    expand? ⟨[], []⟩ [" root:p@w:d@10.0.0.254-10.0.1.1 "] =
      some ⟨[credentials.written ++ "10.0.0.254", credentials.written ++ "10.0.0.255",
        credentials.written ++ "10.0.1.0", credentials.written ++ "10.0.1.1"], []⟩ := by
  intro credentials
  have accepted : parse? (credentials.written ++ Address.write 167772414) =
      some ⟨credentials, Address.write 167772414⟩ := by decide
  have isEntry : trim " root:p@w:d@10.0.0.254-10.0.1.1 " =
      credentials.written ++ Address.write 167772414 ++ '-' :: Address.write 167772417 := by
    decide
  rw [expand?_range ⟨[], []⟩ (by decide) (by decide) accepted isEntry (by decide)
    (by decide)]
  rfl

/-- A reversed range and a range behind credentials with a hyphen are taken for hosts. -/
theorem expand?_unread :
    (expand? ⟨[], []⟩ ["10.0.0.5-10.0.0.1"]).map Found.hosts =
        some [("10.0.0.5-10.0.0.1" : Text)] ∧
      parse? "my-user@10.0.0.1" = some ⟨.user "my-user", "10.0.0.1"⟩ ∧
      (expand? ⟨[], []⟩ ["my-user@10.0.0.1-10.0.0.3"]).map Found.hosts =
        some [("my-user@10.0.0.1-10.0.0.3" : Text)] := by
  decide

end Host

end ManagementShell
