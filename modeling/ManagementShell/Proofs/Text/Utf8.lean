import ManagementShell.Text.Utf8

/-
This file shows that a text that is added to bytes is read back behind what these bytes are.
-/

namespace ManagementShell.Text

/-- The bytes do not go on with a character that has begun before them. -/
def StartsAnew (bytes : Bytes) : Prop := ∀ byte ∈ bytes.head?, byte.toNat < 0x80 ∨ 0xBF < byte.toNat

theorem continuation_length_le (allowed : Nat × Nat) (count : Nat) (bytes : Bytes) :
    (continuation allowed count bytes).length ≤ bytes.length := by
  induction count generalizing allowed bytes with
  | zero => simp [continuation]
  | succ count inductionHypothesis =>
      cases bytes with
      | nil => simp [continuation]
      | cons next rest =>
          unfold continuation
          split
          · simpa using inductionHypothesis _ _
          · simp

theorem continuation_append {allowed : Nat × Nat} (least : 0x80 ≤ allowed.1)
    (most : allowed.2 ≤ 0xBF) (count : Nat) (bytes : Bytes) {other : Bytes}
    (anew : StartsAnew other) :
    continuation allowed count (bytes ++ other) = continuation allowed count bytes := by
  induction count generalizing allowed bytes with
  | zero => simp [continuation]
  | succ count inductionHypothesis =>
      cases bytes with
      | nil =>
          cases other with
          | nil => rfl
          | cons byte rest =>
              have outside := anew byte rfl
              have disallowed : ¬(allowed.1 ≤ byte.toNat ∧ byte.toNat ≤ allowed.2) := by omega
              simp [continuation, disallowed]
      | cons next rest =>
          rw [List.cons_append, continuation, continuation,
            inductionHypothesis (Nat.le_refl _) (Nat.le_refl _)]

theorem secondBytes_within (first : Nat) :
    0x80 ≤ (secondBytes first).1 ∧ (secondBytes first).2 ≤ 0xBF := by
  unfold secondBytes
  repeat' split
  all_goals decide

theorem firstCharacter_append (first : UInt8) (rest : Bytes) {other : Bytes}
    (anew : StartsAnew other) :
    firstCharacter first (rest ++ other) = firstCharacter first rest := by
  obtain ⟨least, most⟩ := secondBytes_within first.toNat
  simp only [firstCharacter, continuation_append least most _ _ anew]

theorem firstCharacter_width_le (first : UInt8) (rest : Bytes) :
    (firstCharacter first rest).2 ≤ rest.length + 1 := by
  unfold firstCharacter
  split
  · simp
  · rename_i count _
    have bound := continuation_length_le (secondBytes first.toNat) count rest
    dsimp only
    split
    · simp only
      omega
    · simpa using bound

/-- The induction is on the bytes before, of which some may belong to a character already read. -/
theorem decodeFrom_append {skip : Nat} {bytes other : Bytes} (within : skip ≤ bytes.length)
    (anew : StartsAnew other) :
    decodeFrom skip (bytes ++ other) = decodeFrom skip bytes ++ decodeFrom 0 other := by
  induction bytes generalizing skip with
  | nil =>
      obtain rfl : skip = 0 := by simpa using within
      simp [decodeFrom]
  | cons first rest inductionHypothesis =>
      cases skip with
      | succ skip => exact inductionHypothesis (by simpa using within)
      | zero =>
          have width := firstCharacter_width_le first rest
          simp only [List.cons_append, decodeFrom, firstCharacter_append _ _ anew]
          rw [inductionHypothesis (by omega)]

theorem byte_toNat {value : Nat} (small : value < 256) : (byte value).toNat = value := by
  rw [byte, UInt8.toNat_ofNat', Nat.mod_eq_of_lt small]

theorem code_lt (character : Char) : character.toNat < 0x110000 := by
  have valid := character.valid
  change character.val.toNat < _
  simp only [UInt32.isValidChar, Nat.isValidChar] at valid
  omega

theorem code_not_surrogate (character : Char) :
    character.toNat < 0xD800 ∨ 0xDFFF < character.toNat := by
  have valid := character.valid
  change character.val.toNat < _ ∨ _ < character.val.toNat
  simp only [UInt32.isValidChar, Nat.isValidChar] at valid
  omega

theorem decodeFrom_length (bytes : Bytes) : decodeFrom bytes.length bytes = [] := by
  induction bytes with
  | nil => rfl
  | cons first rest inductionHypothesis => exact inductionHypothesis

theorem continuation_byte {allowed : Nat × Nat} {bits : Nat} (count : Nat) (rest : Bytes)
    (small : bits < 64) (isAllowed : allowed.1 ≤ 0x80 + bits ∧ 0x80 + bits ≤ allowed.2) :
    continuation allowed (count + 1) (byte (0x80 + bits) :: rest) =
      bits :: continuation (0x80, 0xBF) count rest := by
  rw [continuation, byte_toNat (by omega), if_pos isAllowed]
  congr 1
  omega

/-- The bytes are a first byte and all that follow it in one character. -/
theorem decodeFrom_character {lead code : Nat} {rest : Bytes} {taken : List Nat}
    (small : lead < 256) (follow : followers lead = some rest.length)
    (isTaken : continuation (secondBytes lead) rest.length rest = taken)
    (whole : taken.length = rest.length)
    (value : taken.foldl (fun value bits => 64 * value + bits) (leadingBits lead rest.length) =
      code) :
    decodeFrom 0 (byte lead :: rest) = [some (Char.ofNat code)] := by
  have isFirst : firstCharacter (byte lead) rest = (some (Char.ofNat code), rest.length + 1) := by
    simp only [firstCharacter, byte_toNat small, follow, isTaken, if_pos whole, value]
  simp only [decodeFrom, isFirst, Nat.add_sub_cancel, decodeFrom_length]

theorem followers_one {lead : Nat} (least : 0xC2 ≤ lead) (most : lead ≤ 0xDF) :
    followers lead = some 1 := by
  rw [followers, if_neg (by omega), if_pos ⟨least, most⟩]

theorem followers_two {lead : Nat} (least : 0xE0 ≤ lead) (most : lead ≤ 0xEF) :
    followers lead = some 2 := by
  rw [followers, if_neg (by omega), if_neg (by omega), if_pos ⟨least, most⟩]

theorem followers_three {lead : Nat} (least : 0xF0 ≤ lead) (most : lead ≤ 0xF4) :
    followers lead = some 3 := by
  rw [followers, if_neg (by omega), if_neg (by omega), if_neg (by omega), if_pos ⟨least, most⟩]

/-- A second byte is allowed if it does not make a code that has a shorter form, is a surrogate or
is too large. -/
theorem secondBytes_allow {lead bits : Nat} (small : bits < 64)
    (long : (lead = 0xE0 → 32 ≤ bits) ∧ (lead = 0xF0 → 16 ≤ bits))
    (valid : (lead = 0xED → bits < 32) ∧ (lead = 0xF4 → bits < 16)) :
    (secondBytes lead).1 ≤ 0x80 + bits ∧ 0x80 + bits ≤ (secondBytes lead).2 := by
  unfold secondBytes
  repeat' split
  all_goals omega

theorem decodeFrom_encodeCharacter (character : Char) :
    decodeFrom 0 (encodeCharacter character) = [some character] := by
  have bound := code_lt character
  have valid := code_not_surrogate character
  have named : [some character] = [some (Char.ofNat character.toNat)] := by
    rw [Char.ofNat_toNat]
  rw [named, encodeCharacter]
  generalize character.toNat = code at *
  split
  · refine decodeFrom_character (by omega) ?_ rfl rfl rfl
    rw [followers, if_pos (by omega)]
    rfl
  · split
    · have isTaken : continuation (secondBytes (0xC0 + code / 64)) 1 [byte (0x80 + code % 64)] =
          [code % 64] :=
        continuation_byte 0 [] (by omega) (secondBytes_allow (by omega) (by omega) (by omega))
      refine decodeFrom_character (by omega) (followers_one (by omega) (by omega)) isTaken rfl ?_
      simp only [leadingBits, List.length_cons, List.length_nil, List.foldl_cons, List.foldl_nil]
      omega
    · split
      · have isTaken : continuation (secondBytes (0xE0 + code / 4096)) 2
            [byte (0x80 + code / 64 % 64), byte (0x80 + code % 64)] =
              [code / 64 % 64, code % 64] := by
          rw [continuation_byte 1 _ (by omega)
              (secondBytes_allow (by omega) (by omega) (by omega)),
            continuation_byte 0 [] (by omega) (by omega)]
          rfl
        refine decodeFrom_character (by omega) (followers_two (by omega) (by omega)) isTaken rfl ?_
        simp only [leadingBits, List.length_cons, List.length_nil, List.foldl_cons, List.foldl_nil]
        omega
      · have isTaken : continuation (secondBytes (0xF0 + code / 262144)) 3
            [byte (0x80 + code / 4096 % 64), byte (0x80 + code / 64 % 64),
              byte (0x80 + code % 64)] =
              [code / 4096 % 64, code / 64 % 64, code % 64] := by
          rw [continuation_byte 2 _ (by omega)
              (secondBytes_allow (by omega) (by omega) (by omega)),
            continuation_byte 1 _ (by omega) (by omega),
            continuation_byte 0 [] (by omega) (by omega)]
          rfl
        refine decodeFrom_character (by omega) (followers_three (by omega) (by omega)) isTaken rfl ?_
        simp only [leadingBits, List.length_cons, List.length_nil, List.foldl_cons, List.foldl_nil]
        omega

theorem encode_startsAnew (text : Text) : StartsAnew (encode text) := by
  cases text with
  | nil => simp [encode, StartsAnew]
  | cons character rest =>
      have bound := code_lt character
      have anew {lead : Nat} (others : Bytes) (small : lead < 256)
          (outside : lead < 0x80 ∨ 0xBF < lead) : StartsAnew (byte lead :: others) := by
        intro first isFirst
        cases isFirst
        rwa [byte_toNat small]
      rw [encode, List.flatMap_cons, encodeCharacter]
      repeat' split
      all_goals exact anew _ (by omega) (by omega)

/-- Every text is read back from its bytes, behind what stands before them. -/
theorem decodeFrom_append_encode (bytes : Bytes) (text : Text) :
    decodeFrom 0 (bytes ++ encode text) = decodeFrom 0 bytes ++ text.map some := by
  rw [decodeFrom_append (Nat.zero_le _) (encode_startsAnew text)]
  congr 1
  induction text with
  | nil => rfl
  | cons character rest inductionHypothesis =>
      rw [encode, List.flatMap_cons, ← encode,
        decodeFrom_append (Nat.zero_le _) (encode_startsAnew rest), inductionHypothesis,
        decodeFrom_encodeCharacter]
      rfl

theorem decode?_append_encode (bytes : Bytes) (text : Text) :
    decode? (bytes ++ encode text) = (decode? bytes).map (· ++ text) := by
  have texts : (text.map some).mapM id = some text := by
    induction text with
    | nil => rfl
    | cons character rest inductionHypothesis => simp [inductionHypothesis]
  rw [decode?, decodeFrom_append_encode, List.mapM_append, texts, decode?]
  cases (decodeFrom 0 bytes).mapM id <;> rfl

end ManagementShell.Text
