import ManagementShell.Proofs.Text.Replace
import ManagementShell.Proofs.Xml.Margins
import ManagementShell.Proofs.Xml.Respacing

/-
This file shows that character data with other spaces around it is cut out of a document as the same
data with other blanks around it.
-/

namespace ManagementShell.Xml
open Text

/-- The pieces of character data, which may be empty. -/
def runPieces? (run : Text) : Option (List Piece) :=
  if run = [] then some [] else (runPiece? run).map ([·])

theorem pieces?_markup {markup : Text} {piece : Piece} (isMarkup : IsMarkup markup piece)
    (rest : Text) : pieces? (markup ++ rest) = (pieces? rest).map (piece :: ·) := by
  have positive := List.length_pos_of_ne_nil isMarkup.nonempty
  exact pieces?_of_piece (isMarkup.reads rest) (by rw [List.length_append]; omega)

theorem pieces?_run {run rest : Text} (noMarkup : '<' ∉ run) (starts : StartsMarkup rest) :
    pieces? (run ++ rest) = (runPieces? run).bind fun pieces => (pieces? rest).map (pieces ++ ·) := by
  unfold runPieces?
  by_cases empty : run = []
  · rw [if_pos empty, empty, List.nil_append, Option.bind_some]
    exact (Option.map_id' (x := pieces? rest)).symm
  have whole := piece?_run noMarkup empty starts
  rw [if_neg empty]
  cases isPiece : runPiece? run with
  | none =>
      rw [isPiece] at whole
      rw [pieces?, if_neg (by simp [empty]), whole]
      rfl
  | some piece =>
      rw [isPiece] at whole
      have positive := List.length_pos_of_ne_nil empty
      rw [pieces?_of_piece whole (by rw [List.length_append]; omega)]
      rfl

section

variable {run front back : Text} {piece : Piece} {pieces : List Piece}

/-- A mark without blanks is where it was when blanks are put around a text. -/
theorem infix_trim {mark : Text} (nonempty : mark ≠ [])
    (visible : mark.all (!isBlank ·) = true) (areBlank : front.all isBlank = true)
    (areBlankToo : back.all isBlank = true)
    (inside : mark <:+: front ++ (trim run ++ back)) : mark <:+: run := by
  have apart {blanks : Text} (areBlank : blanks.all isBlank = true) :
      ∀ character ∈ blanks, character ∉ mark := fun character member inMark =>
    lacks_of_blanks areBlank (by simpa using List.all_eq_true.mp visible character inMark) member
  have inMiddle := infix_of_append_apart nonempty (apart areBlankToo)
    (infix_of_append nonempty (apart areBlank) inside)
  obtain ⟨before, behind, isRun, -⟩ := exists_trim run
  exact inMiddle.trans ⟨before, behind, by rw [List.append_assoc, ← isRun]⟩

variable (spaces : IsSpaces front) (more : IsSpaces back)
include spaces more

/-- What may stand in a run may stand in it with other spaces around it. -/
theorem runPiece?_between (isPiece : runPiece? run = some piece) :
    ∃ data other, data? run = some data ∧ trim (content other) = trim (content data) ∧
      runPiece? (front ++ (trim run ++ back)) = some
        ((if (front ++ (trim run ++ back)).all isSpace then Piece.blank else Piece.text)
          (content other)) := by
  obtain ⟨data, proper, noEnd, isData, -⟩ := runPiece?_eq_some isPiece
  obtain ⟨before, behind, isRun, areBlank, areBlankToo⟩ := exists_trim run
  have isCore := isData
  rw [isRun, data?_between areBlank areBlankToo] at isCore
  obtain ⟨core, isMiddle, rfl⟩ := Option.map_eq_some_iff.mp isCore
  have apart := startsApart_of_starts (trimmed_trim run).head isMiddle
  have isOther := data?_between spaces.areBlank more.areBlank (trim run)
  rw [isMiddle] at isOther
  refine ⟨_, _, isData, ?_, runPiece?_eq ?_ ?_ isOther⟩
  · rw [trim_content_between spaces.areBlank more.areBlank apart,
      trim_content_between areBlank areBlankToo apart]
  · rw [isRun, List.all_append, List.all_append, Bool.and_eq_true, Bool.and_eq_true] at proper
    rw [List.all_append, List.all_append, spaces.proper, more.proper, proper.2.1]
    rfl
  · rw [← Bool.not_eq_true, includes_iff] at noEnd ⊢
    exact fun inside =>
      noEnd (infix_trim (by decide) rfl spaces.areBlank more.areBlank inside)

/-- A run of nothing but blanks is read as blanks, if as anything. -/
theorem runPieces?_blanks (areRun : runPieces? run = some pieces) (nothing : trim run = []) :
    ∃ others, runPieces? (front ++ (trim run ++ back)) = some others ∧
      ∀ later laterToo, Respaced later laterToo → Respaced (pieces ++ later) (others ++ laterToo) := by
  have areSpaces : IsSpaces (front ++ (trim run ++ back)) := by
    rw [nothing]
    exact spaces.append more
  have drops (later laterToo : List Piece) (respaced : Respaced later laterToo) :
      Respaced (pieces ++ later) laterToo := by
    unfold runPieces? at areRun
    split at areRun
    · cases areRun
      exact respaced
    · obtain ⟨piece, isPiece, rfl⟩ := Option.map_eq_some_iff.mp areRun
      obtain ⟨data, -, -, isData, rfl⟩ := runPiece?_eq_some isPiece
      have areBlank := trim_eq_nil.mp nothing
      rw [data?_of_not_mem (lacks_of_blanks areBlank rfl)] at isData
      cases isData
      refine .dropped ?_ (trim_eq_nil.mpr (contentFrom_areBlank areBlank false false)) respaced
      cases run.all isSpace <;> rfl
  by_cases empty : front ++ (trim run ++ back) = []
  · exact ⟨[], if_pos empty, drops⟩
  · have isData := data?_of_not_mem (lacks_of_blanks areSpaces.areBlank (rfl : isBlank '&' = false))
    have noEnd := includes_of_lacks (by decide : ']' ∈ "]]>".toList)
      (lacks_of_blanks areSpaces.areBlank (rfl : isBlank ']' = false))
    have isPiece := runPiece?_eq areSpaces.proper noEnd isData
    have isBlank : (front ++ (trim run ++ back)).all isSpace = true := areSpaces
    rw [if_pos isBlank] at isPiece
    refine ⟨_, (if_neg empty).trans (congrArg (Option.map _) isPiece),
      fun later laterToo respaced => .added ?_ (drops later laterToo respaced)⟩
    exact trim_eq_nil.mpr (contentFrom_areBlank areSpaces.areBlank false false)

/-- A run with other spaces around it is read with other blanks around it. -/
theorem runPieces?_between (areRun : runPieces? run = some pieces) :
    ∃ others, runPieces? (front ++ (trim run ++ back)) = some others ∧
      ∀ later laterToo, Respaced later laterToo → Respaced (pieces ++ later) (others ++ laterToo) := by
  by_cases nothing : trim run = []
  · exact runPieces?_blanks spaces more areRun nothing
  have visible {text : Text} (inside : trim run ⊆ text) : text ≠ [] ∧
      ¬text.all isSpace = true := by
    obtain ⟨first, others, isCons⟩ := List.exists_cons_of_ne_nil nothing
    have isFirst : first ∈ trim run := isCons ▸ List.mem_cons_self
    have shows := (trimmed_trim run).head first (by rw [isCons]; rfl)
    exact ⟨List.ne_nil_of_mem (inside isFirst), fun areSpaces =>
      lacks_of_blanks (IsSpaces.areBlank areSpaces) shows (inside isFirst)⟩
  have inRun : trim run ⊆ run := by
    obtain ⟨before, behind, isRun, -⟩ := exists_trim run
    intro character member
    rw [isRun]
    simp [member]
  have inWhole : trim run ⊆ front ++ (trim run ++ back) := by
    intro character member
    simp [member]
  rw [runPieces?, if_neg (visible inRun).1] at areRun
  obtain ⟨piece, isPiece, rfl⟩ := Option.map_eq_some_iff.mp areRun
  obtain ⟨data, other, isData, same, isOther⟩ := runPiece?_between spaces more isPiece
  obtain ⟨dataToo, -, -, isDataToo, rfl⟩ := runPiece?_eq_some isPiece
  obtain rfl := Option.some.inj (isData.symm.trans isDataToo)
  rw [if_neg (visible inWhole).2] at isOther
  rw [if_neg (visible inRun).2]
  exact ⟨_, (if_neg (visible inWhole).1).trans (congrArg (Option.map _) isOther),
    fun later laterToo respaced => .trimmed same respaced⟩

end

end ManagementShell.Xml
