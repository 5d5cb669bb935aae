import NostrCapsule.Proofs.Page.Filling

/-!
Contract: what becomes of each line when a document is broken to a width.

Lines are taken one by one.  Where a line of prose is broken is settled by the width alone: no line
of the result goes beyond it, unless it is one word, and none has room for the word that comes next.

Owns:
- `IsBroken`, the lines that a line of prose may become, and that there is one choice;
- the words and the blank lines of a broken document;
- `reflow_line_by_line`.

Does not own: the number of lines.
-/

namespace NostrCapsule.Reflow

/-! ## Words on a line -/

/-- A text of words with single spaces between them is as wide as its words are on a line. -/
theorem length_eq_lineWidth {piece : String} (spaced : Text.collapse piece = piece) :
    piece.length = lineWidth (Text.words piece) :=
  congrArg String.length spaced.symm

/-! ## A line of prose -/

/-- Lines that a line of prose may become.  They have its words, with single spaces between them;
each of them fits or is one word, and the next one begins with a word that did not fit. -/
structure IsBroken (width : Nat) (line : String) (pieces : List String) : Prop where
  nonempty : pieces ≠ []
  words : pieces.flatMap Text.words = Text.words line
  filled : ∀ piece ∈ pieces, Text.words piece ≠ []
  spaced : ∀ piece ∈ pieces, Text.collapse piece = piece
  fits : ∀ piece ∈ pieces, piece.length ≤ width ∨ ∃ word, Text.words piece = [word]
  full : pieces.IsChain fun piece next =>
    ∃ word ∈ (Text.words next).head?, width < piece.length + 1 + word.length

/-- Texts of words with single spaces are lines that a line may become exactly if their words fill
lines. -/
theorem isBroken_iff_isFilled {width : Nat} {line : String} {pieces : List String}
    (spaced : ∀ piece ∈ pieces, Text.collapse piece = piece) (nonempty : pieces ≠ []) :
    IsBroken width line pieces ↔ IsFilled width (Text.words line) (pieces.map Text.words) := by
  have fitsIff : ∀ piece ∈ pieces,
      Fits width (Text.words piece) ↔
        piece.length ≤ width ∨ ∃ word, Text.words piece = [word] := by
    intro piece member
    rw [Fits, ← length_eq_lineWidth (spaced piece member), List.length_eq_one_iff]
  have fullIff :
      ((pieces.map Text.words).IsChain fun line next =>
          ∃ word ∈ next.head?, width < lineWidth line + 1 + word.length) ↔
        pieces.IsChain fun piece next =>
          ∃ word ∈ (Text.words next).head?, width < piece.length + 1 + word.length := by
    rw [List.isChain_map]
    apply List.IsChain.iff_of_mem_imp
    intro piece next member _
    rw [length_eq_lineWidth (spaced piece member)]
  constructor
  · intro broken
    refine ⟨⟨broken.words, ?_, ?_⟩, fullIff.mpr broken.full⟩
    · exact List.forall_mem_map.mpr broken.filled
    · exact List.forall_mem_map.mpr fun piece member =>
        (fitsIff piece member).mpr (broken.fits piece member)
  · rintro ⟨⟨words, filled, fits⟩, full⟩
    rw [List.forall_mem_map] at filled fits
    exact ⟨nonempty, words, filled, spaced,
      fun piece member => (fitsIff piece member).mp (fits piece member), fullIff.mp full⟩

theorem map_words_reflowLine (width : Nat) {line : String} (prose : IsProse line) :
    (reflowLine width line).map Text.words = fill width (Text.words line) := by
  rw [reflowLine_of_prose prose, List.map_map]
  calc
    (fill width (Text.words line)).map (Text.words ∘ (" ".intercalate ·)) =
        (fill width (Text.words line)).map id :=
      List.map_congr_left fun words filled =>
        Text.words_intercalate_of_letters (areWords_of_mem_fill filled)
    _ = fill width (Text.words line) := List.map_id _

/-- There is one way to break a line. -/
theorem isBroken_iff {width : Nat} {line : String} (prose : IsProse line) {pieces : List String} :
    IsBroken width line pieces ↔ pieces = reflowLine width line := by
  have filled := map_words_reflowLine width prose
  constructor
  · intro broken
    have same : pieces.map Text.words = fill width (Text.words line) :=
      isFilled_iff.mp ((isBroken_iff_isFilled broken.spaced broken.nonempty).mp broken)
    rw [reflowLine_of_prose prose, ← same, List.map_map]
    exact (List.map_congr_left broken.spaced).trans (List.map_id _) |>.symm
  · rintro rfl
    refine (isBroken_iff_isFilled ?_ (reflowLine_ne_nil width line)).mpr
      (isFilled_iff.mpr filled)
    intro piece member
    rw [reflowLine_of_prose prose] at member
    obtain ⟨words, among, rfl⟩ := List.mem_map.mp member
    rw [Text.collapse, Text.words_intercalate_of_letters (areWords_of_mem_fill among)]

theorem isBroken_reflowLine (width : Nat) {line : String} (prose : IsProse line) :
    IsBroken width line (reflowLine width line) :=
  (isBroken_iff prose).mpr rfl

/-! ## Documents -/

theorem flatMap_words_reflowLine (width : Nat) (line : String) :
    (reflowLine width line).flatMap Text.words = Text.words line := by
  by_cases prose : IsProse line
  · exact (isBroken_reflowLine width prose).words
  · rw [reflowLine_of_not_prose prose, List.flatMap_singleton]

theorem words_reflow (width : Nat) (document : String) :
    Text.words (reflow width document) = Text.words document := by
  by_cases zero : width = 0
  · rw [zero]
    rfl
  · rw [← Text.flatMap_words_linesOf, linesOf_reflow zero, List.flatMap_assoc,
      ← Text.flatMap_words_linesOf document]
    exact List.flatMap_congr fun line _ => flatMap_words_reflowLine width line

theorem filter_isAllBlank_reflowLine (width : Nat) (line : String) :
    (reflowLine width line).filter Text.isAllBlank = [line].filter Text.isAllBlank := by
  by_cases prose : IsProse line
  · have kept : [line].filter Text.isAllBlank = [] := by simp [prose.1]
    rw [kept, List.filter_eq_nil_iff]
    intro piece member blank
    exact (isBroken_reflowLine width prose).filled piece member (Text.words_eq_nil_iff.mpr blank)
  · rw [reflowLine_of_not_prose prose]

/-- The blank lines of a document stay as they are. -/
theorem filter_isAllBlank_reflow {width : Nat} (positive : width ≠ 0) (document : String) :
    (Text.linesOf (reflow width document)).filter Text.isAllBlank =
      (Text.linesOf document).filter Text.isAllBlank := by
  rw [linesOf_reflow positive, List.filter_flatMap]
  calc
    _ = (Text.linesOf document).flatMap fun line => [line].filter Text.isAllBlank :=
      List.flatMap_congr fun line _ => filter_isAllBlank_reflowLine width line
    _ = _ := by rw [← List.filter_flatMap, List.flatMap_singleton']

/-- A document is broken line by line.  A line that is blank or has structure stays; any other
becomes the lines that hold its words with single spaces between them, each of which fits or is one
word, and each of which ends only where the next word does not fit.  So no word is lost, cut or
added, and the blank lines stay. -/
theorem reflow_line_by_line {width : Nat} (positive : 1 ≤ width) (document : String) :
    Text.linesOf (reflow width document) = (Text.linesOf document).flatMap (reflowLine width) ∧
      (∀ line, Text.isAllBlank line = true ∨ isStructural line = true →
        reflowLine width line = [line]) ∧
      (∀ line, Text.isAllBlank line = false → isStructural line = false →
        ∀ pieces, IsBroken width line pieces ↔ pieces = reflowLine width line) ∧
      Text.words (reflow width document) = Text.words document ∧
      (Text.linesOf (reflow width document)).filter Text.isAllBlank =
        (Text.linesOf document).filter Text.isAllBlank := by
  have nonzero : width ≠ 0 := Nat.ne_of_gt positive
  refine ⟨linesOf_reflow nonzero document, ?_, ?_, words_reflow width document,
    filter_isAllBlank_reflow nonzero document⟩
  · intro line kept
    apply reflowLine_of_not_prose
    rintro ⟨worded, plain⟩
    rw [worded, plain] at kept
    rcases kept with blank | structural
    · cases blank
    · cases structural
  · exact fun line worded plain pieces => isBroken_iff ⟨worded, plain⟩

/-- Words of two octets a letter, a tab, and a word that is too long. -/
theorem reflow_line_by_line_greek :
    let line := " αβγ\tδεζ ηθι supercalifragilistic b"
    Text.linesOf (reflow 7 ("# A long heading\n \n" ++ line)) =
        ["# A long heading", " ", "αβγ δεζ", "ηθι", "supercalifragilistic", "b"] ∧
      IsBroken 7 line ["αβγ δεζ", "ηθι", "supercalifragilistic", "b"] ∧
      Text.words (reflow 7 line) = ["αβγ", "δεζ", "ηθι", "supercalifragilistic", "b"] := by
  intro line
  obtain ⟨lines, -, -, -, -⟩ :=
    reflow_line_by_line (by decide : 1 ≤ 7) ("# A long heading\n \n" ++ line)
  obtain ⟨-, -, broken, words, -⟩ := reflow_line_by_line (by decide : 1 ≤ 7) line
  refine ⟨lines.trans (by decide +kernel), ?_, words.trans (by decide +kernel)⟩
  exact (broken line (by decide) (by decide) _).mpr (by decide +kernel)

end NostrCapsule.Reflow
