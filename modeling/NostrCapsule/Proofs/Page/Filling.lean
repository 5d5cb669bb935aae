import Mathlib.Data.List.Chain
import NostrCapsule.Proofs.Page.Structure

/-!
Contract: lines that are filled with words, one after the other.

A line is under way with a count of the characters on it.  The count is the width of the words
joined, so the line ends exactly where the next word does not fit any more, and what is left is
filled as if it stood alone.

Owns:
- `lineWidth` and `Fits`;
- `IsLayout`, any cut of words into lines that fit, and `IsFilled`, the cut with full lines;
- `IsFirstLine`, and `isFilled_iff`, which says that filling makes the one cut with full lines.

Does not own: the texts of lines, and the documents that hold them.
-/

namespace NostrCapsule.Reflow

/-! ## Widths -/

def lineWidth (words : List String) : Nat :=
  (" ".intercalate words).length

theorem lineWidth_singleton (word : String) : lineWidth [word] = word.length := by
  simp [lineWidth]

theorem lineWidth_append {front back : List String} (filled : front ≠ []) (filledToo : back ≠ []) :
    lineWidth (front ++ back) = lineWidth front + 1 + lineWidth back := by
  rw [lineWidth, String.intercalate_append_of_ne_nil filled filledToo, String.length_append,
    String.length_append]
  rfl

theorem lineWidth_concat {line : List String} (filled : line ≠ []) (word : String) :
    lineWidth (line ++ [word]) = lineWidth line + 1 + word.length := by
  rw [lineWidth_append filled (List.cons_ne_nil _ _), lineWidth_singleton]

theorem lineWidth_le_append_left (front back : List String) :
    lineWidth front ≤ lineWidth (front ++ back) := by
  by_cases empty : front = []
  · rw [empty]
    exact Nat.zero_le _
  · by_cases last : back = []
    · rw [last, List.append_nil]
    · rw [lineWidth_append empty last]
      omega

theorem lineWidth_le_append_right (front back : List String) :
    lineWidth back ≤ lineWidth (front ++ back) := by
  by_cases first : front = []
  · rw [first, List.nil_append]
  · by_cases empty : back = []
    · rw [empty]
      exact Nat.zero_le _
    · rw [lineWidth_append first empty]
      omega

/-- Words that may stand on one line: there is room for them, or there is one word only. -/
def Fits (width : Nat) (line : List String) : Prop :=
  lineWidth line ≤ width ∨ line.length = 1

instance (width : Nat) (line : List String) : Decidable (Fits width line) :=
  inferInstanceAs (Decidable (_ ∨ _))

/-! ## Cuts of words into lines -/

/-- A cut of words into lines that fit. -/
structure IsLayout (width : Nat) (words : List String) (lines : List (List String)) : Prop where
  flatten : lines.flatten = words
  filled : ∀ line ∈ lines, line ≠ []
  fits : ∀ line ∈ lines, Fits width line

/-- A cut in which no line has room for the first word of the next one. -/
structure IsFilled (width : Nat) (words : List String) (lines : List (List String)) : Prop
    extends IsLayout width words lines where
  full : lines.IsChain fun line next =>
    ∃ word ∈ next.head?, width < lineWidth line + 1 + word.length

theorem IsLayout.mono {narrow wide : Nat} (within : narrow ≤ wide) {words : List String}
    {lines : List (List String)} (layout : IsLayout narrow words lines) :
    IsLayout wide words lines where
  flatten := layout.flatten
  filled := layout.filled
  fits line member := (layout.fits line member).imp_left fun room => room.trans within

/-- The first line of a filling, and what is left for the others. -/
structure IsFirstLine (width : Nat) (line later : List String) : Prop where
  filled : line ≠ []
  fits : Fits width line
  full : ∀ next ∈ later.head?, width < lineWidth line + 1 + next.length

/-- Words that fit on a line are among those of the first line. -/
theorem IsFirstLine.prefix_of_fits {width : Nat} {line later other rest : List String}
    (first : IsFirstLine width line later) (same : line ++ later = other ++ rest)
    (fits : lineWidth other ≤ width ∨ other.length ≤ 1) : other <+: line := by
  rcases List.append_eq_append_iff.mp same with ⟨more, rfl, behind⟩ | ⟨more, rfl, -⟩
  · cases more with
    | nil => simp
    | cons next others =>
        have tooWide := first.full next (by simp [behind])
        have wider := lineWidth_le_append_left (line ++ [next]) others
        rw [lineWidth_concat first.filled, List.append_assoc, List.singleton_append] at wider
        have counted := List.length_pos_iff.mpr first.filled
        rw [List.length_append, List.length_cons] at fits
        omega
  · exact List.prefix_append _ _

theorem IsFirstLine.unique {width : Nat} {line later other rest : List String}
    (first : IsFirstLine width line later) (firstToo : IsFirstLine width other rest)
    (same : line ++ later = other ++ rest) : line = other ∧ later = rest := by
  have shorter := first.prefix_of_fits same (firstToo.fits.imp_right Nat.le_of_eq)
  have longer := firstToo.prefix_of_fits same.symm (first.fits.imp_right Nat.le_of_eq)
  have equal : line = other := longer.eq_of_length (longer.length_le.antisymm shorter.length_le)
  exact ⟨equal, List.append_cancel_left (equal ▸ same)⟩

/-! ## Filling -/

/-- While a line is under way, its count is the width of its words; it ends where the next word
does not fit. -/
theorem exists_group_eq (width : Nat) {line : List String} {used : Nat} (words : List String)
    (filled : line ≠ []) (counted : used = lineWidth line.reverse)
    (fits : Fits width line.reverse) :
    ∃ taken later, words = taken ++ later ∧
      group width line used words = (line.reverse ++ taken) :: fill width later ∧
      IsFirstLine width (line.reverse ++ taken) later := by
  have filledToo : line.reverse ≠ [] := by simpa using filled
  induction words generalizing line used with
  | nil =>
      refine ⟨[], [], rfl, by simp [group, fill], ?_⟩
      rw [List.append_nil]
      refine ⟨filledToo, fits, ?_⟩
      rintro next ⟨⟩
  | cons word rest inductionHypothesis =>
      have widened := lineWidth_concat filledToo word
      rw [group]
      split
      · next room =>
          have extended : (word :: line).reverse = line.reverse ++ [word] := List.reverse_cons
          have countedToo : used + 1 + word.length = lineWidth (word :: line).reverse := by
            rw [extended, widened, counted]
          have fitsToo : Fits width (word :: line).reverse := .inl (countedToo ▸ room)
          obtain ⟨taken, later, rfl, grouped, first⟩ :=
            inductionHypothesis (List.cons_ne_nil _ _) countedToo fitsToo (by simp)
          rw [extended, List.append_assoc, List.singleton_append] at grouped first
          exact ⟨word :: taken, later, rfl, grouped, first⟩
      · next noRoom =>
          refine ⟨[], word :: rest, rfl, by rw [List.append_nil]; rfl, ?_⟩
          rw [List.append_nil]
          refine ⟨filledToo, fits, ?_⟩
          rintro next ⟨⟩
          omega

theorem exists_fill_eq (width : Nat) {words : List String} (some : words ≠ []) :
    ∃ line later, words = line ++ later ∧ fill width words = line :: fill width later ∧
      IsFirstLine width line later := by
  obtain ⟨word, rest, rfl⟩ := List.exists_cons_of_ne_nil some
  obtain ⟨taken, later, rfl, grouped, first⟩ :=
    exists_group_eq width rest (List.cons_ne_nil word []) (lineWidth_singleton word).symm (.inr rfl)
  exact ⟨word :: taken, later, rfl, grouped, first⟩

/-- A filling is empty, or it is a first line with the filling of what is left. -/
theorem fill_induction {width : Nat} {motive : List String → List (List String) → Prop}
    (nil : motive [] [])
    (cons : ∀ line later, IsFirstLine width line later → motive later (fill width later) →
      motive (line ++ later) (line :: fill width later))
    (words : List String) : motive words (fill width words) := by
  induction size : words.length using Nat.strong_induction_on generalizing words with
  | _ size inductionHypothesis =>
      by_cases none : words = []
      · rw [none]
        exact nil
      · obtain ⟨line, later, rfl, filled, first⟩ := exists_fill_eq width none
        have counted := List.length_pos_iff.mpr first.filled
        rw [List.length_append] at size
        rw [filled]
        exact cons line later first (inductionHypothesis later.length (by omega) later rfl)

/-- The first word of the next line is the first of all that are left. -/
theorem head?_flatten_of_filled {lines : List (List String)} (filled : ∀ line ∈ lines, line ≠ []) :
    lines.flatten.head? = lines.head?.bind List.head? := by
  cases lines with
  | nil => rfl
  | cons line others =>
      obtain ⟨word, rest, rfl⟩ := List.exists_cons_of_ne_nil (filled line List.mem_cons_self)
      rfl

theorem isFilled_cons_iff {width : Nat} {words line : List String} {others : List (List String)} :
    IsFilled width words (line :: others) ↔
      ∃ later, words = line ++ later ∧ IsFirstLine width line later ∧
        IsFilled width later others := by
  constructor
  · rintro ⟨⟨rfl, filled, fits⟩, full⟩
    rw [List.forall_mem_cons] at filled fits
    rw [List.isChain_cons] at full
    refine ⟨others.flatten, rfl, ⟨filled.1, fits.1, ?_⟩, ⟨rfl, filled.2, fits.2⟩, full.2⟩
    intro next first
    rw [head?_flatten_of_filled filled.2] at first
    obtain ⟨following, isNext, head⟩ := Option.bind_eq_some_iff.mp first
    obtain ⟨word, among, wide⟩ := full.1 following isNext
    rw [head] at among
    cases among
    exact wide
  · rintro ⟨later, rfl, first, ⟨rfl, filled, fits⟩, full⟩
    refine ⟨⟨rfl, List.forall_mem_cons.mpr ⟨first.filled, filled⟩,
      List.forall_mem_cons.mpr ⟨first.fits, fits⟩⟩, List.isChain_cons.mpr ⟨?_, full⟩⟩
    intro following isNext
    have present := filled following (List.mem_of_mem_head? isNext)
    obtain ⟨word, rest, rfl⟩ := List.exists_cons_of_ne_nil present
    refine ⟨word, rfl, first.full word ?_⟩
    rw [head?_flatten_of_filled filled, isNext]
    rfl

theorem isFilled_fill (width : Nat) (words : List String) :
    IsFilled width words (fill width words) := by
  refine fill_induction (motive := IsFilled width) ?_ ?_ words
  · exact ⟨⟨rfl, nofun, nofun⟩, List.isChain_nil⟩
  · exact fun line later first filled => isFilled_cons_iff.mpr ⟨later, rfl, first, filled⟩

/-- Filling makes the one cut of words in which every line fits and is full. -/
theorem isFilled_iff {width : Nat} {words : List String} {lines : List (List String)} :
    IsFilled width words lines ↔ lines = fill width words := by
  refine ⟨fun filled => ?_, fun same => same ▸ isFilled_fill width words⟩
  induction lines generalizing words with
  | nil =>
      have none : words = [] := filled.flatten.symm
      rw [none]
      rfl
  | cons line others inductionHypothesis =>
      obtain ⟨later, rfl, first, rest⟩ := isFilled_cons_iff.mp filled
      obtain ⟨other, left, same, filledSo, firstToo⟩ :=
        exists_fill_eq width (List.append_ne_nil_of_left_ne_nil first.filled later)
      obtain ⟨rfl, rfl⟩ := first.unique firstToo same
      rw [filledSo, inductionHypothesis rest]

end NostrCapsule.Reflow
