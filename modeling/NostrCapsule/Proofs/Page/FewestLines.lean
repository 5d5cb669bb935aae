import Mathlib.Algebra.Order.BigOperators.Group.List
import Mathlib.Algebra.Order.Group.Nat
import Mathlib.Order.Bounds.Defs
import NostrCapsule.Proofs.Page.LineBreaks

/-!
Contract: filling lines in turn makes the fewest lines, and fewer in a wider document.

A first line holds all words that any other cut has on its first line, so that filling stays ahead
of the other cut: what it has left is always the end of what the other one has left.

Owns: `length_fill_le`, and the same for lines of prose and for whole documents.

Does not own: which words stand on which line.
-/

namespace NostrCapsule.Reflow

/-- Filling the last words of a cut takes no more lines than the cut has. -/
theorem length_fill_le_of_suffix {width : Nat} {whole words : List String}
    {lines : List (List String)} (layout : IsLayout width whole lines) (behind : words <:+ whole) :
    (fill width words).length ≤ lines.length := by
  induction lines generalizing whole words with
  | nil =>
      rw [← layout.flatten, List.flatten_nil, List.suffix_nil] at behind
      rw [behind]
      exact Nat.le_refl 0
  | cons line others inductionHypothesis =>
      obtain ⟨rfl, filled, fits⟩ := layout
      rw [List.forall_mem_cons] at filled fits
      have layoutOfOthers : IsLayout width others.flatten others := ⟨rfl, filled.2, fits.2⟩
      obtain ⟨front, split⟩ := behind
      rcases List.append_eq_append_iff.mp split with ⟨part, rfl, rfl⟩ | ⟨passed, -, left⟩
      · -- The words begin within the line of the cut, of which the first line holds the rest.
        by_cases none : part ++ others.flatten = []
        · rw [none]
          exact Nat.zero_le _
        · obtain ⟨first, later, same, filling, isFirst⟩ := exists_fill_eq width none
          have narrower := lineWidth_le_append_right front part
          have roomForPart : lineWidth part ≤ width ∨ part.length ≤ 1 := by
            rcases fits.1 with room | single
            · exact .inl (narrower.trans room)
            · rw [List.length_append] at single
              exact .inr (by omega)
          obtain ⟨more, rfl⟩ := isFirst.prefix_of_fits same.symm roomForPart
          rw [List.append_assoc] at same
          have behindOthers : later <:+ others.flatten :=
            ⟨more, (List.append_cancel_left same).symm⟩
          rw [filling, List.length_cons, List.length_cons]
          exact Nat.succ_le_succ (inductionHypothesis layoutOfOthers behindOthers)
      · exact (inductionHypothesis layoutOfOthers ⟨passed, left.symm⟩).trans (Nat.le_succ _)

theorem length_fill_le {width : Nat} {words : List String} {lines : List (List String)}
    (layout : IsLayout width words lines) : (fill width words).length ≤ lines.length :=
  length_fill_le_of_suffix layout List.suffix_rfl

/-- A cut for a narrow document is one for a wider document too. -/
theorem length_fill_antitone {narrow wide : Nat} (within : narrow ≤ wide) (words : List String) :
    (fill wide words).length ≤ (fill narrow words).length :=
  length_fill_le ((isFilled_fill narrow words).toIsLayout.mono within)

theorem length_reflowLine_of_prose (width : Nat) {line : String} (prose : IsProse line) :
    (reflowLine width line).length = (fill width (Text.words line)).length := by
  rw [reflowLine_of_prose prose, List.length_map]

theorem length_reflowLine_antitone {narrow wide : Nat} (within : narrow ≤ wide) (line : String) :
    (reflowLine wide line).length ≤ (reflowLine narrow line).length := by
  by_cases prose : IsProse line
  · rw [length_reflowLine_of_prose wide prose, length_reflowLine_of_prose narrow prose]
    exact length_fill_antitone within (Text.words line)
  · rw [reflowLine_of_not_prose prose, reflowLine_of_not_prose prose]

theorem length_linesOf_reflow_antitone {narrow wide : Nat} (positive : 1 ≤ narrow)
    (within : narrow ≤ wide) (document : String) :
    (Text.linesOf (reflow wide document)).length ≤
      (Text.linesOf (reflow narrow document)).length := by
  rw [linesOf_reflow (by omega), linesOf_reflow (by omega), List.length_flatMap,
    List.length_flatMap]
  apply List.sum_le_sum
  exact fun line _ => length_reflowLine_antitone within line

/-- A line of prose is broken into the least number of lines into which its words can be cut so that
each fits or is one word.  So a document has at most as many lines after it was broken to a wider
width as after it was broken to a narrower one. -/
theorem isLeast_length_reflowLine {width : Nat} (positive : 1 ≤ width) :
    (∀ line, IsProse line →
      IsLeast {count | ∃ lines, IsLayout width (Text.words line) lines ∧ lines.length = count}
        (reflowLine width line).length) ∧
    ∀ wide, width ≤ wide → ∀ document,
      (Text.linesOf (reflow wide document)).length ≤
        (Text.linesOf (reflow width document)).length := by
  refine ⟨fun line prose => ?_, fun wide within => length_linesOf_reflow_antitone positive within⟩
  rw [length_reflowLine_of_prose width prose]
  constructor
  · exact ⟨_, (isFilled_fill width (Text.words line)).toIsLayout, rfl⟩
  · rintro count ⟨lines, layout, rfl⟩
    exact length_fill_le layout

/-- A word that is too long for the narrow document has a line of its own there. -/
theorem isLeast_length_reflowLine_overlong :
    let line := "a supercalifragilistic b"
    (1 ≤ 5 ∧ IsProse line) ∧
      IsLeast {count | ∃ lines, IsLayout 5 ["a", "supercalifragilistic", "b"] lines ∧
        lines.length = count} 3 ∧
      (Text.linesOf (reflow 22 line)).length ≤ (Text.linesOf (reflow 5 line)).length := by
  intro line
  have prose : IsProse line := by decide +kernel
  obtain ⟨least, fewer⟩ := isLeast_length_reflowLine (by decide : 1 ≤ 5)
  have words : Text.words line = ["a", "supercalifragilistic", "b"] := by decide +kernel
  have count : (reflowLine 5 line).length = 3 := by decide +kernel
  have leastHere := least line prose
  rw [words, count] at leastHere
  exact ⟨⟨by decide, prose⟩, leastHere, fewer 22 (by decide) line⟩

end NostrCapsule.Reflow
