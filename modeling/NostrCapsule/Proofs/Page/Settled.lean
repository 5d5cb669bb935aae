import NostrCapsule.Proofs.Page.LineBreaks

/-!
Contract: documents that are broken to a width already.

A line that came out of breaking is not broken again.  If a mark has come to stand in front of it,
it passes as structure; if not, its words still stand with single spaces between them, and they
still fit or are one word, so that filling puts all of them on one line.

Owns:
- `IsSettled`, lines that stay, and that breaking makes no others;
- `reflow_eq_self_iff`, the documents that stay;
- `reflow_reflow`.

Does not own: which lines a line of prose becomes.
-/

namespace NostrCapsule.Reflow

/-- A line that stays at a width.  Prose does if its words stand with single spaces between them,
and there is room for them or there is one word only. -/
def IsSettled (width : Nat) (line : String) : Prop :=
  IsProse line → Text.collapse line = line ∧
    (line.length ≤ width ∨ ∃ word, Text.words line = [word])

/-! ## Lines -/

/-- Prose becomes one line, itself, exactly if its spacing is single and it fits. -/
theorem isBroken_singleton_iff {width : Nat} {line : String} (prose : IsProse line) :
    IsBroken width line [line] ↔
      Text.collapse line = line ∧ (line.length ≤ width ∨ ∃ word, Text.words line = [word]) := by
  constructor
  · intro broken
    exact ⟨broken.spaced line List.mem_cons_self, broken.fits line List.mem_cons_self⟩
  · rintro ⟨spaced, fits⟩
    have worded : Text.words line ≠ [] := by
      rw [ne_eq, Text.words_eq_nil_iff, prose.1]
      exact Bool.false_ne_true
    exact {
      nonempty := List.cons_ne_nil line []
      words := List.flatMap_singleton _ _
      filled := List.forall_mem_singleton.mpr worded
      spaced := List.forall_mem_singleton.mpr spaced
      fits := List.forall_mem_singleton.mpr fits
      full := List.isChain_singleton line }

theorem reflowLine_eq_singleton_iff {width : Nat} {line : String} :
    reflowLine width line = [line] ↔ IsSettled width line := by
  by_cases prose : IsProse line
  · rw [eq_comm, ← isBroken_iff prose, isBroken_singleton_iff prose]
    exact ⟨fun settled _ => settled, fun settled => settled prose⟩
  · exact iff_of_true (reflowLine_of_not_prose prose) fun is => absurd is prose

/-- What a line is broken into is broken no further. -/
theorem isSettled_of_mem_reflowLine {width : Nat} {line piece : String}
    (member : piece ∈ reflowLine width line) : IsSettled width piece := by
  by_cases prose : IsProse line
  · have broken := isBroken_reflowLine width prose
    exact fun _ => ⟨broken.spaced piece member, broken.fits piece member⟩
  · rw [reflowLine_of_not_prose prose, List.mem_singleton] at member
    rw [member]
    exact fun is => absurd is prose

/-! ## Documents -/

/-- The lines of a broken document are settled. -/
theorem isSettled_of_mem_linesOf_reflow {width : Nat} (positive : width ≠ 0) {document line : String}
    (member : line ∈ Text.linesOf (reflow width document)) : IsSettled width line := by
  rw [linesOf_reflow positive] at member
  obtain ⟨_, _, broken⟩ := List.mem_flatMap.mp member
  exact isSettled_of_mem_reflowLine broken

/-- A document stays exactly if each of its lines does. -/
theorem reflow_eq_self_iff {width : Nat} (positive : width ≠ 0) {document : String} :
    reflow width document = document ↔
      ∀ line ∈ Text.linesOf document, IsSettled width line := by
  constructor
  · intro same line member
    rw [← same] at member
    exact isSettled_of_mem_linesOf_reflow positive member
  · intro settled
    apply reflow_eq_self_of_kept
    exact fun line member => reflowLine_eq_singleton_iff.mpr (settled line member)

/-- Breaking a document to a width it was broken to already changes nothing, whatever its lines have
come to look like.  The documents that stay are those without a width and those in which each line
of prose has single spaces between its words and fits or is one word. -/
theorem reflow_reflow (width : Nat) (document : String) :
    reflow width (reflow width document) = reflow width document ∧
      (reflow width document = document ↔
        width = 0 ∨ ∀ line ∈ Text.linesOf document, IsSettled width line) := by
  by_cases zero : width = 0
  · subst zero
    exact ⟨rfl, iff_of_true rfl (.inl rfl)⟩
  · rw [or_iff_right zero]
    refine ⟨?_, reflow_eq_self_iff zero⟩
    apply (reflow_eq_self_iff zero).mpr
    exact fun line => isSettled_of_mem_linesOf_reflow zero

/-- A tag that became a heading, a word that is too long, and an asterisk that became a bullet. -/
example :
    let broken := "see\n#nostr\nsupercalifragilistic\n* b"
    reflow 6 "see #nostr supercalifragilistic * b" = broken ∧ reflow 6 broken = broken := by
  decide +kernel

end NostrCapsule.Reflow
