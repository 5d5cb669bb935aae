import NostrCapsule.Proofs.Engagement.Tallies
import NostrCapsule.Proofs.Text.OneLine

/-!
Contract: when the line that shows a tally is one line.

The keys of the reactions are the only part of the line that is not made of numbers and fixed words.

Owns: the line feeds of each part of the line, and `isOneLine_line?_ofEvents`.

Does not own: what the numbers are.
-/

namespace NostrCapsule.Engagement

open Text

theorem isOneLine_counted (count : Nat) {one many : String} (singular : IsOneLine one)
    (plural : IsOneLine many) : IsOneLine (counted count one many) := by
  have unit : IsOneLine "1 " := by decide
  have space : IsOneLine " " := by decide
  unfold counted
  split
  · exact isOneLine_append.mpr ⟨unit, singular⟩
  · simp only [isOneLine_append]
    exact ⟨⟨isOneLine_toString_nat count, space⟩, plural⟩

theorem isOneLine_breakdown {counts : Counts} :
    IsOneLine (breakdown counts) ↔ ∀ key ∈ counts.map Prod.fst, IsOneLine key := by
  have space : IsOneLine " " := by decide
  rw [breakdown, isOneLine_intercalate (by decide), List.forall_mem_map, List.forall_mem_map]
  simp only [isOneLine_append, space, isOneLine_toString_nat, and_true]

private theorem forall_mem_unless_zero {count : Nat} {part : String} :
    (∀ text ∈ if count = 0 then [] else [part], IsOneLine text) ↔ count = 0 ∨ IsOneLine part := by
  by_cases zero : count = 0
  · simp [zero]
  · simp [zero]

theorem isOneLine_of_mem_parts {engagement : Engagement} :
    (∀ part ∈ engagement.parts, IsOneLine part) ↔
      engagement.reactions = 0 ∨
        ∀ key ∈ engagement.reactionsByContent.map Prod.fst, IsOneLine key := by
  have replies : IsOneLine (counted engagement.replies "reply" "replies") :=
    isOneLine_counted _ (by decide) (by decide)
  have reactions : IsOneLine (counted engagement.reactions "reaction" "reactions") :=
    isOneLine_counted _ (by decide) (by decide)
  have sats : IsOneLine (toString engagement.sats) := isOneLine_toString_nat _
  have opening : IsOneLine " (" := by decide
  have closing : IsOneLine ")" := by decide
  have unit : IsOneLine " sats" := by decide
  rw [parts, List.forall_mem_append, List.forall_mem_append, forall_mem_unless_zero,
    forall_mem_unless_zero, forall_mem_unless_zero]
  simp only [isOneLine_append, isOneLine_breakdown, replies, reactions, sats, opening, closing,
    unit, or_true, true_and, and_true]

/-- A line without reactions is one line; with reactions, it is if each key is. -/
theorem isOneLine_of_mem_line? {engagement : Engagement} :
    (∀ line ∈ engagement.line?, IsOneLine line) ↔
      engagement.reactions = 0 ∨
        ∀ key ∈ engagement.reactionsByContent.map Prod.fst, IsOneLine key := by
  unfold line?
  split
  · next nothing =>
      simp only [isEmpty, Bool.and_eq_true, beq_iff_eq] at nothing
      exact iff_of_true (fun _ member => nomatch member) (.inl nothing.1.2)
  · have between : IsOneLine " · " := by decide
    rw [← isOneLine_of_mem_parts, ← isOneLine_intercalate between]
    simp only [Option.mem_some_iff, forall_eq']

/-- The line of a tally is one line exactly if every reaction in it is. -/
theorem isOneLine_line?_ofEvents {events : List Event} :
    (∀ line ∈ (ofEvents events).line?, IsOneLine line) ↔
      ∀ event ∈ events, event.isKind .reaction = true → IsOneLine (reactionKey event.content) := by
  have tallies := tallies_ofEvents events
  have isReaction (event : Event) : event.isKind .reaction = true ↔ event.kind = 7 := beq_iff_eq
  simp only [isReaction]
  rw [isOneLine_of_mem_line?, tallies.reactions, List.countP_eq_zero]
  simp only [decide_eq_true_eq]
  constructor
  · rintro (never | each) event member kind
    · exact absurd kind (never event member)
    · exact each _ (tallies.mem_keys_iff.mpr ⟨event, member, kind, rfl⟩)
  · intro each
    right
    intro key present
    obtain ⟨event, member, kind, rfl⟩ := tallies.mem_keys_iff.mp present
    exact each event member kind

end NostrCapsule.Engagement
