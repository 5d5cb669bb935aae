import NostrCapsule.Text.Basic

/-!
Contract: octets are lines in one way.

Owns:
- `AreLines`, which lists the ways in which a line can end;
- `areLines_iff`, by which the lines of octets are those that are read from them;
- the lines of octets that go on behind a line feed.

Does not own: what a line holds.
-/

namespace NostrCapsule.Text

def lineFeed : UInt8 := 0x0A

def carriageReturn : UInt8 := 0x0D

/-- Octets are lines that each end at a line feed.  A carriage return before it belongs to the end
of the line, and not to the line.  Octets behind the last line feed are a line, if there are any. -/
inductive AreLines : List UInt8 → List (List UInt8) → Prop where
  | nothing : AreLines [] []
  | last {line : List UInt8} (nonempty : line ≠ []) (whole : lineFeed ∉ line) :
      AreLines line [line]
  | ended {line rest : List UInt8} {lines : List (List UInt8)} (whole : lineFeed ∉ line)
      (plain : line.getLast? ≠ some carriageReturn) (behind : AreLines rest lines) :
      AreLines (line ++ lineFeed :: rest) (line :: lines)
  | returned {line rest : List UInt8} {lines : List (List UInt8)} (whole : lineFeed ∉ line)
      (behind : AreLines rest lines) :
      AreLines (line ++ carriageReturn :: lineFeed :: rest) (line :: lines)

variable {octets line : List UInt8} {lines : List (List UInt8)}

/-! ## Reading -/

theorem dropReturn_of_plain (plain : line.getLast? ≠ some carriageReturn) :
    dropReturn line = line :=
  if_neg plain

theorem dropReturn_append_return (line : List UInt8) :
    dropReturn (line ++ [carriageReturn]) = line := by
  rw [dropReturn, List.getLast?_concat, List.dropLast_concat]
  exact if_pos rfl

theorem byteLines_nil : byteLines [] = [] := by
  simp [byteLines]

theorem splitOn_of_whole (whole : lineFeed ∉ line) : line.splitOn lineFeed = [line] := by
  apply List.splitOnP_eq_singleton
  intro octet member
  rw [beq_eq_false_iff_ne]
  exact fun same => whole (same ▸ member)

theorem byteLines_of_whole (nonempty : line ≠ []) (whole : lineFeed ∉ line) :
    byteLines line = [line] := by
  have pieces : line.splitOn 0x0A = [line] := splitOn_of_whole whole
  simp [byteLines, pieces, nonempty]

/-- What stands before a line feed and what stands behind it are read on their own. -/
theorem byteLines_append_lineFeed (front back : List UInt8) :
    byteLines (front ++ lineFeed :: back) =
      (front.splitOn lineFeed).map dropReturn ++ byteLines back := by
  have cut : (front ++ lineFeed :: back).splitOn 0x0A =
      front.splitOn 0x0A ++ back.splitOn 0x0A :=
    List.splitOnP_append_cons _ _ (by decide)
  have pieces : back.splitOn 0x0A ≠ [] := List.splitOn_ne_nil _ _
  have last : (front.splitOn 0x0A ++ back.splitOn 0x0A).getLastD [] =
      (back.splitOn 0x0A).getLastD [] := by
    rw [List.getLastD_eq_getLast?, List.getLast?_append,
      Option.or_of_isSome (List.getLast?_isSome.mpr pieces), ← List.getLastD_eq_getLast?]
  simp only [byteLines, cut, last]
  rw [List.dropLast_append_of_ne_nil pieces, List.map_append, List.append_assoc]
  rfl

theorem byteLines_cons (whole : lineFeed ∉ line) (rest : List UInt8) :
    byteLines (line ++ lineFeed :: rest) = dropReturn line :: byteLines rest := by
  rw [byteLines_append_lineFeed, splitOn_of_whole whole]
  rfl

/-! ## The lines of octets -/

theorem areLines_byteLines (octets : List UInt8) : AreLines octets (byteLines octets) := by
  induction size : octets.length using Nat.strongRecOn generalizing octets with
  | ind size inductionHypothesis =>
      by_cases cut : lineFeed ∈ octets
      · obtain ⟨line, rest, rfl, whole⟩ := List.eq_append_cons_of_mem cut
        have behind : AreLines rest (byteLines rest) := by
          refine inductionHypothesis _ ?_ rest rfl
          rw [← size, List.length_append, List.length_cons]
          omega
        rw [byteLines_cons whole]
        by_cases plain : line.getLast? = some carriageReturn
        · obtain ⟨front, rfl⟩ := List.getLast?_eq_some_iff.mp plain
          rw [dropReturn_append_return, List.append_assoc]
          exact .returned (fun present => whole (List.mem_append_left _ present)) behind
        · rw [dropReturn_of_plain plain]
          exact .ended whole plain behind
      · by_cases empty : octets = []
        · rw [empty, byteLines_nil]
          exact .nothing
        · rw [byteLines_of_whole empty cut]
          exact .last empty cut

/-- Octets are in one way lines, and those are read. -/
theorem areLines_iff : AreLines octets lines ↔ byteLines octets = lines := by
  constructor
  · intro are
    induction are with
    | nothing => exact byteLines_nil
    | last nonempty whole => exact byteLines_of_whole nonempty whole
    | ended whole plain _ inductionHypothesis =>
        rw [byteLines_cons whole, dropReturn_of_plain plain, inductionHypothesis]
    | @returned line rest lines whole _ inductionHypothesis =>
        have both : lineFeed ∉ line ++ [carriageReturn] := by
          rw [List.mem_append, not_or]
          exact ⟨whole, by decide⟩
        have moved : line ++ carriageReturn :: lineFeed :: rest =
            (line ++ [carriageReturn]) ++ lineFeed :: rest := by
          simp
        rw [moved, byteLines_cons both, dropReturn_append_return, inductionHypothesis]
  · rintro rfl
    exact areLines_byteLines octets

end NostrCapsule.Text
