import NostrCapsule.Proofs.Text.Octets
import NostrCapsule.Reference.Scan

/-!
Contract: a text is made up of its pieces, and a reference spells its token at its place.

Owns:
- `textOf`, and the tokens of references;
- `ReferenceMatch.shift`, and the places of references in parts of a text;
- the slice of a text at a reference.

Does not own: which shapes in a text are references.
-/

namespace NostrCapsule

namespace Reference

theorem flatMap_chars_pieces (characters : List Char) :
    (pieces characters).flatMap Piece.chars = characters := by
  fun_induction pieces characters with
  | case1 => rfl
  | case2 character later token rest found inductionHypothesis =>
      rw [List.flatMap_cons, inductionHypothesis, Piece.chars, String.toList_ofList,
        eq_append_of_referenceAt? found, List.append_assoc]
  | case3 character later found inductionHypothesis =>
      rw [List.flatMap_cons, inductionHypothesis, Piece.chars, List.singleton_append]

def textOf (pieces : List Piece) : String :=
  String.ofList (pieces.flatMap Piece.chars)

theorem textOf_piecesOf (text : String) : textOf (piecesOf text) = text := by
  rw [textOf, piecesOf, flatMap_chars_pieces, String.ofList_toList]

theorem textOf_plain (character : Char) (rest : List Piece) :
    textOf (.plain character :: rest) = String.singleton character ++ textOf rest := by
  apply String.toList_inj.mp
  simp [textOf, Piece.chars]

theorem textOf_reference (token : String) (rest : List Piece) :
    textOf (.reference token :: rest) = scheme ++ token ++ textOf rest := by
  apply String.toList_inj.mp
  simp [textOf, Piece.chars]

theorem map_token_matchesFrom (offset : Nat) (pieces : List Piece) :
    (matchesFrom offset pieces).map ReferenceMatch.token = pieces.filterMap Piece.token? := by
  induction pieces generalizing offset with
  | nil => rfl
  | cons piece rest inductionHypothesis =>
      cases piece with
      | plain character => exact inductionHypothesis _
      | reference token => exact congrArg (token :: ·) (inductionHypothesis _)

/-- A text without the scheme has no references. -/
theorem matchesFrom_of_absent (offset : Nat) {characters : List Char}
    (absent : ¬scheme.toList <:+: characters) : matchesFrom offset (pieces characters) = [] := by
  fun_induction pieces characters generalizing offset with
  | case1 => rfl
  | case2 character later token rest found inductionHypothesis =>
      rw [eq_append_of_referenceAt? found] at absent
      exact absurd (List.prefix_append _ _).isInfix absent
  | case3 character later found inductionHypothesis =>
      exact inductionHypothesis _ fun present => absent (List.infix_cons present)

/-- Looking for the scheme first hides no reference. -/
theorem scan_eq_matchesFrom (text : String) : scan text = matchesFrom 0 (piecesOf text) := by
  unfold scan
  split
  · rfl
  · next absent =>
      rw [Text.occursIn_iff] at absent
      exact (matchesFrom_of_absent 0 absent).symm

theorem map_token_scan (text : String) :
    (scan text).map ReferenceMatch.token = (piecesOf text).filterMap Piece.token? := by
  rw [scan_eq_matchesFrom, map_token_matchesFrom]

theorem token_mem_of_mem_scan {text : String} {found : ReferenceMatch}
    (member : found ∈ scan text) : found.token ∈ (piecesOf text).filterMap Piece.token? := by
  rw [← map_token_scan]
  exact List.mem_map_of_mem member

/-! ## Places in parts of a text -/

/-- The references among further pieces start where the text of the first ones ends. -/
theorem matchesFrom_append (offset : Nat) (front back : List Piece) :
    matchesFrom offset (front ++ back) =
      matchesFrom offset front ++ matchesFrom (offset + (textOf front).utf8ByteSize) back := by
  induction front generalizing offset with
  | nil => rfl
  | cons piece rest inductionHypothesis =>
      cases piece with
      | plain character =>
          rw [textOf_plain, String.utf8ByteSize_append, String.utf8ByteSize_singleton,
            ← Nat.add_assoc]
          exact inductionHypothesis _
      | reference token =>
          rw [textOf_reference, String.utf8ByteSize_append, ← Nat.add_assoc]
          exact congrArg (_ :: ·) (inductionHypothesis _)

end Reference

def ReferenceMatch.shift (offset : Nat) (found : ReferenceMatch) : ReferenceMatch :=
  { found with start := offset + found.start, stop := offset + found.stop }

theorem ReferenceMatch.shift_shift (outer inner : Nat) (found : ReferenceMatch) :
    (found.shift inner).shift outer = found.shift (outer + inner) := by
  simp only [shift, Nat.add_assoc]

namespace Reference

theorem matchesFrom_add (offset cursor : Nat) (pieces : List Piece) :
    matchesFrom (offset + cursor) pieces =
      (matchesFrom cursor pieces).map (ReferenceMatch.shift offset) := by
  induction pieces generalizing cursor with
  | nil => rfl
  | cons piece rest inductionHypothesis =>
      cases piece with
      | plain character =>
          rw [matchesFrom, Nat.add_assoc]
          exact inductionHypothesis _
      | reference token =>
          simp only [matchesFrom, Nat.add_assoc, inductionHypothesis, List.map_cons,
            ReferenceMatch.shift]

/-- Two texts that are cut into pieces one by one keep their references side by side. -/
theorem scan_append {front back : String}
    (apart : piecesOf (front ++ back) = piecesOf front ++ piecesOf back) :
    scan (front ++ back) =
      scan front ++ (scan back).map (ReferenceMatch.shift front.utf8ByteSize) := by
  rw [scan_eq_matchesFrom, apart, matchesFrom_append, textOf_piecesOf, Nat.zero_add,
    scan_eq_matchesFrom, scan_eq_matchesFrom]
  exact congrArg (_ ++ ·) (matchesFrom_add front.utf8ByteSize 0 _)

/-! ## Slices -/

/-- A reference spells its scheme and its token at its place. -/
theorem slice?_of_mem_matchesFrom (front : String) {pieces : List Piece} {found : ReferenceMatch}
    (member : found ∈ matchesFrom front.utf8ByteSize pieces) :
    Text.slice? (front ++ textOf pieces) found.start found.stop = some found.spelling := by
  induction pieces generalizing front with
  | nil => cases member
  | cons piece rest inductionHypothesis =>
      cases piece with
      | plain character =>
          rw [textOf_plain, ← String.append_assoc]
          apply inductionHypothesis
          rw [String.utf8ByteSize_append, String.utf8ByteSize_singleton]
          exact member
      | reference token =>
          rw [textOf_reference]
          rcases List.mem_cons.mp member with rfl | later
          · rw [← String.append_assoc]
            exact Text.slice?_append front (scheme ++ token) (textOf rest)
          · rw [← String.append_assoc]
            apply inductionHypothesis
            rw [String.utf8ByteSize_append]
            exact later

theorem slice?_of_mem_scan {text : String} {found : ReferenceMatch} (member : found ∈ scan text) :
    Text.slice? text found.start found.stop = some found.spelling := by
  rw [scan_eq_matchesFrom] at member
  have placed := slice?_of_mem_matchesFrom "" member
  rwa [String.empty_append, textOf_piecesOf] at placed

end Reference

end NostrCapsule
