import Mathlib.Data.List.TakeWhile
import NostrCapsule.Json.Token
import NostrCapsule.Proofs.Text.Numeral

/-!
Contract: whole numbers in JSON text.

A whole number in decimal is one token, in front of any character that cannot continue it.

Owns:
- the reading of decimal numerals;
- `stepAll?`, the machine over a part of a text, and `tokensFrom?_toString_append`.

Does not own: the bounds that a reader sets, and numerals of other forms.
-/

namespace NostrCapsule.Json

theorem isWhole_digitsOf (size : Nat) : isWhole (Text.digitsOf size) = true := by
  by_cases zero : size = 0
  · subst zero
    decide
  · have led := Text.head?_digitsOf (Nat.pos_of_ne_zero zero)
    cases digits : Text.digitsOf size with
    | nil => exact absurd digits (Text.digitsOf_ne_nil size)
    | cons first rest =>
        have notZero : first ≠ '0' := fun same => led (by rw [digits, same]; rfl)
        unfold isWhole
        split
        · contradiction
        · rfl
        · simp_all

theorem magnitude?_digitsOf (negative : Bool) (size : Nat) :
    magnitude? negative (Text.digitsOf size) =
      if !negative then some (.whole size)
      else if size = 0 then some .other
      else some (.whole (-(size : Int))) := by
  have digits : ∀ character ∈ Text.digitsOf size, character.isDigit = true :=
    fun _ => Text.isDigit_of_mem_digitsOf
  simp [magnitude?, List.takeWhile_eq_self_iff.mpr digits, List.dropWhile_eq_nil_iff.mpr digits,
    isWhole_digitsOf, Text.digitsValue_digitsOf]

/-- A whole number is a minus or a digit, and digits. -/
theorem exists_toList_toString (value : Int) :
    ∃ first rest, (toString value).toList = first :: rest ∧
      (first.isDigit = true ∨ first = '-') ∧ ∀ character ∈ rest, character.isDigit = true := by
  cases value with
  | ofNat size =>
      have digits : ∀ character ∈ Text.digitsOf size, character.isDigit = true :=
        fun _ => Text.isDigit_of_mem_digitsOf
      rw [Text.toList_toString_ofNat]
      cases split : Text.digitsOf size with
      | nil => exact absurd split (Text.digitsOf_ne_nil size)
      | cons first rest =>
          rw [split, List.forall_mem_cons] at digits
          exact ⟨first, rest, rfl, .inl digits.1, digits.2⟩
  | negSucc size =>
      exact ⟨'-', _, Text.toList_toString_negSucc size, .inr rfl,
        fun _ => Text.isDigit_of_mem_digitsOf⟩

theorem number?_toString (value : Int) :
    number? (toString value).toList = some (.whole value) := by
  cases value with
  | ofNat size =>
      rw [Text.toList_toString_ofNat]
      unfold number?
      split
      case h_1 rest split =>
        have digit : '-'.isDigit = true :=
          Text.isDigit_of_mem_digitsOf (split ▸ List.mem_cons_self)
        cases digit
      case h_2 => simp [magnitude?_digitsOf]
  | negSucc size =>
      rw [Text.toList_toString_negSucc]
      exact magnitude?_digitsOf true (size + 1)

theorem begin?_of_isDigit {character : Char}
    (numeral : character.isDigit = true ∨ character = '-') :
    begin? character = some (.numeral [character], []) := by
  unfold begin?
  split <;> simp_all

/-! ## The machine over a part of a text -/

def stepAll? (mode : Mode) : List Char → Option (Mode × List Token)
  | [] => some (mode, [])
  | character :: rest =>
      (step? mode character).bind fun stepped =>
        (stepAll? stepped.1 rest).map fun ended => (ended.1, stepped.2 ++ ended.2)

theorem tokensFrom?_cons (mode : Mode) (character : Char) (rest : List Char) :
    tokensFrom? mode (character :: rest) =
      (step? mode character).bind fun stepped =>
        (tokensFrom? stepped.1 rest).map (stepped.2 ++ ·) := by
  rw [tokensFrom?]
  cases step? mode character <;> rfl

theorem tokensFrom?_append {mode next : Mode} {characters : List Char} {complete : List Token}
    (ended : stepAll? mode characters = some (next, complete)) (rest : List Char) :
    tokensFrom? mode (characters ++ rest) = (tokensFrom? next rest).map (complete ++ ·) := by
  induction characters generalizing mode complete with
  | nil =>
      cases ended
      simp
  | cons character others inductionHypothesis =>
      obtain ⟨stepped, step, later⟩ := Option.bind_eq_some_iff.mp ended
      obtain ⟨⟨_, completeToo⟩, endedToo, built⟩ := Option.map_eq_some_iff.mp later
      cases built
      rw [List.cons_append, tokensFrom?_cons, step, Option.bind_some,
        inductionHypothesis endedToo, Option.map_map]
      exact congrArg (Option.map · _) (funext fun tokens => (List.append_assoc _ _ tokens).symm)

/-- A numeral goes on for as long as its characters do. -/
theorem stepAll?_numeral {characters : List Char}
    (numerals : ∀ character ∈ characters, isNumeral character = true) (written : List Char) :
    stepAll? (.numeral written) characters =
      some (.numeral (characters.reverse ++ written), []) := by
  induction characters generalizing written with
  | nil => rfl
  | cons first others inductionHypothesis =>
      rw [List.forall_mem_cons] at numerals
      rw [stepAll?, step?, if_pos numerals.1, Option.bind_some,
        inductionHypothesis numerals.2 (first :: written), List.reverse_cons, List.append_assoc]
      rfl

/-- A whole number is one token, and what follows it is read as if it stood alone. -/
theorem tokensFrom?_toString_append (value : Int) {next : Char} (ends : isNumeral next = false)
    (rest : List Char) :
    tokensFrom? .between ((toString value).toList ++ next :: rest) =
      (tokensFrom? .between (next :: rest)).map (.number (.whole value) :: ·) := by
  obtain ⟨first, others, spelled, begins, digits⟩ := exists_toList_toString value
  have numerals : ∀ character ∈ others, isNumeral character = true := fun _ member => by
    simp [isNumeral, digits _ member]
  have read : number? (first :: others) = some (.whole value) := spelled ▸ number?_toString value
  have restarts : step? (.numeral (others.reverse ++ [first])) next =
      (begin? next).map fun begun => (begun.1, .number (.whole value) :: begun.2) := by
    simp only [step?, ends, restart?, finish?, List.reverse_append, List.reverse_reverse,
      List.reverse_singleton, List.singleton_append, read]
    cases begin? next <;> rfl
  calc tokensFrom? .between ((toString value).toList ++ next :: rest)
    _ = tokensFrom? (.numeral [first]) (others ++ next :: rest) := by
        rw [spelled, List.cons_append, tokensFrom?_cons, step?, begin?_of_isDigit begins]
        simp
    _ = tokensFrom? (.numeral (others.reverse ++ [first])) (next :: rest) := by
        rw [tokensFrom?_append (stepAll?_numeral numerals [first])]
        simp
    _ = (tokensFrom? .between (next :: rest)).map (.number (.whole value) :: ·) := by
        rw [tokensFrom?_cons, tokensFrom?_cons, restarts, step?]
        cases begin? next with
        | none => rfl
        | some begun => simp [Function.comp_def]

end NostrCapsule.Json
