import NostrCapsule.Text.Hex

/-!
Contract: whole numbers, written in decimal and read back.

Owns: the digits of a number with their value, and `signed64?_toString`.

Does not own: numerals inside structured data.
-/

namespace NostrCapsule.Text

def digitsOf (size : Nat) : List Char := Nat.toDigits 10 size

theorem isDigit_of_mem_digitsOf {size : Nat} {character : Char}
    (member : character ∈ digitsOf size) : character.isDigit = true :=
  Nat.isDigit_of_mem_toDigits (by decide) (by decide) member

theorem digitsOf_ne_nil (size : Nat) : digitsOf size ≠ [] := Nat.toDigits_ne_nil

theorem digitsValue_digitsOf (size : Nat) : digitsValue (digitsOf size) = size := by
  rw [digitsValue, ← Nat.ofDigitChars_eq_foldl]
  exact Nat.ofDigitChars_ten_toDigits

theorem natural?_digitsOf (size : Nat) : natural? (digitsOf size) = some size := by
  have digits : (digitsOf size).all Char.isDigit = true :=
    List.all_eq_true.mpr fun _ => isDigit_of_mem_digitsOf
  rw [natural?, digits, List.isEmpty_eq_false_iff.mpr (digitsOf_ne_nil size),
    digitsValue_digitsOf]
  rfl

/-- Only zero is written with a zero in front. -/
theorem head?_digitsOf {size : Nat} (positive : 0 < size) : (digitsOf size).head? ≠ some '0' := by
  induction size using Nat.strongRecOn with
  | ind size inductionHypothesis =>
      rw [digitsOf, Nat.toDigits_eq_if (by decide)]
      split
      case isTrue small =>
        match size with
        | 0 => cases positive
        | 1 | 2 | 3 | 4 | 5 | 6 | 7 | 8 | 9 => decide
        | _ + 10 => omega
      case isFalse large =>
        rw [List.head?_append, Option.or_of_isSome (by simp [Nat.toDigits_ne_nil])]
        exact inductionHypothesis (size / 10) (by omega) (by omega)

theorem toList_toString_ofNat (size : Nat) :
    (toString (Int.ofNat size)).toList = digitsOf size := by
  show (toString size).toList = _
  rw [Nat.toString_eq_ofList_toDigits, String.toList_ofList]
  rfl

theorem toList_toString_negSucc (size : Nat) :
    (toString (Int.negSucc size)).toList = '-' :: digitsOf (size + 1) := by
  show ("-" ++ toString (size + 1)).toList = _
  rw [String.toList_append, Nat.toString_eq_ofList_toDigits]
  exact congrArg ('-' :: ·) String.toList_ofList

def IsSigned64 (value : Int) : Prop := -(signedLimit : Int) ≤ value ∧ value < signedLimit

instance (value : Int) : Decidable (IsSigned64 value) := inferInstanceAs (Decidable (_ ∧ _))

theorem isSigned64_of_signed64? {text : String} {value : Int}
    (read : signed64? text = some value) : IsSigned64 value := by
  unfold signed64? at read
  unfold IsSigned64
  have positive : 0 < signedLimit := by decide
  split at read
  case h_1 digits _ =>
    cases spelled : natural? digits with
    | none => simp [spelled] at read
    | some size =>
        by_cases small : size ≤ signedLimit
        · simp [spelled, Option.filter_some, small] at read
          omega
        · simp [spelled, Option.filter_some, small] at read
  all_goals
    simp only [Option.map_eq_some_iff, Option.filter_eq_some_iff, decide_eq_true_eq] at read
    obtain ⟨size, ⟨_, small⟩, rfl⟩ := read
    simp only [Int.ofNat_eq_natCast]
    omega

theorem signed64?_toString {value : Int} (within : IsSigned64 value) :
    signed64? (toString value) = some value := by
  unfold IsSigned64 at within
  cases value with
  | ofNat size =>
      have small : size < signedLimit := by grind
      have unsigned : ∀ mark rest, digitsOf size = mark :: rest → mark.isDigit = true :=
        fun mark rest split => isDigit_of_mem_digitsOf (split ▸ List.mem_cons_self)
      rw [signed64?, toList_toString_ofNat]
      split
      case h_1 rest split => exact absurd (unsigned '-' rest split) (by decide)
      case h_2 rest split => exact absurd (unsigned '+' rest split) (by decide)
      case h_3 => simp [natural?_digitsOf, Option.filter_some, small]
  | negSucc size =>
      have small : size + 1 ≤ signedLimit := by grind
      have kept : (natural? (digitsOf (size + 1))).filter (· ≤ signedLimit) =
          some (size + 1) := by
        rw [natural?_digitsOf, Option.filter_some, if_pos (decide_eq_true small)]
      rw [signed64?, toList_toString_negSucc]
      simp only [kept]
      rfl

end NostrCapsule.Text
