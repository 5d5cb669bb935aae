import Mathlib.Data.List.Basic

/-!
Contract: what is true of ASCII characters, and which characters have a small form of their own.

Owns:
- checking a property of ASCII code by code;
- the characters that `Char.toLower` keeps, and what it makes no difference to;
- the capital form of a character, and the small form of that.

Does not own: the alphabets of digits and tokens.
-/

namespace NostrCapsule.Text

/-- A property of the ASCII characters, checked code by code. -/
theorem of_ascii (property : Char → Prop) (checked : ∀ code < 128, property (Char.ofNat code))
    {character : Char} (ascii : character.toNat < 128) : property character := by
  have holds := checked character.toNat ascii
  rwa [Char.ofNat_toNat] at holds

theorem toLower_of_not_upper {character : Char} (small : character.isUpper = false) :
    character.toLower = character := by
  unfold Char.toLower
  rw [dif_neg]
  exact of_decide_eq_false small

theorem map_toLower_of_not_upper {characters : List Char}
    (small : ∀ character ∈ characters, character.isUpper = false) :
    characters.map Char.toLower = characters := by
  calc characters.map Char.toLower
      = characters.map id :=
        List.map_congr_left fun character member => toLower_of_not_upper (small character member)
    _ = characters := List.map_id characters

theorem toList_toLower (text : String) : text.toLower.toList = text.toList.map Char.toLower :=
  String.toList_map

theorem ascii_of_isUpper {character : Char} (capital : character.isUpper = true) :
    character.toNat < 128 := by
  have upTo := (of_decide_eq_true capital).2
  exact Nat.lt_of_le_of_lt (UInt32.le_iff_toNat_le.mp upTo) (by decide)

/-- What makes no difference between the cases of an ASCII character makes none at all. -/
theorem apply_toLower {α : Type} (observe : Char → α)
    (checked : ∀ code < 128, observe (Char.ofNat code).toLower = observe (Char.ofNat code))
    (character : Char) : observe character.toLower = observe character := by
  cases capital : character.isUpper with
  | true =>
      exact of_ascii (fun character => observe character.toLower = observe character) checked
        (ascii_of_isUpper capital)
  | false => rw [toLower_of_not_upper capital]

/-! ## Capital letters -/

theorem ascii_of_isLower {character : Char} (small : character.isLower = true) :
    character.toNat < 128 := by
  have upTo := of_decide_eq_true (Bool.and_eq_true_iff.mp small).2
  exact Nat.lt_of_le_of_lt (UInt32.le_iff_toNat_le.mp upTo) (by decide)

theorem toUpper_of_not_lower {character : Char} (other : character.isLower = false) :
    character.toUpper = character := by
  unfold Char.toUpper
  rw [dif_neg]
  rintro ⟨least, greatest⟩
  have small : character.isLower = true :=
    Bool.and_eq_true_iff.mpr ⟨decide_eq_true least, decide_eq_true greatest⟩
  rw [other] at small
  cases small

theorem toLower_toUpper (character : Char) : character.toUpper.toLower = character.toLower := by
  cases small : character.isLower with
  | true =>
      exact of_ascii (fun character => character.toUpper.toLower = character.toLower) (by decide)
        (ascii_of_isLower small)
  | false => rw [toUpper_of_not_lower small]

theorem isLower_toUpper (character : Char) : character.toUpper.isLower = false := by
  cases small : character.isLower with
  | true =>
      exact of_ascii (fun character => character.toUpper.isLower = false) (by decide)
        (ascii_of_isLower small)
  | false => rw [toUpper_of_not_lower small, small]

end NostrCapsule.Text
