import Mathlib.Algebra.Ring.Nat
import Mathlib.Data.List.Basic
import NostrCapsule.Text.Hex

/-!
Contract: texts measured, searched and cut by their octets in UTF-8.

A character outside ASCII is written in octets of 128 and above alone.  So what is asked of the
octets of a text, and holds of ASCII only, can be asked of its characters.  A slice is partial: a
place outside the text or inside a character gives none, and so do places in the wrong order.

Owns:
- the number of octets as a sum over the characters, its lower bound, and its value for ASCII;
- `octetsOf_eq_flatMap`, the octets character by character, and `forall_mem_octetsOf_iff`;
- `slice?`, and that the middle of three parts is the slice between its ends.

Does not own: the encoding itself, and the places at which a text is cut.
-/

namespace NostrCapsule.Text

/-! ## How many there are -/

theorem utf8ByteSize_eq_sum (text : String) :
    text.utf8ByteSize = (text.toList.map Char.utf8Size).sum := by
  have listed : ∀ characters : List Char,
      (String.ofList characters).utf8ByteSize = (characters.map Char.utf8Size).sum := by
    intro characters
    induction characters with
    | nil => rfl
    | cons character rest inductionHypothesis =>
        rw [← List.singleton_append, String.ofList_append, String.utf8ByteSize_append,
          inductionHypothesis, List.map_append, List.sum_append]
        simp
  rw [← listed, String.ofList_toList]

theorem length_le_utf8ByteSize (text : String) : text.length ≤ text.utf8ByteSize := by
  rw [utf8ByteSize_eq_sum, ← String.length_toList]
  induction text.toList with
  | nil => exact Nat.le_refl 0
  | cons character rest inductionHypothesis =>
      have positive := character.utf8Size_pos
      rw [List.map_cons, List.sum_cons, List.length_cons]
      omega

theorem utf8ByteSize_eq_length {text : String}
    (ascii : ∀ character ∈ text.toList, character.toNat < 128) :
    text.utf8ByteSize = text.length := by
  rw [utf8ByteSize_eq_sum, ← String.length_toList]
  generalize text.toList = characters at ascii
  induction characters with
  | nil => rfl
  | cons character rest inductionHypothesis =>
      rw [List.forall_mem_cons] at ascii
      have one : character.utf8Size = 1 := by
        rw [Char.utf8Size_eq_one_iff]
        exact UInt32.le_iff_toNat_le.mpr (Nat.le_of_lt_succ ascii.1)
      rw [List.map_cons, List.sum_cons, List.length_cons, one, inductionHypothesis ascii.2]
      omega

/-! ## Octets below 128 -/

/-- The octets of a text are those of its characters, one after the other. -/
theorem octetsOf_eq_flatMap (text : String) :
    octetsOf text = text.toList.flatMap String.utf8EncodeChar := by
  have encoded (characters : List Char) :
      octetsOf (String.ofList characters) = characters.flatMap String.utf8EncodeChar := by
    rw [octetsOf, String.toByteArray_ofList, List.utf8Encode, List.data_toByteArray,
      List.toList_toArray]
  rw [← encoded, String.ofList_toList]

theorem utf8EncodeChar_of_ascii {character : Char} (ascii : character.toNat < 128) :
    String.utf8EncodeChar character = [UInt8.ofNat character.toNat] :=
  if_pos (Nat.le_of_lt_succ ascii)

theorem exists_mem_utf8EncodeChar (character : Char) :
    ∃ octet, octet ∈ String.utf8EncodeChar character := by
  apply List.exists_mem_of_ne_nil
  rw [← List.length_pos_iff, String.length_utf8EncodeChar]
  exact character.utf8Size_pos

/-- No octet of a character outside ASCII is the code of an ASCII character. -/
theorem le_toNat_of_mem_utf8EncodeChar {character : Char} {octet : UInt8}
    (other : 128 ≤ character.toNat) (member : octet ∈ String.utf8EncodeChar character) :
    128 ≤ octet.toNat := by
  have beyond : ¬ character.val.toNat ≤ 127 := Nat.not_le.mpr other
  have high {code : Nat} (least : 128 ≤ code) (greatest : code < 256) :
      128 ≤ (UInt8.ofNat code).toNat := by
    rwa [UInt8.toNat_ofNat', Nat.mod_eq_of_lt greatest]
  unfold String.utf8EncodeChar at member
  dsimp only at member
  rw [if_neg beyond] at member
  -- Two, three or four octets: all of them are 128 and something that fills seven bits.
  split_ifs at member <;> simp only [List.mem_cons, List.not_mem_nil, or_false] at member
  · rcases member with rfl | rfl <;> exact high (by omega) (by omega)
  · rcases member with rfl | rfl | rfl <;> exact high (by omega) (by omega)
  · rcases member with rfl | rfl | rfl | rfl <;> exact high (by omega) (by omega)

/-- What holds of ASCII octets only holds of all octets of a text exactly if the text is ASCII and
it holds of the codes of the characters. -/
theorem forall_mem_octetsOf_iff {property : UInt8 → Prop}
    (ascii : ∀ octet, property octet → octet.toNat < 128) (text : String) :
    (∀ octet ∈ octetsOf text, property octet) ↔
      ∀ character ∈ text.toList,
        character.toNat < 128 ∧ property (UInt8.ofNat character.toNat) := by
  have each (character : Char) :
      (∀ octet ∈ String.utf8EncodeChar character, property octet) ↔
        character.toNat < 128 ∧ property (UInt8.ofNat character.toNat) := by
    rcases Nat.lt_or_ge character.toNat 128 with small | other
    · rw [utf8EncodeChar_of_ascii small, List.forall_mem_singleton]
      exact (and_iff_right small).symm
    · obtain ⟨octet, member⟩ := exists_mem_utf8EncodeChar character
      refine ⟨fun holds => ?_, fun small => absurd small.1 (Nat.not_lt.mpr other)⟩
      exact absurd (ascii octet (holds octet member))
        (Nat.not_lt.mpr (le_toNat_of_mem_utf8EncodeChar other member))
  rw [octetsOf_eq_flatMap, List.forall_mem_flatMap]
  exact forall₂_congr fun character _ => each character

/-! ## Slices -/

/-- Whether a place lies within a text and not inside one of its characters. -/
def IsBoundary (text : String) (place : Nat) : Prop :=
  (String.Pos.Raw.mk place).IsValid text

instance (text : String) (place : Nat) : Decidable (IsBoundary text place) :=
  inferInstanceAs (Decidable (String.Pos.Raw.IsValid text ⟨place⟩))

/-- The text of the octets from one place to another. -/
def slice? (text : String) (start stop : Nat) : Option String :=
  if start ≤ stop ∧ IsBoundary text start ∧ IsBoundary text stop then
    ofOctets? (((octetsOf text).take stop).drop start)
  else none

theorem octetsOf_append (left right : String) :
    octetsOf (left ++ right) = octetsOf left ++ octetsOf right := by
  simp [octetsOf]

theorem isBoundary_iff {text : String} {place : Nat} :
    IsBoundary text place ↔ ∃ front back, text = front ++ back ∧ place = front.utf8ByteSize := by
  rw [IsBoundary, String.Pos.Raw.isValid_iff_exists_append]
  simp [String.Pos.Raw.ext_iff]

theorem slice?_append (front part back : String) :
    slice? (front ++ part ++ back) front.utf8ByteSize
      (front.utf8ByteSize + part.utf8ByteSize) = some part := by
  have starts : IsBoundary (front ++ part ++ back) front.utf8ByteSize :=
    isBoundary_iff.mpr ⟨front, part ++ back, String.append_assoc .., rfl⟩
  have stops : IsBoundary (front ++ part ++ back) (front.utf8ByteSize + part.utf8ByteSize) :=
    isBoundary_iff.mpr ⟨front ++ part, back, rfl, (String.utf8ByteSize_append ..).symm⟩
  unfold slice?
  rw [if_pos ⟨Nat.le_add_right _ _, starts, stops⟩, octetsOf_append, octetsOf_append,
    ← length_octetsOf, ← length_octetsOf, List.append_assoc, List.take_length_add_append,
    List.drop_left, List.take_left, ofOctets?_octetsOf]

theorem slice?_whole (text : String) : slice? text 0 text.utf8ByteSize = some text := by
  simpa using slice?_append "" text ""

end NostrCapsule.Text
