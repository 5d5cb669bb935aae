import NostrCapsule.Identifier.HexId
import NostrCapsule.Proofs.Refusal
import NostrCapsule.Proofs.Text.Ascii
import NostrCapsule.Proofs.Text.Octets

/-!
Contract: texts of 64 hexadecimal digits spell identifiers, and no other texts do.

Digits of either case are read alike, and what was read is written again in small digits.  So a text
spells the identifier whose own text it has in small letters.

Owns:
- `Hex.IsDigit`, and reading in terms of it;
- `HexId.IsSpelling`, `HexText.check_eq_ok_iff` and `HexText.ofText?_eq_ok_iff`;
- `HexId.exists_ofText?_iff` and `HexId.ofText?_eq_ok_iff`.

Does not own: the bech32 spellings of identifiers.
-/

namespace NostrCapsule

namespace Hex

/-! ## Digits -/

def IsDigit (character : Char) : Prop :=
  ('0' ≤ character ∧ character ≤ '9') ∨ ('a' ≤ character ∧ character ≤ 'f')
    ∨ ('A' ≤ character ∧ character ≤ 'F')

variable {character : Char} {value : Nat}

theorem exists_digit?_iff : (∃ value, digit? character = some value) ↔ IsDigit character := by
  unfold digit? IsDigit
  split_ifs with decimal small capital <;> simp_all

theorem ascii_of_isDigit (digit : IsDigit character) : character.toNat < 128 := by
  simp only [IsDigit, Char.le_def, UInt32.le_iff_toNat_le] at digit
  change character.val.toNat < 128
  rcases digit with decimal | small | capital
  · exact Nat.lt_of_le_of_lt decimal.2 (by decide)
  · exact Nat.lt_of_le_of_lt small.2 (by decide)
  · exact Nat.lt_of_le_of_lt capital.2 (by decide)

/-- A digit that was read is written in its small form. -/
theorem digit_of_digit? (read : digit? character = some value) :
    value < 16 ∧ digit value = character.toLower := by
  have ascii := ascii_of_isDigit (exists_digit?_iff.mp ⟨value, read⟩)
  exact Text.of_ascii
    (fun character => ∀ value ∈ digit? character, value < 16 ∧ digit value = character.toLower)
    (by decide) ascii value read

theorem digit?_toLower (character : Char) : digit? character.toLower = digit? character :=
  Text.apply_toLower digit? (by decide) character

/-- The octets of a text are digits exactly if its characters are. -/
theorem all_isDigitOctet_iff (text : String) :
    (Text.octetsOf text).all isDigitOctet = true ↔
      ∀ character ∈ text.toList, IsDigit character := by
  have ascii (octet : UInt8) (digit : isDigitOctet octet = true) : octet.toNat < 128 := by
    simp only [isDigitOctet, Bool.or_eq_true, Bool.and_eq_true, decide_eq_true_eq,
      UInt8.le_iff_toNat_le, UInt8.reduceToNat] at digit
    omega
  have agrees {character : Char} (small : character.toNat < 128) :
      isDigitOctet (UInt8.ofNat character.toNat) = (digit? character).isSome :=
    Text.of_ascii
      (fun character => isDigitOctet (UInt8.ofNat character.toNat) = (digit? character).isSome)
      (by decide) small
  rw [List.all_eq_true, Text.forall_mem_octetsOf_iff ascii]
  refine forall₂_congr fun character _ => ⟨fun digit => ?_, fun digit => ?_⟩
  · rw [agrees digit.1, Option.isSome_iff_exists, exists_digit?_iff] at digit
    exact digit.2
  · have small := ascii_of_isDigit digit
    rw [agrees small, Option.isSome_iff_exists, exists_digit?_iff]
    exact ⟨small, digit⟩

/-! ## Digits in pairs -/

variable {characters : List Char} {octets : List UInt8}

theorem length_encode (octets : List UInt8) : (encode octets).length = 2 * octets.length := by
  induction octets with
  | nil => rfl
  | cons octet rest inductionHypothesis =>
      rw [encode, List.flatMap_cons, List.length_append, ← encode, inductionHypothesis]
      simp only [List.length_cons, List.length_nil]
      omega

/-- What is true of the sixteen small digits is true of whatever is written in them. -/
theorem forall_mem_encode {property : Char → Prop}
    (ofDigit : ∀ value : Fin 16, property (digit value.val)) (octets : List UInt8) :
    ∀ character ∈ encode octets, property character := by
  intro character member
  obtain ⟨octet, _, written⟩ := List.mem_flatMap.mp member
  have small : octet.toNat < 256 := octet.toNat_lt
  simp only [List.mem_cons, List.not_mem_nil, or_false] at written
  rcases written with rfl | rfl
  · exact ofDigit ⟨octet.toNat / 16, by omega⟩
  · exact ofDigit ⟨octet.toNat % 16, by omega⟩

theorem encode_of_decode (read : decode characters = some octets) :
    encode octets = characters.map Char.toLower := by
  fun_induction decode characters generalizing octets with
  | case1 =>
      cases read
      rfl
  | case2 high low rest inductionHypothesis =>
      obtain ⟨upper, highDigit, read⟩ := Option.bind_eq_some_iff.mp read
      obtain ⟨lower, lowDigit, read⟩ := Option.bind_eq_some_iff.mp read
      obtain ⟨others, readRest, read⟩ := Option.bind_eq_some_iff.mp read
      cases read
      obtain ⟨upperSmall, upperWritten⟩ := digit_of_digit? highDigit
      obtain ⟨lowerSmall, lowerWritten⟩ := digit_of_digit? lowDigit
      have joined : (UInt8.ofNat (16 * upper + lower)).toNat = 16 * upper + lower := by
        rw [UInt8.toNat_ofNat']
        omega
      have quotient : (16 * upper + lower) / 16 = upper := by omega
      have remainder : (16 * upper + lower) % 16 = lower := by omega
      rw [encode, List.flatMap_cons, ← encode, inductionHypothesis readRest, joined, quotient,
        remainder, upperWritten, lowerWritten]
      rfl
  | case3 => cases read

theorem length_of_decode (read : decode characters = some octets) :
    characters.length = 2 * octets.length := by
  rw [← length_encode, encode_of_decode read, List.length_map]

theorem decode_map_toLower (characters : List Char) :
    decode (characters.map Char.toLower) = decode characters := by
  fun_induction decode characters with
  | case1 => rfl
  | case2 high low rest inductionHypothesis =>
      simp only [List.map_cons, decode, digit?_toLower, inductionHypothesis]
  | case3 => rfl

theorem exists_decode_iff :
    (∃ octets, decode characters = some octets) ↔
      2 ∣ characters.length ∧ ∀ character ∈ characters, IsDigit character := by
  fun_induction decode characters with
  | case1 => simp
  | case2 high low rest inductionHypothesis =>
      have even : 2 ∣ (high :: low :: rest).length ↔ 2 ∣ rest.length := by
        simp only [List.length_cons]
        omega
      have reads : (∃ octets, decode (high :: low :: rest) = some octets) ↔
          (∃ upper, digit? high = some upper) ∧ (∃ lower, digit? low = some lower) ∧
            ∃ octets, decode rest = some octets := by
        simp [decode, Option.bind_eq_some_iff]
      rw [decode] at reads
      rw [reads, inductionHypothesis, exists_digit?_iff, exists_digit?_iff, even,
        List.forall_mem_cons, List.forall_mem_cons]
      tauto
  | case3 character => simp

end Hex

namespace HexId

variable {role : IdRole} {text : String} {id : HexId role}

/-- A text of 64 hexadecimal digits. -/
structure IsSpelling (text : String) : Prop where
  length : text.length = 64
  digits : ∀ character ∈ text.toList, Hex.IsDigit character

theorem IsSpelling.utf8ByteSize (spelling : IsSpelling text) : text.utf8ByteSize = 64 := by
  rw [Text.utf8ByteSize_eq_length fun character member =>
    Hex.ascii_of_isDigit (spelling.digits character member), spelling.length]

/-- Exactly the texts of 64 digits spell the octets of an identifier. -/
theorem exists_decode_iff_isSpelling :
    (∃ id : HexId role, Hex.decode text.toList = some id.octets) ↔ IsSpelling text := by
  constructor
  · intro spelled
    rcases spelled with ⟨id, decoded⟩
    have length := Hex.length_of_decode decoded
    rw [String.length_toList, id.length_octets] at length
    exact ⟨length, (Hex.exists_decode_iff.mp ⟨_, decoded⟩).2⟩
  · intro spelling
    have even : 2 ∣ text.toList.length := by
      rw [String.length_toList, spelling.length]
      decide
    obtain ⟨octets, decoded⟩ := Hex.exists_decode_iff.mpr ⟨even, spelling.digits⟩
    have length := Hex.length_of_decode decoded
    rw [String.length_toList, spelling.length] at length
    exact ⟨⟨octets, by omega⟩, decoded⟩

end HexId

namespace HexText

variable {role : IdRole} {text : String} {kept : HexText role} {id : HexId role}

/-- The check passes exactly the texts of 64 hexadecimal digits. -/
theorem check_eq_ok_iff : check text = .ok () ↔ HexId.IsSpelling text := by
  unfold check
  constructor
  · intro passed
    split_ifs at passed with empty size digits
    have digits := (Hex.all_isDigitOctet_iff text).mp digits
    have length := Text.utf8ByteSize_eq_length fun character member =>
      Hex.ascii_of_isDigit (digits character member)
    exact ⟨length ▸ not_not.mp size, digits⟩
  · intro spelling
    have nonempty : text.isEmpty ≠ true := by
      intro empty
      have size := spelling.utf8ByteSize
      rw [String.isEmpty_iff.mp empty] at size
      cases size
    rw [if_neg nonempty, if_neg (not_not.mpr spelling.utf8ByteSize),
      if_pos ((Hex.all_isDigitOctet_iff text).mpr spelling.digits)]

theorem ofText?_eq_ok_iff :
    ofText? text = .ok kept ↔ HexId.IsSpelling text ∧ kept.digits = text.toLower := by
  rw [ofText?, Refusal.map_eq_ok_iff, ← check_eq_ok_iff]
  constructor
  · intro read
    obtain ⟨_, passed, rfl⟩ := read
    exact ⟨passed, rfl⟩
  · intro read
    obtain ⟨passed, small⟩ := read
    exact ⟨(), passed, congrArg HexText.mk small.symm⟩

/-- Digits that spell an identifier are read as it, and not as zero. -/
theorem toId_of_decode (decoded : Hex.decode kept.digits.toList = some id.octets) :
    kept.toId = id := by
  rw [toId, decoded]
  exact dif_pos id.length_octets

end HexText

namespace HexId

variable {role : IdRole} {text : String} {id : HexId role}

theorem toList_text (id : HexId role) : id.text.toList = Hex.encode id.octets := by
  rw [HexId.text, HexText.ofId, String.toList_ofList]

/-- An identifier can be told from its text. -/
theorem text_injective : Function.Injective (@HexId.text role) := by
  intro left right same
  have read := Hex.decode_encode left.octets
  rw [← left.toList_text, same, right.toList_text, Hex.decode_encode] at read
  cases left
  cases right
  cases read
  rfl

/-- A text is read as an identifier exactly if its digits spell the identifier's octets. -/
theorem ofText?_eq_ok_iff_decode :
    ofText? text = .ok id ↔ Hex.decode text.toList = some id.octets := by
  have lowered (text : String) : Hex.decode text.toLower.toList = Hex.decode text.toList := by
    rw [Text.toList_toLower, Hex.decode_map_toLower]
  rw [ofText?, Refusal.map_eq_ok_iff]
  simp only [HexText.ofText?_eq_ok_iff]
  constructor
  · intro read
    obtain ⟨kept, ⟨spelling, small⟩, rfl⟩ := read
    obtain ⟨id, decoded⟩ := exists_decode_iff_isSpelling.mpr spelling
    rw [← lowered, ← small] at decoded
    rw [HexText.toId_of_decode decoded, ← lowered, ← small, decoded]
  · intro decoded
    refine ⟨⟨text.toLower⟩, ⟨exists_decode_iff_isSpelling.mp ⟨id, decoded⟩, rfl⟩, ?_⟩
    exact HexText.toId_of_decode ((lowered text).trans decoded)

/-- A text spells the identifier whose own text it has in small letters. -/
theorem ofText?_eq_ok_iff : ofText? text = .ok id ↔ id.text = text.toLower := by
  rw [ofText?_eq_ok_iff_decode, ← String.toList_inj, toList_text, Text.toList_toLower]
  constructor
  · exact Hex.encode_of_decode
  · intro spelled
    rw [← Hex.decode_map_toLower, ← spelled, Hex.decode_encode]

/-- The texts that spell identifiers are those of 64 hexadecimal digits. -/
theorem exists_ofText?_iff :
    (∃ id : HexId role, ofText? text = .ok id) ↔ IsSpelling text := by
  simp only [ofText?_eq_ok_iff_decode]
  exact exists_decode_iff_isSpelling

end HexId

end NostrCapsule
