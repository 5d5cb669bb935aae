import NostrCapsule.Proofs.Identifier.HexDigits

/-!
Contract: the digits that are kept of an identifier are always 64 small ones.

Digits come from a text, from an identifier or from octets.  All three ways give canonical digits
and reach every text of them.  So reading them back never meets a text that it would take for zero,
and it undoes writing them.

Owns:
- `HexText.IsMade`, the ways to digits, and `HexText.IsCanonical`, what they have in common;
- `HexText.ofId_toId` and `HexText.toId_ofId`;
- `HexText.ofText?_domain_and_roundTrip`.

Does not own: texts that wrap an identifier.
-/

namespace NostrCapsule

namespace Hex

def IsSmallDigit (character : Char) : Prop :=
  ('0' ≤ character ∧ character ≤ '9') ∨ ('a' ≤ character ∧ character ≤ 'f')

instance (character : Char) : Decidable (IsSmallDigit character) :=
  inferInstanceAs (Decidable (_ ∨ _))

variable {character : Char}

theorem isDigit_of_isSmallDigit (small : IsSmallDigit character) : IsDigit character :=
  small.imp_right .inl

theorem isSmallDigit_digit : ∀ value : Fin 16, IsSmallDigit (digit value.val) := by
  decide

theorem isSmallDigit_toLower (digit : IsDigit character) : IsSmallDigit character.toLower := by
  obtain ⟨value, read⟩ := exists_digit?_iff.mpr digit
  obtain ⟨bound, written⟩ := digit_of_digit? read
  rw [← written]
  exact isSmallDigit_digit ⟨value, bound⟩

theorem isUpper_of_isSmallDigit (small : IsSmallDigit character) : character.isUpper = false :=
  Text.of_ascii (fun character => IsSmallDigit character → character.isUpper = false) (by decide)
    (ascii_of_isDigit (isDigit_of_isSmallDigit small)) small

end Hex

namespace HexText

variable {role : IdRole} {text : String} {kept : HexText role} {octets : List UInt8}

/-- Digits that are kept of an identifier come from a text that spells it, from itself or from its
octets. -/
inductive IsMade : HexText role → Prop where
  | ofText {text : String} {kept : HexText role} (read : ofText? text = .ok kept) : IsMade kept
  | ofId (id : HexId role) : IsMade (.ofId id)
  | ofOctets {octets : List UInt8} {kept : HexText role} (read : ofOctets? octets = .ok kept) :
      IsMade kept

structure IsCanonical (kept : HexText role) : Prop where
  length : kept.digits.length = 64
  small : ∀ character ∈ kept.digits.toList, Hex.IsSmallDigit character

/-! ## Three ways to digits -/

theorem exists_ofText?_iff_isSpelling :
    (∃ kept : HexText role, ofText? text = .ok kept) ↔ HexId.IsSpelling text := by
  simp only [ofText?_eq_ok_iff]
  exact ⟨fun read => read.choose_spec.1, fun spelling => ⟨⟨text.toLower⟩, spelling, rfl⟩⟩

theorem ofOctets?_eq_ok_iff :
    ofOctets? octets = .ok kept ↔ ∃ id : HexId role, id.octets = octets ∧ kept = ofId id := by
  rw [ofOctets?, Refusal.map_eq_ok_iff]
  constructor
  · intro read
    obtain ⟨id, spelled, rfl⟩ := read
    unfold HexId.ofOctets? at spelled
    split_ifs at spelled
    cases spelled
    exact ⟨_, rfl, rfl⟩
  · intro read
    obtain ⟨id, rfl, rfl⟩ := read
    exact ⟨id, dif_pos id.length_octets, rfl⟩

theorem exists_ofOctets?_iff :
    (∃ kept : HexText role, ofOctets? octets = .ok kept) ↔ octets.length = 32 := by
  simp only [ofOctets?_eq_ok_iff]
  constructor
  · intro read
    obtain ⟨_, id, rfl, _⟩ := read
    exact id.length_octets
  · exact fun length => ⟨_, ⟨octets, length⟩, rfl, rfl⟩

theorem isCanonical_ofId (id : HexId role) : (ofId id).IsCanonical := by
  constructor
  · rw [ofId, String.length_ofList, Hex.length_encode, id.length_octets]
  · rw [ofId, String.toList_ofList]
    exact Hex.forall_mem_encode Hex.isSmallDigit_digit id.octets

theorem isCanonical_of_ofText? (read : ofText? text = .ok kept) : kept.IsCanonical := by
  obtain ⟨spelling, lowered⟩ := ofText?_eq_ok_iff.mp read
  have letters : kept.digits.toList = text.toList.map Char.toLower := by
    rw [lowered, Text.toList_toLower]
  constructor
  · rw [← String.length_toList, letters, List.length_map, String.length_toList, spelling.length]
  · rw [letters, List.forall_mem_map]
    exact fun character member => Hex.isSmallDigit_toLower (spelling.digits character member)

theorem IsMade.isCanonical (made : kept.IsMade) : kept.IsCanonical := by
  cases made with
  | ofText read => exact isCanonical_of_ofText? read
  | ofId id => exact isCanonical_ofId id
  | ofOctets read =>
      obtain ⟨id, _, rfl⟩ := ofOctets?_eq_ok_iff.mp read
      exact isCanonical_ofId id

/-! ## Reading back -/

theorem toId_ofId (id : HexId role) : (ofId id).toId = id := by
  apply toId_of_decode
  rw [ofId, String.toList_ofList, Hex.decode_encode]

namespace IsCanonical

theorem isSpelling (canonical : kept.IsCanonical) : HexId.IsSpelling kept.digits :=
  ⟨canonical.length, fun character member =>
    Hex.isDigit_of_isSmallDigit (canonical.small character member)⟩

/-- Canonical digits are read, so zero never stands in for them. -/
theorem decode_eq (canonical : kept.IsCanonical) :
    Hex.decode kept.digits.toList = some kept.toId.octets := by
  obtain ⟨id, decoded⟩ := HexId.exists_decode_iff_isSpelling.mpr canonical.isSpelling
  rw [toId_of_decode decoded, decoded]

theorem ofId_toId (canonical : kept.IsCanonical) : ofId kept.toId = kept := by
  have capitals (character : Char) (member : character ∈ kept.digits.toList) :
      character.isUpper = false :=
    Hex.isUpper_of_isSmallDigit (canonical.small character member)
  have written : Hex.encode kept.toId.octets = kept.digits.toList := by
    rw [Hex.encode_of_decode canonical.decode_eq, Text.map_toLower_of_not_upper capitals]
  rw [ofId, written, String.ofList_toList]

end IsCanonical

theorem isMade_iff_isCanonical : kept.IsMade ↔ kept.IsCanonical :=
  ⟨IsMade.isCanonical, fun canonical => canonical.ofId_toId ▸ .ofId kept.toId⟩

/-- Two texts that are read give the same digits exactly if they differ in letter case at most. -/
theorem ofText?_eq_iff_toLower_eq {left right : String} {keptLeft keptRight : HexText role}
    (readLeft : ofText? left = .ok keptLeft) (readRight : ofText? right = .ok keptRight) :
    keptLeft = keptRight ↔ left.toLower = right.toLower := by
  rw [← (ofText?_eq_ok_iff.mp readLeft).2, ← (ofText?_eq_ok_iff.mp readRight).2]
  exact ⟨congrArg HexText.digits, fun same => congrArg HexText.mk same⟩

/-- Digits are made from exactly the texts of 64 hexadecimal digits and the lists of 32 octets, and
what is made is exactly the texts of 64 small digits.  These are read, and zero never stands in for
them: the identifier read gives the same digits, and an identifier's digits give the same octets.
Texts that differ in letter case at most give the same digits, and no others do. -/
theorem ofText?_domain_and_roundTrip (role : IdRole) :
    (∀ text, (∃ kept : HexText role, ofText? text = .ok kept) ↔ HexId.IsSpelling text) ∧
    (∀ octets, (∃ kept : HexText role, ofOctets? octets = .ok kept) ↔ octets.length = 32) ∧
    (∀ kept : HexText role, kept.IsMade ↔ kept.IsCanonical) ∧
    (∀ kept : HexText role, kept.IsMade →
      Hex.decode kept.digits.toList = some kept.toId.octets ∧ ofId kept.toId = kept) ∧
    (∀ octets (length : octets.length = 32),
      (ofId (⟨octets, length⟩ : HexId role)).toId.octets = octets) ∧
    ∀ left right (keptLeft keptRight : HexText role), ofText? left = .ok keptLeft →
      ofText? right = .ok keptRight → (keptLeft = keptRight ↔ left.toLower = right.toLower) := by
  refine ⟨fun text => exists_ofText?_iff_isSpelling, fun octets => exists_ofOctets?_iff,
    fun kept => isMade_iff_isCanonical, fun kept made => ?_, fun octets length => ?_, ?_⟩
  · have canonical := made.isCanonical
    exact ⟨canonical.decode_eq, canonical.ofId_toId⟩
  · rw [toId_ofId]
  · exact fun _ _ _ _ => ofText?_eq_iff_toLower_eq

/-- Capital digits and small ones give the same digits, which are read as the octets that they
spell, while as many octets of letters with an accent are refused. -/
theorem ofText?_domain_and_roundTrip_capital :
    let capital := String.ofList (List.replicate 32 ['A', 'b']).flatten
    let small := String.ofList (List.replicate 32 ['a', 'b']).flatten
    let accents := String.ofList (List.replicate 32 'é')
    let octets : List UInt8 := List.replicate 32 0xab
    let kept : HexText .event := ⟨small⟩
    ofText? capital = .ok kept ∧ ofText? small = .ok kept ∧ kept.IsMade ∧
      HexId.IsSpelling capital ∧ kept.IsCanonical ∧ octets.length = 32 ∧
      (∃ kept : HexText .event, ofOctets? octets = .ok kept) ∧
      Hex.decode kept.digits.toList = some kept.toId.octets ∧ ofId kept.toId = kept ∧
      (ofId (⟨octets, rfl⟩ : EventId)).toId.octets = octets ∧
      capital.toLower = small.toLower ∧
      accents.utf8ByteSize = 64 ∧ ¬ ∃ kept : HexText .event, ofText? accents = .ok kept := by
  intro capital small accents octets kept
  obtain ⟨ofText, ofOctets, made, back, again, sameCase⟩ := ofText?_domain_and_roundTrip .event
  have readCapital : ofText? capital = .ok kept := by decide +kernel
  have readSmall : ofText? small = .ok kept := by decide +kernel
  have isMade : kept.IsMade := .ofText readCapital
  have noDigits : ¬ HexId.IsSpelling accents := fun spelling =>
    absurd spelling.length (by decide +kernel)
  exact ⟨readCapital, readSmall, isMade, (ofText capital).mp ⟨kept, readCapital⟩,
    (made kept).mp isMade, rfl, (ofOctets octets).mpr rfl, (back kept isMade).1, (back kept isMade).2, again octets rfl,
    (sameCase capital small kept kept readCapital readSmall).mp rfl, by decide +kernel,
    fun read => noDigits ((ofText accents).mp read)⟩

end HexText

end NostrCapsule
