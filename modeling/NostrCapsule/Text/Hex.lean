/-!
Contract: octets and numbers in written form.

Owns:
- `octetsOf`, the UTF-8 encoding of a text, and its partial inverse `ofOctets?`;
- the percent-encoding of text for one segment of a path;
- whole numbers read from decimal digits, with and without a sign;
- octets as pairs of hexadecimal digits, `Hex.encode` and `Hex.decode`.

Does not own: identifiers of a fixed size, payloads, and numbers inside structured data.
-/

namespace NostrCapsule.Text

/-! ## UTF-8 -/

/-- The UTF-8 encoding of a text. -/
def octetsOf (text : String) : List UInt8 :=
  text.toByteArray.data.toList

/-- The text that octets encode, if they are well-formed UTF-8. -/
def ofOctets? (octets : List UInt8) : Option String :=
  String.fromUTF8? ⟨octets.toArray⟩

/-- Encoded text reads back. -/
theorem ofOctets?_octetsOf (text : String) : ofOctets? (octetsOf text) = some text := by
  have whole : (⟨(octetsOf text).toArray⟩ : ByteArray) = text.toByteArray := by
    simp [octetsOf]
  rw [ofOctets?, whole, String.fromUTF8?]
  split
  · rfl
  · next invalid => exact absurd text.isValidUTF8 invalid

/-- Octets that are read as a text are its encoding. -/
theorem octetsOf_of_ofOctets? {octets : List UInt8} {text : String}
    (read : ofOctets? octets = some text) : octetsOf text = octets := by
  rw [ofOctets?, String.fromUTF8?] at read
  split at read
  · cases read
    simp [octetsOf, String.fromUTF8]
  · cases read

theorem ofOctets?_eq_some_iff {octets : List UInt8} {text : String} :
    ofOctets? octets = some text ↔ octets = octetsOf text := by
  constructor
  · intro read
    exact (octetsOf_of_ofOctets? read).symm
  · rintro rfl
    exact ofOctets?_octetsOf text

theorem octetsOf_injective : Function.Injective octetsOf := by
  intro left right same
  have read := ofOctets?_octetsOf left
  rw [same, ofOctets?_octetsOf] at read
  exact (Option.some.inj read).symm

theorem length_octetsOf (text : String) : (octetsOf text).length = text.utf8ByteSize := rfl

/-! ## Percent encoding -/

/-- Letters, digits and the four marks that stand for themselves. -/
def isUnreserved (octet : UInt8) : Bool :=
  let character := Char.ofNat octet.toNat
  character.isAlphanum || character == '-' || character == '_' || character == '.'
    || character == '~'

def capitalDigit (value : Nat) : Char :=
  if value < 10 then Char.ofNat (0x30 + value) else Char.ofNat (0x37 + value)

/-- An unreserved octet as itself, any other as a percent sign and two capital digits. -/
def percentOctet (octet : UInt8) : List Char :=
  if isUnreserved octet then [Char.ofNat octet.toNat]
  else ['%', capitalDigit (octet.toNat / 16), capitalDigit (octet.toNat % 16)]

def percentEncode (text : String) : String :=
  String.ofList ((octetsOf text).flatMap percentOctet)

/-! ## Decimal digits -/

def digitsValue (digits : List Char) : Nat :=
  digits.foldl (fun value digit => 10 * value + (digit.toNat - '0'.toNat)) 0

/-- The number that one or more ASCII digits, and nothing else, spell. -/
def natural? (characters : List Char) : Option Nat :=
  if characters.isEmpty || !characters.all Char.isDigit then none
  else some (digitsValue characters)

/-- The smallest number that is too large for 64 bits with a sign. -/
def signedLimit : Nat := 9223372036854775808

/-- Digits after at most one plus sign, below two to the power 64. -/
def unsigned64? (text : String) : Option Nat :=
  let digits := match text.toList with
    | '+' :: rest => rest
    | characters => characters
  (natural? digits).filter (· < UInt64.size)

/-- Digits after at most one sign, within the signed 64-bit range. -/
def signed64? (text : String) : Option Int :=
  match text.toList with
  | '-' :: digits => ((natural? digits).filter (· ≤ signedLimit)).map fun size => -(size : Int)
  | '+' :: digits => ((natural? digits).filter (· < signedLimit)).map Int.ofNat
  | digits => ((natural? digits).filter (· < signedLimit)).map Int.ofNat

end NostrCapsule.Text

/-! ## Hexadecimal digits -/

namespace NostrCapsule.Hex

/-- The small hexadecimal digit of a number below sixteen. -/
def digit (value : Nat) : Char :=
  if value < 10 then Char.ofNat ('0'.toNat + value) else Char.ofNat ('a'.toNat + value - 10)

/-- The value of a hexadecimal digit of either case. -/
def digit? (character : Char) : Option Nat :=
  if '0' ≤ character ∧ character ≤ '9' then some (character.toNat - '0'.toNat)
  else if 'a' ≤ character ∧ character ≤ 'f' then some (character.toNat - 'a'.toNat + 10)
  else if 'A' ≤ character ∧ character ≤ 'F' then some (character.toNat - 'A'.toNat + 10)
  else none

def isDigitOctet (octet : UInt8) : Bool :=
  (0x30 ≤ octet && octet ≤ 0x39) || (0x41 ≤ octet && octet ≤ 0x46)
    || (0x61 ≤ octet && octet ≤ 0x66)

/-- Two small digits for each octet. -/
def encode (octets : List UInt8) : List Char :=
  octets.flatMap fun octet => [digit (octet.toNat / 16), digit (octet.toNat % 16)]

def decode : List Char → Option (List UInt8)
  | [] => some []
  | high :: low :: rest => do
      let upper ← digit? high
      let lower ← digit? low
      let octets ← decode rest
      pure (UInt8.ofNat (16 * upper + lower) :: octets)
  | [_] => none

private theorem digit?_digit : ∀ value : Fin 16, digit? (digit value.val) = some value.val := by
  decide

/-- Written octets read back. -/
theorem decode_encode (octets : List UInt8) : decode (encode octets) = some octets := by
  induction octets with
  | nil => rfl
  | cons octet rest inductionHypothesis =>
      have small : octet.toNat < 256 := octet.toNat_lt
      have upper := digit?_digit ⟨octet.toNat / 16, by omega⟩
      have lower := digit?_digit ⟨octet.toNat % 16, by omega⟩
      simp only [encode, List.flatMap_cons, List.cons_append, List.nil_append] at *
      simp only [decode, upper, lower, inductionHypothesis, Option.bind_eq_bind,
        Option.bind_some, Option.pure_def]
      rw [Nat.div_add_mod, UInt8.ofNat_toNat]

end NostrCapsule.Hex
