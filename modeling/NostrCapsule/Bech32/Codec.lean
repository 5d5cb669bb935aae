/-!
Contract: the text form of a prefix with octets.

A text is a prefix, the separator `1`, and letters for the quintets of the octets and of the
checksum.  It has at most 1023 characters.  Reading takes capital or small letters, not both, and
returns the prefix in small letters.

Bits run from the most significant on.  Octets are filled up with zero bits to a whole number of
quintets; in the other direction fewer than eight bits at the end are dropped, whatever they are.
The checksum is a code over the field with 32 elements, kept as a register of six quintets.  A
sequence is valid if the register ends at the constant of one of the two variants.

Owns:
- `Quintet`, its letter, and the regrouping of bits;
- the register, its constants, `checksum` and `isValid`;
- `encode`, `decode`, and the causes for which they refuse.

Does not own: the prefixes in use and the meaning of the octets.
-/

namespace NostrCapsule.Bech32

/-! ## Quintets -/

abbrev Quintet := Fin 32

def lowQuintet (value : Nat) : Quintet := Fin.ofNat 32 value

def alphabet : List Char :=
  ['q', 'p', 'z', 'r', 'y', '9', 'x', '8', 'g', 'f', '2', 't', 'v', 'd', 'w', '0',
   's', '3', 'j', 'n', '5', '4', 'k', 'h', 'c', 'e', '6', 'm', 'u', 'a', '7', 'l']

def letter (quintet : Quintet) : Char :=
  alphabet.getD quintet.val 'q'

def quintet? (character : Char) : Option Quintet :=
  (List.finRange 32).find? fun quintet => letter quintet == character

/-- Each letter reads back as its quintet. -/
theorem quintet?_letter : ∀ quintet : Quintet, quintet? (letter quintet) = some quintet := by
  decide

/-- The number that bits spell, the most significant first. -/
def bitsValue (bits : List Bool) : Nat :=
  bits.foldl (fun value bit => 2 * value + bit.toNat) 0

def quintetBits (quintet : Quintet) : List Bool :=
  [4, 3, 2, 1, 0].map quintet.val.testBit

def octetBits (octet : UInt8) : List Bool :=
  [7, 6, 5, 4, 3, 2, 1, 0].map octet.toNat.testBit

/-- Five bits at a time; the last group is filled up with zeros. -/
def groupQuintets : List Bool → List Quintet
  | [] => []
  | a :: b :: c :: d :: e :: rest =>
      lowQuintet (bitsValue [a, b, c, d, e]) :: groupQuintets rest
  | short => [lowQuintet (bitsValue (short ++ List.replicate (5 - short.length) false))]

/-- Eight bits at a time; a shorter rest is dropped. -/
def groupOctets : List Bool → List UInt8
  | a :: b :: c :: d :: e :: f :: g :: h :: rest =>
      UInt8.ofNat (bitsValue [a, b, c, d, e, f, g, h]) :: groupOctets rest
  | _ => []

/-- The quintets that carry the given octets. -/
def quintetsOfOctets (octets : List UInt8) : List Quintet :=
  groupQuintets (octets.flatMap octetBits)

/-- The whole octets that the given quintets carry. -/
def octetsOfQuintets (quintets : List Quintet) : List UInt8 :=
  groupOctets (quintets.flatMap quintetBits)

/-! ## The checksum -/

/-- Six quintets, the oldest in the highest bits. -/
abbrev Register := BitVec 30

/-- What the quintet that leaves the register adds to it, bit by bit. -/
def feedback (register : Register) : Register :=
  (if register.getLsbD 25 then 0x3b6a57b2#30 else 0) ^^^
  (if register.getLsbD 26 then 0x26508e6d#30 else 0) ^^^
  (if register.getLsbD 27 then 0x1ea119fa#30 else 0) ^^^
  (if register.getLsbD 28 then 0x3d4233dd#30 else 0) ^^^
  (if register.getLsbD 29 then 0x2a1462b3#30 else 0)

def feed (register : Register) (quintet : Quintet) : Register :=
  (register <<< 5) ^^^ BitVec.ofNat 30 quintet.val ^^^ feedback register

def feedAll (register : Register) (quintets : List Quintet) : Register :=
  quintets.foldl feed register

/-- A prefix as quintets: the high bits of its characters, a zero, and their low bits. -/
def expandPrefix (characters : List Char) : List Quintet :=
  characters.map (fun character => lowQuintet (character.toNat / 32))
    ++ lowQuintet 0 :: characters.map (fun character => lowQuintet character.toNat)

/-- The constant of the first variant, which is also the one written. -/
def plainTarget : Register := 1

/-- The constant of the second variant. -/
def modifiedTarget : Register := 0x2bc830a3

def residue (characters : List Char) (quintets : List Quintet) : Register :=
  feedAll 1 (expandPrefix characters ++ quintets)

/-- The six quintets of a register, the oldest first. -/
def registerQuintets (register : Register) : List Quintet :=
  [25, 20, 15, 10, 5, 0].map fun place => lowQuintet (register.toNat >>> place)

/-- The quintets that complete a prefix and quintets to a valid sequence of the first variant. -/
def checksum (characters : List Char) (quintets : List Quintet) : List Quintet :=
  registerQuintets (residue characters (quintets ++ List.replicate 6 (lowQuintet 0)) ^^^ plainTarget)

/-- Whether a prefix and quintets, checksum included, are valid in one of the two variants. -/
def isValid (characters : List Char) (quintets : List Quintet) : Bool :=
  let final := residue characters quintets
  final == plainTarget || final == modifiedTarget

/-! ## The text form -/

def lengthLimit : Nat := 1023

/-- Why a text is not read, or octets are not written. -/
inductive Fault where
  | tooLong
  | mixedCase
  | noSeparator
  | invalidPrefix
  | invalidLetter
  | missingChecksum
  | wrongChecksum
deriving DecidableEq, Repr

def Fault.message : Fault → String
  | .tooLong => "more than 1023 characters"
  | .mixedCase => "capital and small letters are mixed"
  | .noSeparator => "there is no separator"
  | .invalidPrefix => "the prefix is not valid"
  | .invalidLetter => "a character is outside the alphabet"
  | .missingChecksum => "the checksum is incomplete"
  | .wrongChecksum => "the checksum does not match"

/-- A prefix has 1 to 83 printable ASCII characters other than the space. -/
def isPrefix (characters : List Char) : Bool :=
  !characters.isEmpty && characters.length ≤ 83
    && characters.all fun character => 33 ≤ character.toNat && character.toNat ≤ 126

/-- Cuts at the last separator. -/
def splitSeparator (characters : List Char) : Option (List Char × List Char) :=
  let body := characters.reverse.takeWhile (· != '1')
  match characters.reverse.dropWhile (· != '1') with
  | [] => none
  | _ :: front => some (front.reverse, body.reverse)

def isMixedCase (characters : List Char) : Bool :=
  characters.any Char.isLower && characters.any Char.isUpper

/-- The text of a prefix in small letters and octets. -/
def encodeChars (front : List Char) (octets : List UInt8) : List Char :=
  let quintets := quintetsOfOctets octets
  front ++ '1' :: (quintets ++ checksum front quintets).map letter

/-- The text of a prefix in small letters and octets, unless it would be too long. -/
def encode (front : String) (octets : List UInt8) : Except Fault String :=
  let characters := encodeChars front.toList octets
  if characters.length ≤ lengthLimit then .ok (String.ofList characters) else .error .tooLong

def decodeChars (characters : List Char) : Except Fault (List Char × List UInt8) :=
  if lengthLimit < characters.length then .error .tooLong
  else if isMixedCase characters then .error .mixedCase
  else match splitSeparator (characters.map Char.toLower) with
    | none => .error .noSeparator
    | some (front, body) =>
        if !isPrefix front then .error .invalidPrefix
        else match body.mapM quintet? with
          | none => .error .invalidLetter
          | some quintets =>
              if quintets.length < 6 then .error .missingChecksum
              else if isValid front quintets then
                .ok (front, octetsOfQuintets (quintets.take (quintets.length - 6)))
              else .error .wrongChecksum

def decode (text : String) : Except Fault (String × List UInt8) :=
  (decodeChars text.toList).map fun (front, octets) => (String.ofList front, octets)

end NostrCapsule.Bech32
