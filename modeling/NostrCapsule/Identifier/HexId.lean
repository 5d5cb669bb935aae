import NostrCapsule.Text.Hex

/-!
Contract: identifiers of 32 octets, written as 64 hexadecimal digits.

Owns:
- `HexId`, one type for each role, so that a public key is never taken for an event;
- `HexText`, the digits that are kept of an identifier, made from a text, from octets or from an
  identifier, and `HexText.toId`, which reads them back;
- `HexId.ofText?`, which accepts digits of either case, and `HexId.text`, which writes small ones;
- `IdError`, the reasons for a refusal.

Does not own: the bech32 spellings of identifiers.
-/

namespace NostrCapsule

inductive IdRole where
  | publicKey
  | event
deriving DecidableEq, Repr

/-- An identifier of 32 octets. -/
structure HexId (role : IdRole) where
  octets : List UInt8
  length_octets : octets.length = 32
deriving DecidableEq, Repr

abbrev PublicKey := HexId .publicKey

abbrev EventId := HexId .event

inductive IdError where
  | empty
  | wrongLength (actual : Nat)
  | notHex
deriving DecidableEq, Repr

def IdError.message : IdError → String
  | .empty => "id must not be empty"
  | .wrongLength actual => s!"id must be 64 hex chars, got {actual}"
  | .notHex => "id must be hex encoded"

namespace HexId

variable {role : IdRole}

/-- The identifier with the given octets; the refusal counts digits, two for each octet. -/
def ofOctets? (octets : List UInt8) : Except IdError (HexId role) :=
  if length : octets.length = 32 then .ok ⟨octets, length⟩
  else .error (.wrongLength (2 * octets.length))

def zero : HexId role := ⟨List.replicate 32 0, List.length_replicate⟩

end HexId

/-! ## Identifiers kept as text -/

/-- What is kept of an identifier: the text of its digits. -/
structure HexText (role : IdRole) where
  digits : String
deriving DecidableEq, Repr

namespace HexText

variable {role : IdRole}

/-- Refuses a text that is not 64 hexadecimal digits.  Its length is measured in octets, and it is
its octets that have to be digits. -/
def check (text : String) : Except IdError Unit :=
  if text.isEmpty then .error .empty
  else if text.utf8ByteSize ≠ 64 then .error (.wrongLength text.utf8ByteSize)
  else if (Text.octetsOf text).all Hex.isDigitOctet then .ok ()
  else .error .notHex

/-- The digits of a text, in small letters. -/
def ofText? (text : String) : Except IdError (HexText role) :=
  (check text).map fun _ => ⟨text.toLower⟩

def ofId (id : HexId role) : HexText role :=
  ⟨String.ofList (Hex.encode id.octets)⟩

def ofOctets? (octets : List UInt8) : Except IdError (HexText role) :=
  (HexId.ofOctets? octets).map ofId

/-- The identifier that the digits spell.  A text that spells none stands for zero. -/
def toId (kept : HexText role) : HexId role :=
  match Hex.decode kept.digits.toList with
  | none => .zero
  | some octets => if length : octets.length = 32 then ⟨octets, length⟩ else .zero

end HexText

namespace HexId

variable {role : IdRole}

/-- The identifier in 64 small digits. -/
def text (id : HexId role) : String :=
  (HexText.ofId id).digits

def ofText? (text : String) : Except IdError (HexId role) :=
  (HexText.ofText? text).map HexText.toId

end HexId

end NostrCapsule
