import NostrCapsule.Identifier.Pointer
import NostrCapsule.Text.Hex

/-!
Contract: the tagged entries that a token's octets consist of.

An entry is a tag, the number of octets of its value, and the value.  Four tags are known; of
three of them only the first entry counts, and entries with other tags are passed over.

Owns:
- `Entry` and `writeEntries`;
- `Fields`, what the entries of a payload say, and `Fields.ofOctets?`, which reads them one by one;
- `TokenError`, the refusals of the token form.

Does not own: which fields a kind of pointer needs.
-/

namespace NostrCapsule

/-- Parts of a pointer, as refusals name them. -/
inductive TokenField where
  | pubkey
  | eventId
  | identifier
  | author
  | kind
deriving DecidableEq, Repr

def TokenField.name : TokenField → String
  | .pubkey => "pubkey"
  | .eventId => "event id"
  | .identifier => "identifier"
  | .author => "author"
  | .kind => "kind"

inductive EncodeFault where
  | valueTooLong (octets : Nat)
  | invalidId (cause : IdError)
  | text (detail : String)
deriving DecidableEq, Repr

def EncodeFault.message : EncodeFault → String
  | .valueTooLong octets => s!"TLV value of {octets} bytes"
  | .invalidId cause => cause.message
  | .text detail => detail

inductive TokenError where
  | bech32 (detail : String)
  | unsupportedPrefix (name : String)
  | missingField (field : TokenField)
  | wrongLength (field : TokenField) (expected actual : Nat)
  | malformedPayload
  | invalidUtf8 (field : TokenField)
  | encode (fault : EncodeFault)
deriving DecidableEq, Repr

def TokenError.message : TokenError → String
  | .bech32 detail => "invalid bech32: " ++ detail
  | .unsupportedPrefix name => s!"unsupported identifier prefix '{name}'"
  | .missingField field => "identifier is missing " ++ field.name
  | .wrongLength field expected actual =>
      s!"{field.name} must be {expected} bytes, got {actual}"
  | .malformedPayload => "truncated TLV payload"
  | .invalidUtf8 field => field.name ++ " is not valid UTF-8"
  | .encode fault => "cannot encode identifier: " ++ fault.message

namespace Payload

structure Entry where
  tag : UInt8
  value : List UInt8
deriving DecidableEq, Repr

/-- The tag of what the pointer is to: a key, an event or an identifier. -/
def specialTag : UInt8 := 0

def relayTag : UInt8 := 1

def authorTag : UInt8 := 2

def kindTag : UInt8 := 3

def valueLimit : Nat := 255

/-- An entry as octets; its value must have a size that one octet can hold. -/
def Entry.write (entry : Entry) : Except TokenError (List UInt8) :=
  if entry.value.length ≤ valueLimit then
    .ok (entry.tag :: UInt8.ofNat entry.value.length :: entry.value)
  else .error (.encode (.valueTooLong entry.value.length))

/-- Entries as octets, one after the other; the first that cannot be written is reported. -/
def writeEntries : List Entry → Except TokenError (List UInt8)
  | [] => .ok []
  | entry :: rest => do
      let octets ← entry.write
      let remaining ← writeEntries rest
      pure (octets ++ remaining)

/-- A 32-bit number as four octets, the most significant first. -/
def wordOctets (word : UInt32) : List UInt8 :=
  [24, 16, 8, 0].map fun place => UInt8.ofNat (word.toNat >>> place)

/-- The 32-bit number that four octets spell, the most significant first. -/
def word? : List UInt8 → Option UInt32
  | [a, b, c, d] =>
      some (UInt32.ofNat (((a.toNat * 256 + b.toNat) * 256 + c.toNat) * 256 + d.toNat))
  | _ => none

/-- What the entries of a payload say. -/
structure Fields where
  special : Option (List UInt8)
  relays : List String
  author : Option (List UInt8)
  kind : Option UInt32
deriving DecidableEq, Repr

namespace Fields

def empty : Fields where
  special := none
  relays := []
  author := none
  kind := none

/-- Takes one more entry in.  Of the tags that name a single field the first entry counts; a relay
that is not UTF-8 is passed over, and so are entries with other tags. -/
def add (fields : Fields) (entry : Entry) : Except TokenError Fields :=
  if entry.tag = specialTag ∧ fields.special = none then
    .ok { fields with special := some entry.value }
  else if entry.tag = relayTag then
    .ok { fields with relays := fields.relays ++ (Text.ofOctets? entry.value).toList }
  else if entry.tag = authorTag ∧ fields.author = none then
    .ok { fields with author := some entry.value }
  else if entry.tag = kindTag ∧ fields.kind = none then
    match word? entry.value with
    | some word => .ok { fields with kind := some word }
    | none => .error (.wrongLength .kind 4 entry.value.length)
  else .ok fields

/-- Reads on with the fields of the entries before, entry by entry, until nothing is left.  Octets
that form no entry are refused where they stand. -/
def readFrom (fields : Fields) : List UInt8 → Except TokenError Fields
  | [] => .ok fields
  | tag :: size :: rest =>
      if size.toNat ≤ rest.length then
        match fields.add ⟨tag, rest.take size.toNat⟩ with
        | .ok later => later.readFrom (rest.drop size.toNat)
        | .error refusal => .error refusal
      else .error .malformedPayload
  | [_] => .error .malformedPayload
termination_by octets => octets.length
decreasing_by
  simp only [List.length_drop, List.length_cons]
  omega

def ofOctets? (octets : List UInt8) : Except TokenError Fields :=
  empty.readFrom octets

end Fields

end Payload

end NostrCapsule
