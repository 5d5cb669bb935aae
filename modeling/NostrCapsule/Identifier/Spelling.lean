import NostrCapsule.Bech32.Codec
import NostrCapsule.Identifier.Payload
import NostrCapsule.Text.Basic

/-!
Contract: the written forms of pointers and identifiers.

White space around an identifier and the scheme in front of it do not matter; what remains is
hexadecimal digits or a token of a fitting kind.

Owns:
- `Pointer.toToken`, which writes the one canonical token of a pointer, and `Pointer.ofToken`, which
  reads any token of the five kinds;
- `keyToken` for keys given as text;
- the scheme, and `PublicKey` and `EventId` from any spelling.

Does not own: the entries of a payload, and references inside running text.
-/

namespace NostrCapsule

/-! ## Tokens -/

section Tokens

open Payload

namespace Pointer

def idOfOctets {role : IdRole} (field : TokenField) (octets : List UInt8) :
    Except TokenError (HexId role) :=
  match HexId.ofOctets? octets with
  | .ok id => .ok id
  | .error _ => .error (.wrongLength field 32 octets.length)

def required {α : Type} (field : TokenField) : Option α → Except TokenError α
  | some value => .ok value
  | none => .error (.missingField field)

/-- An address from its fields.  The identifier is looked at first, then the presence of author
and kind, then the author itself. -/
def addressOfFields (fields : Fields) : Except TokenError Pointer := do
  let special ← required .identifier fields.special
  let identifier ← match Text.ofOctets? special with
    | some text => .ok text
    | none => .error (.invalidUtf8 .identifier)
  let authorOctets ← required .author fields.author
  let kind ← required .kind fields.kind
  let author ← idOfOctets .author authorOctets
  pure (.address { kind, author, identifier } fields.relays)

def eventOfFields (fields : Fields) : Except TokenError Pointer := do
  let special ← required .eventId fields.special
  let id ← idOfOctets .eventId special
  match fields.author with
  | none => pure (.event id fields.relays none fields.kind)
  | some octets =>
      let author ← idOfOctets .author octets
      pure (.event id fields.relays (some author) fields.kind)

def profileOfFields (fields : Fields) : Except TokenError Pointer := do
  let special ← required .pubkey fields.special
  let key ← idOfOctets .pubkey special
  pure (.profile key fields.relays)

def ofOctets? : PointerKind → List UInt8 → Except TokenError Pointer
  | .pubkey, octets => (idOfOctets .pubkey octets).map .pubkey
  | .note, octets => (idOfOctets .eventId octets).map .note
  | .profile, octets => Fields.ofOctets? octets >>= profileOfFields
  | .event, octets => Fields.ofOctets? octets >>= eventOfFields
  | .address, octets => Fields.ofOctets? octets >>= addressOfFields

def ofToken (token : String) : Except TokenError Pointer :=
  match Bech32.decode token with
  | .error fault => .error (.bech32 fault.message)
  | .ok (name, octets) =>
      match PointerKind.ofPrefix? name with
      | none => .error (.unsupportedPrefix name)
      | some kind => ofOctets? kind octets

def relayEntries (relays : List String) : List Entry :=
  relays.map fun relay => ⟨relayTag, Text.octetsOf relay⟩

/-- The octets of a pointer's token.  Entries come in the order special, relays, author, kind. -/
def toOctets : Pointer → Except TokenError (List UInt8)
  | .pubkey key => .ok key.octets
  | .note id => .ok id.octets
  | .profile key relays => writeEntries (⟨specialTag, key.octets⟩ :: relayEntries relays)
  | .event id relays author kind =>
      writeEntries (⟨specialTag, id.octets⟩ :: relayEntries relays
        ++ (author.map fun key => (⟨authorTag, key.octets⟩ : Entry)).toList
        ++ (kind.map fun word => (⟨kindTag, wordOctets word⟩ : Entry)).toList)
  | .address coordinates relays =>
      writeEntries (⟨specialTag, Text.octetsOf coordinates.identifier⟩ :: relayEntries relays
        ++ [⟨authorTag, coordinates.author.octets⟩, ⟨kindTag, wordOctets coordinates.kind⟩])

/-- Writes the canonical token of a pointer. -/
def toToken (pointer : Pointer) : Except TokenError String := do
  let octets ← pointer.toOctets
  match Bech32.encode pointer.kind.tokenPrefix octets with
  | .ok token => .ok token
  | .error fault => .error (.encode (.text fault.message))

end Pointer

def keyToken (key : String) : Except TokenError String :=
  match (HexId.ofText? key : Except IdError PublicKey) with
  | .ok id => (Pointer.pubkey id).toToken
  | .error cause => .error (.encode (.invalidId cause))

end Tokens

/-! ## Spellings -/

def scheme : String := "nostr:"

/-- A text without the scheme, if it begins with it. -/
def dropScheme (text : String) : String :=
  match Text.afterPrefix? scheme.toList text.toList with
  | some rest => String.ofList rest
  | none => text

theorem dropScheme_scheme_append (text : String) : dropScheme (scheme ++ text) = text := by
  rw [dropScheme, String.toList_append, Text.afterPrefix?_append]
  exact String.ofList_toList

namespace Pointer

def targetKey? : Pointer → Option PublicKey
  | .pubkey key => some key
  | .profile key _ => some key
  | _ => none

def targetEvent? : Pointer → Option EventId
  | .note id => some id
  | .event id _ _ _ => some id
  | _ => none

end Pointer

/-- An identifier in digits, or the target of a token. -/
def spelledId? {role : IdRole} (target : Pointer → Option (HexId role)) (input : String) :
    Option (HexId role) :=
  let spelling := dropScheme (Text.trim input)
  match HexId.ofText? spelling with
  | .ok id => some id
  | .error _ => (Pointer.ofToken spelling).toOption.bind target

def spelledKey? (input : String) : Option PublicKey :=
  spelledId? Pointer.targetKey? input

def spelledEvent? (input : String) : Option EventId :=
  spelledId? Pointer.targetEvent? input

end NostrCapsule
