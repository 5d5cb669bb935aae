import NostrCapsule.Event.Basic
import NostrCapsule.Event.Profile
import NostrCapsule.Identifier.Pointer
import NostrCapsule.Identifier.Spelling
import NostrCapsule.Lookup.Basic
import NostrCapsule.Text.Basic

/-!
Contract: references that were read, and names for the targets of pointers.

A name comes from the event that a store has for the target.  If it has none, or refuses, the
name is made from the pointer alone.

Owns:
- `Entity` and the list of distinct entities;
- the names of authors, events and addresses, each with at most one question to the store.

Does not own: how names are shown.
-/

namespace NostrCapsule

/-- A reference with the name and the path of its target. -/
structure Entity where
  kind : PointerKind
  displayName : String
  linkPath : String
  /-- The reference as it stands in the text; it tells entities apart. -/
  spelling : String
deriving DecidableEq, Repr

namespace Entity

def identifier (entity : Entity) : String :=
  dropScheme entity.spelling

/-- The first entity of each spelling, in order. -/
def distinct (entities : List Entity) : List Entity :=
  distinctBy spelling entities

end Entity

/-! ## Names -/

namespace Naming

def titleLength : Nat := 40

def profile (pubkey : String) : Lookup (Option Profile) := do
  pure ((← Lookup.firstMatch (.byAuthor pubkey .metadata 1)).bind fun event =>
    Profile.ofContent? event.content)

/-- The name of an author with a profile or without: the best of the profile, else the short
form of the key. -/
def nameFromProfile (pubkey : String) (found : Option Profile) : String :=
  (found.bind Profile.bestName?).getD (Text.shortKey pubkey)

def profileName (pubkey : String) : Lookup String := do
  pure (nameFromProfile pubkey (← profile pubkey))

/-- A title with more than white space in it, as it stands. -/
def usableTitle? (event : Event) : Option String :=
  event.title?.filter fun title => !Text.isAllBlank title

/-- The name of an event that a store has: the first line of a text note, else its title. -/
def storedEventName (event : Event) : String :=
  let line? := if event.isKind .textNote then Text.firstLine? event.content else none
  match line? with
  | some line => Text.truncate titleLength "..." line
  | none => (usableTitle? event).getD ("Event " ++ Text.shortId event.id)

def nameFromEvent (id : String) : Option Event → String
  | some event => storedEventName event
  | none => "Note " ++ Text.shortId id

def eventName (id : String) : Lookup String := do
  pure (nameFromEvent id (← Lookup.fetchEvent id))

/-- The question for the event at an address, unless its kind is one that no event can have. -/
def addressFilter? (coordinates : Coordinates) : Option Filter :=
  if coordinates.kind.toNat < UInt16.size then
    some
      { authors := some [coordinates.author.text]
        kinds := some [coordinates.kind.toUInt16]
        tags := [('d', [coordinates.identifier])]
        limit := some 1 }
  else none

/-- The name of an address, with the event found there or none. -/
def nameFromAddress (coordinates : Coordinates) (found : Option Event) : String :=
  let author := Text.shortKey coordinates.author.text
  match found.bind usableTitle? with
  | some title => title
  | none =>
      if coordinates.identifier.isEmpty then "Article by " ++ author
      else if found.isSome then coordinates.identifier
      else coordinates.identifier ++ " by " ++ author

def addressName (coordinates : Coordinates) : Lookup String := do
  match addressFilter? coordinates with
  | none => pure (nameFromAddress coordinates none)
  | some filter => pure (nameFromAddress coordinates (← Lookup.firstMatch filter))

def pointerName : Pointer → Lookup String
  | .pubkey key => profileName key.text
  | .profile key _ => profileName key.text
  | .note id => eventName id.text
  | .event id _ _ _ => eventName id.text
  | .address coordinates _ => addressName coordinates

end Naming

end NostrCapsule
