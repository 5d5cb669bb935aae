import NostrCapsule.Identifier.HexId
import NostrCapsule.Text.Hex

/-!
Contract: the five kinds of pointer that text can carry.

Owns:
- `PointerKind` with its token prefix and its label;
- `Pointer`, and `Coordinates` for what an address names;
- the path at which a pointer's target is found.

Does not own: the token form of a pointer.
-/

namespace NostrCapsule

inductive PointerKind where
  | pubkey
  | profile
  | note
  | event
  | address
deriving DecidableEq, Repr

namespace PointerKind

def all : List PointerKind := [.pubkey, .profile, .note, .event, .address]

def tokenPrefix : PointerKind → String
  | .pubkey => "npub"
  | .profile => "nprofile"
  | .note => "note"
  | .event => "nevent"
  | .address => "naddr"

def ofPrefix? (name : String) : Option PointerKind :=
  all.find? fun kind => kind.tokenPrefix == name

/-- The name of a kind in records. -/
def label : PointerKind → String
  | .pubkey => "pubkey"
  | .profile => "profile"
  | .note => "note"
  | .event => "event"
  | .address => "parameterized"

/-- Prefixes tell the kinds apart. -/
theorem ofPrefix?_tokenPrefix (kind : PointerKind) :
    ofPrefix? kind.tokenPrefix = some kind := by
  cases kind <;> rfl

end PointerKind

/-- What names a replaceable event: its kind, its author and its identifier among those. -/
structure Coordinates where
  kind : UInt32
  author : PublicKey
  identifier : String
deriving DecidableEq, Repr

/-- A pointer to an author, an event or an address, with relays that may know it. -/
inductive Pointer where
  | pubkey (key : PublicKey)
  | profile (key : PublicKey) (relays : List String)
  | note (id : EventId)
  | event (id : EventId) (relays : List String) (author : Option PublicKey) (kind : Option UInt32)
  | address (coordinates : Coordinates) (relays : List String)
deriving DecidableEq, Repr

namespace Pointer

def kind : Pointer → PointerKind
  | .pubkey _ => .pubkey
  | .profile _ _ => .profile
  | .note _ => .note
  | .event _ _ _ _ => .event
  | .address _ _ => .address

def relays : Pointer → List String
  | .pubkey _ => []
  | .profile _ relays => relays
  | .note _ => []
  | .event _ relays _ _ => relays
  | .address _ relays => relays

def profilePath (key : String) : String := "/profile/" ++ key

def notePath (id : String) : String := "/note/" ++ id

/-- The path of an address: kind, author, and the identifier as one percent-encoded segment. -/
def addressPath (coordinates : Coordinates) : String :=
  "/addr/" ++ toString coordinates.kind.toNat ++ "/" ++ coordinates.author.text ++ "/"
    ++ Text.percentEncode coordinates.identifier

/-- The path at which the target of a pointer is found. -/
def linkPath : Pointer → String
  | .pubkey key => profilePath key.text
  | .profile key _ => profilePath key.text
  | .note id => notePath id.text
  | .event id _ _ _ => notePath id.text
  | .address coordinates _ => addressPath coordinates

end Pointer

end NostrCapsule
