import NostrCapsule.Lookup.Basic
import NostrCapsule.Reference.Naming
import NostrCapsule.Settings
import NostrCapsule.Text.Basic

/-!
Contract: link lines, and links to web viewers.

A portal is the address of a web viewer.  An identifier appended to it leads to what the
identifier points to.

Owns:
- `linkLine` and `PortalLink`;
- the identifier that is made for an event, with relays of its author as hints;
- the link lines of an event, of which there is always at least one.

Does not own: which links a page has.
-/

namespace NostrCapsule

/-- A link line: the mark, the address, and the label unless it is empty. -/
def linkLine (url label : String) : String :=
  if label.isEmpty then "=> " ++ url else "=> " ++ url ++ " " ++ label

structure PortalLink where
  url : String
  label : String
deriving DecidableEq, Repr

namespace PortalLink

def line (link : PortalLink) : String :=
  linkLine link.url link.label

/-- What follows the first `://` among characters, if there is one. -/
def afterScheme? : List Char → Option (List Char)
  | [] => none
  | ':' :: '/' :: '/' :: rest => some rest
  | _ :: rest => afterScheme? rest

/-- The host in the address of a portal; without a host, the whole address. -/
def host (base : String) : String :=
  let rest := (afterScheme? base.toList).getD base.toList
  let name := rest.takeWhile (· != '/')
  if name.isEmpty then base else String.ofList name

def withSlash (base : String) : String :=
  if base.toList.getLast? = some '/' then base else base ++ "/"

def ofPortal (identifier base : String) : PortalLink where
  url := withSlash base ++ identifier
  label := "View on " ++ host base

/-- The links of an identifier, one for each portal that is not blank. -/
def ofPortals (identifier : String) (portals : List String) : List PortalLink :=
  (portals.filterMap Text.trimmed?).map (ofPortal identifier)

def ofEntity (entity : Entity) (portals : List String) : List PortalLink :=
  ofPortals entity.identifier portals

end PortalLink

namespace Event

def addressPointer? (event : Event) (relays : List String) : Option Pointer :=
  if event.isKind .longForm then do
    let identifier ← event.identifier?
    let author ← (HexId.ofText? event.pubkey).toOption
    pure (.address { kind := event.kind.toUInt32, author, identifier } relays)
  else none

def eventPointer? (event : Event) (relays : List String) : Option Pointer := do
  let id ← (HexId.ofText? event.id).toOption
  pure (.event id relays (HexId.ofText? event.pubkey).toOption (some event.kind.toUInt32))

/-- The token of an event with the given relays: that of its address, else that of the event
itself. -/
def tokenWith? (event : Event) (relays : List String) : Option String :=
  ((event.addressPointer? relays).bind fun pointer => pointer.toToken.toOption)
    <|> (event.eventPointer? relays).bind fun pointer => pointer.toToken.toOption

/-- The identifier that is made for an event, with at most so many read relays of its author. -/
def portalIdentifier (event : Event) (hintLimit : Nat) : Lookup (Option String) := do
  let relays ← Lookup.relaysOf event.pubkey
  pure (event.tokenWith? (relays.take hintLimit))

/-- The links of an event to portals.  Without portals nothing is asked. -/
def portalLinks (event : Event) (portals : List String) (hintLimit : Nat) :
    Lookup (List PortalLink) := do
  if portals.isEmpty then pure []
  else
    match ← event.portalIdentifier hintLimit with
    | some identifier => pure (PortalLink.ofPortals identifier portals)
    | none => pure []

def ownLink (event : Event) : String :=
  linkLine (Pointer.notePath event.id) "View note"

/-- The link lines of an event: those to portals, or else the one to its own page. -/
def linkLines (event : Event) (settings : Settings) : Lookup (List String) := do
  let links ← event.portalLinks settings.portals settings.relayHintLimit
  if links.isEmpty then pure [event.ownLink] else pure (links.map PortalLink.line)

end Event

end NostrCapsule
