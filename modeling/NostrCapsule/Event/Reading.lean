import NostrCapsule.Event.Basic
import NostrCapsule.Json.Value
import NostrCapsule.Text.Basic
import NostrCapsule.Text.Hex

/-!
Contract: events read from JSON, alone or one on each line of a file.

Owns: `Event.parse?`, `MemoryStore.eventsOnLines`, and `LoadError`, why a file is not loaded.

Does not own: the store that keeps the events of a file.
-/

namespace NostrCapsule

namespace Event

def fieldNames : List String :=
  ["id", "pubkey", "kind", "created_at", "content", "tags"]

def tagsOfJson? : Json → Option (List (List String)) :=
  Json.asList? (Json.asList? Json.asText?)

/-- Reads an event; content and tags may be missing. -/
def ofJson? (json : Json) : Option Event := do
  match ← json.fields? fieldNames with
  | [id, pubkey, kind, createdAt, content, tags] =>
      let id ← Json.required? Json.asText? id
      let pubkey ← Json.required? Json.asText? pubkey
      let kind ← Json.required? (Json.asNatural? UInt16.size) kind
      let createdAt ← Json.required? Json.asSigned64? createdAt
      let content ← Json.optional? "" Json.asText? content
      let tags ← Json.optional? [] tagsOfJson? tags
      pure { id, pubkey, kind := UInt16.ofNat kind, createdAt, content, tags }
  | _ => none

def parse? (text : String) : Option Event :=
  (Json.parse? text).bind ofJson?

end Event

/-! ## Files of events -/

inductive LoadError where
  | unreadable (detail : String)
  | invalidEvent (line : Nat) (detail : String)
deriving DecidableEq, Repr

namespace LoadError

def message : LoadError → String
  | .unreadable detail => "failed to read events: " ++ detail
  | .invalidEvent line detail => s!"invalid event on line {line}: {detail}"

/-- Whether a refusal passes on an error of the file. -/
def hasCause : LoadError → Bool
  | .unreadable _ => true
  | .invalidEvent _ _ => false

end LoadError

namespace MemoryStore

/-- The event on a line, or none if the line holds white space only.  Lines are counted from
one. -/
def eventOnLine (line : List UInt8) (number : Nat) : Except LoadError (Option Event) :=
  match Text.ofOctets? line with
  | none => .error (.unreadable "a line is not valid UTF-8")
  | some text =>
      if Text.isAllBlank text then .ok none
      else match Event.parse? text with
        | some event => .ok (some event)
        | none => .error (.invalidEvent number "not an event")

def eventsOnLines : List (List UInt8) → Nat → Except LoadError (List Event)
  | [], _ => .ok []
  | line :: rest, number => do
      let event ← eventOnLine line number
      let events ← eventsOnLines rest (number + 1)
      pure (event.toList ++ events)

end MemoryStore

end NostrCapsule
