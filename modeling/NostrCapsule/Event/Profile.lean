import NostrCapsule.Json.Value
import NostrCapsule.Text.Basic

/-!
Contract: what an author says of themself, kept as JSON in the content of an event.

Owns: `Profile`, its reading, and the name that fits best.

Does not own: which event holds the profile of an author.
-/

namespace NostrCapsule

structure Profile where
  displayName : Option String := none
  displayNameCamel : Option String := none
  name : Option String := none
  nip05 : Option String := none
  about : Option String := none
  website : Option String := none
  lud16 : Option String := none
deriving DecidableEq, Repr

namespace Profile

/-- The names of the fields in JSON; the display name has two spellings. -/
def fieldNames : List String :=
  ["display_name", "displayName", "name", "nip05", "about", "website", "lud16"]

/-- Reads a profile.  Every field is optional, and null stands for a missing one. -/
def ofJson? (json : Json) : Option Profile := do
  let read := Json.optional? none (Json.asOption? Json.asText?)
  match ← (← json.fields? fieldNames).mapM read with
  | [displayName, displayNameCamel, name, nip05, about, website, lud16] =>
      some { displayName, displayNameCamel, name, nip05, about, website, lud16 }
  | _ => none

def ofContent? (content : String) : Option Profile :=
  (Json.parse? content).bind ofJson?

/-- The first name with more than white space in it, trimmed. -/
def bestName? (profile : Profile) : Option String :=
  [profile.displayName, profile.displayNameCamel, profile.name, profile.nip05].findSome?
    fun field => field.bind Text.trimmed?

end Profile

end NostrCapsule
