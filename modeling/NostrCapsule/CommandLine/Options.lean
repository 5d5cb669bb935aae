import NostrCapsule.Text.Hex

/-!
Contract: the arguments of the command line.

Arguments are read in groups, each an option with its value.  Every source and the width may be
given once, in any place; exactly one page must be asked for.

Owns:
- `Group` with its spelling and reading;
- `Draft`, which takes groups in from left to right;
- `Options.parse?`.

Does not own: what is done with options.
-/

namespace NostrCapsule.CommandLine

inductive PageRequest where
  | note (id : String)
  | profile (pubkey : String)
  | thread (id : String)
  | expand
deriving DecidableEq, Repr

/-- An option with its value. -/
inductive Group where
  | events (path : String)
  | relays (path : String)
  | config (path : String)
  | width (text : String) (value : Int)
  | page (request : PageRequest)
deriving DecidableEq, Repr

structure Options where
  events : Option String
  relays : Option String
  config : Option String
  width : Option Nat
  page : PageRequest
deriving DecidableEq, Repr

namespace Group

/-- The arguments that spell a group. -/
def arguments : Group → List String
  | .events path => ["--events", path]
  | .relays path => ["--relays", path]
  | .config path => ["--config", path]
  | .width text _ => ["--width", text]
  | .page (.note id) => ["--note", id]
  | .page (.profile pubkey) => ["--profile", pubkey]
  | .page (.thread id) => ["--thread", id]
  | .page .expand => ["--expand"]

def ofValue? (option value : String) : Option Group :=
  match option with
  | "--events" => some (.events value)
  | "--relays" => some (.relays value)
  | "--config" => some (.config value)
  | "--width" => (Text.signed64? value).map (.width value)
  | "--note" => some (.page (.note value))
  | "--profile" => some (.page (.profile value))
  | "--thread" => some (.page (.thread value))
  | _ => none

end Group

/-- Fills a place that is still empty. -/
def fillOnce {α : Type} : Option α → α → Option (Option α)
  | none, value => some (some value)
  | some _, _ => none

/-- Options while arguments are read; the page may still be missing. -/
structure Draft where
  events : Option String := none
  relays : Option String := none
  config : Option String := none
  width : Option Nat := none
  page : Option PageRequest := none
deriving DecidableEq, Repr

namespace Draft

/-- Takes a group in, unless another one has its place.  A negative width counts as zero. -/
def add? (draft : Draft) : Group → Option Draft
  | .events path => do pure { draft with events := ← fillOnce draft.events path }
  | .relays path => do pure { draft with relays := ← fillOnce draft.relays path }
  | .config path => do pure { draft with config := ← fillOnce draft.config path }
  | .width _ value => do pure { draft with width := ← fillOnce draft.width value.toNat }
  | .page request => do pure { draft with page := ← fillOnce draft.page request }

/-- Reads arguments from left to right, up to the first that is out of place. -/
def read? (draft : Draft) : List String → Option Draft
  | [] => some draft
  | "--expand" :: rest => do (← draft.add? (.page .expand)).read? rest
  | option :: value :: rest => do
      (← draft.add? (← Group.ofValue? option value)).read? rest
  | [_] => none

def options? (draft : Draft) : Option Options :=
  draft.page.map fun page =>
    { events := draft.events, relays := draft.relays, config := draft.config
      width := draft.width, page }

end Draft

def Options.parse? (arguments : List String) : Option Options :=
  (({} : Draft).read? arguments).bind Draft.options?

end NostrCapsule.CommandLine
