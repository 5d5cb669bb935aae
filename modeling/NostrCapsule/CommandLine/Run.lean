import NostrCapsule.CommandLine.Options
import NostrCapsule.Page.Document
import NostrCapsule.Store.Loading

/-!
Contract: one run of the command line.

A run is decided by its arguments, the files it may read, standard input and the clock.  It goes
through stages: options, settings, events, relays, page.  The first that fails decides the
outcome.

Owns: `Surroundings`, `run`, and `Outcome` with exit code, output and error text.

Does not own: the reading of files, and the printing.
-/

namespace NostrCapsule.CommandLine

/-- What a path leads to: nothing that can be opened, something that can be opened but not read,
such as a directory, or a file. -/
inductive PathContent where
  | unopened (detail : String)
  | unreadable (detail : String)
  | file (octets : List UInt8)
deriving DecidableEq, Repr

/-- The octets of a file, or why there are none. -/
def PathContent.octets : PathContent → Except String (List UInt8)
  | .unopened detail => .error detail
  | .unreadable detail => .error detail
  | .file octets => .ok octets

/-- What a run finds: what each path leads to, standard input, and the time. -/
structure Surroundings where
  contentAt : String → PathContent
  standardInput : List UInt8
  now : Int

inductive RunError where
  | settings (cause : SettingsError)
  | events (cause : LoadError)
  | file (detail : String)
  | notAnEventId (text : String)
  | notAPubkey (text : String)
deriving DecidableEq, Repr

def RunError.message : RunError → String
  | .settings cause => cause.message
  | .events cause => cause.message
  | .file detail => detail
  | .notAnEventId text => "not an event id: " ++ text
  | .notAPubkey text => "not a pubkey: " ++ text

/-- How a run ends. -/
inductive Outcome where
  | page (text : String)
  | failure (error : RunError)
  | usage
deriving DecidableEq, Repr

/-- The settings of a run.  A width among the arguments goes before that of the file. -/
def loadSettings (surroundings : Surroundings) (options : Options) :
    Except RunError Settings := do
  let settings ← match options.config with
    | none => pure {}
    | some path =>
        match (surroundings.contentAt path).octets with
        | .error detail => throw (.settings (.unreadable detail))
        | .ok octets =>
            match Text.ofOctets? octets with
            | none => throw (.settings (.unreadable "the file is not valid UTF-8"))
            | some text => (Settings.parse text).mapError .settings
  pure { settings with lineWidth := options.width.getD settings.lineWidth }

/-- The store of a run, without relays.  A file that opens fails as a file of events, if it
does. -/
def loadEvents (surroundings : Surroundings) (options : Options) :
    Except RunError MemoryStore :=
  match options.events with
  | none => pure .empty
  | some path =>
      match surroundings.contentAt path with
      | .unopened detail => throw (.file detail)
      | .unreadable detail => throw (.events (.unreadable detail))
      | .file octets => (MemoryStore.ofLines octets).mapError .events

def parseRelays? (octets : List UInt8) : Option (List (String × List String)) := do
  let text ← Text.ofOctets? octets
  let json ← Json.parse? text
  json.asMap? (Json.asList? Json.asText?)

def loadRelays (surroundings : Surroundings) (options : Options) (store : MemoryStore) :
    Except RunError MemoryStore :=
  match options.relays with
  | none => pure store
  | some path =>
      match (surroundings.contentAt path).octets with
      | .error detail => throw (.file detail)
      | .ok octets =>
          match parseRelays? octets with
          | none => throw (.file "not a map from keys to lists of relays")
          | some entries =>
              pure (entries.foldl (fun store entry => store.setReadRelays entry.1 entry.2) store)

def makePage (surroundings : Surroundings) (edition : Edition) (request : PageRequest) :
    Except RunError (Lookup String) :=
  match request with
  | .note text =>
      match spelledEvent? text with
      | some id => pure (edition.notePage id.text)
      | none => throw (.notAnEventId text)
  | .profile text =>
      match spelledKey? text with
      | some key => pure (edition.profilePage key.text)
      | none => throw (.notAPubkey text)
  | .thread text =>
      match spelledEvent? text with
      | some id => pure (edition.threadPage id.text)
      | none => throw (.notAnEventId text)
  | .expand =>
      match Text.ofOctets? surroundings.standardInput with
      | some text => pure (edition.textPage text)
      | none => throw (.file "standard input is not valid UTF-8")

/-- The page of a run with options. -/
def runOptions (surroundings : Surroundings) (options : Options) : Except RunError String := do
  let settings ← loadSettings surroundings options
  let events ← loadEvents surroundings options
  let store ← loadRelays surroundings options events
  let page ← makePage surroundings { settings, now := surroundings.now } options.page
  pure (page.answer (store.answers .background))

def run (surroundings : Surroundings) (arguments : List String) : Outcome :=
  match Options.parse? arguments with
  | none => .usage
  | some options =>
      match runOptions surroundings options with
      | .ok text => .page text
      | .error error => .failure error

def programName : String := "gemstr"

def usageText (program : String) : String :=
  "Usage:\n  " ++ program ++ " [--events <file.jsonl>] [--relays <file.json>]"
    ++ " [--config <file.json>] [--width <n>] --note <id>\n  "
    ++ program ++ " [...] --profile <pubkey>\n  "
    ++ program ++ " [...] --thread <id>\n  "
    ++ program ++ " [...] --expand < text\n\n"
    ++ "--events loads one JSON event per line.\n"
    ++ "--relays maps hex pubkeys to read relay URLs (\x7b\"<pubkey>\": [\"wss://...\"]\x7d).\n"
    ++ "--width overrides the configured line width (0 or less disables wrapping).\n\n"
    ++ "Ids accept hex, note/nevent and nostr: forms; pubkeys accept hex, npub and nprofile.\n"
    ++ "Set RUST_LOG (e.g. RUST_LOG=gemstr=debug) for diagnostics on stderr.\n"

namespace Outcome

def exitCode : Outcome → Nat
  | .page _ => 0
  | .failure _ => 1
  | .usage => 2

def standardOutput : Outcome → String
  | .page text => text ++ "\n"
  | .failure _ => ""
  | .usage => ""

/-- What goes to standard error; the usage text names the program as it was called. -/
def standardError (program : String) : Outcome → String
  | .page _ => ""
  | .failure error => programName ++ ": " ++ error.message ++ "\n"
  | .usage => usageText program

end Outcome

end NostrCapsule.CommandLine
