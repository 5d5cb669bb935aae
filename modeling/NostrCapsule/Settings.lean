import NostrCapsule.Json.Value

/-!
Contract: how pages are written.

Owns: `Settings` with its defaults, its reading from JSON, and `SettingsError`.

Does not own: the file that holds settings.
-/

namespace NostrCapsule

/-- The depth to which threads are shown if none is set. -/
def defaultThreadDepth : Nat := 10

structure Settings where
  /-- The addresses of web viewers, to which an identifier is appended. -/
  portals : List String := ["https://njump.me/"]
  /-- What stands in front of a reply once for each level of its depth. -/
  threadIndent : String := "  "
  /-- The depth at which replies are hidden; zero means the default. -/
  maxThreadDepth : Nat := defaultThreadDepth
  /-- The most characters of a summary. -/
  summaryLength : Nat := 100
  /-- What follows a summary that was cut. -/
  summaryEllipsis : String := "..."
  /-- The width to which prose is reflowed; zero means that it is not. -/
  lineWidth : Nat := 0
  /-- The most relays in an identifier that is made for an event. -/
  relayHintLimit : Nat := 3
deriving DecidableEq, Repr

/-- The depth that a number sets, in which zero stands for the default. -/
def effectiveDepth (depth : Nat) : Nat :=
  if depth = 0 then defaultThreadDepth else depth

inductive SettingsError where
  | unreadable (detail : String)
  | invalid (detail : String)
deriving DecidableEq, Repr

namespace SettingsError

def message : SettingsError → String
  | .unreadable detail => "failed to read config: " ++ detail
  | .invalid detail => "invalid config: " ++ detail

/-- Whether a refusal passes on an error of the file. -/
def hasCause : SettingsError → Bool
  | .unreadable _ => true
  | .invalid _ => false

end SettingsError

namespace Settings

/-- The depth at which replies are hidden. -/
def effectiveMaxDepth (settings : Settings) : Nat :=
  effectiveDepth settings.maxThreadDepth

def fieldNames : List String :=
  ["portals", "thread_indent", "max_thread_depth", "summary_length", "summary_ellipsis",
   "line_width", "relay_hint_limit"]

/-- A signed number in which a negative one stands for zero. -/
def nonNegative? (json : Json) : Option Nat :=
  json.asSigned64?.map Int.toNat

/-- Reads settings; a missing field has its default. -/
def ofJson? (json : Json) : Option Settings := do
  let base : Settings := {}
  let size? := Json.asNatural? UInt64.size
  match ← json.fields? fieldNames with
  | [portals, indent, depth, length, ellipsis, width, hints] =>
      pure
        { portals := ← Json.optional? base.portals (Json.asList? Json.asText?) portals
          threadIndent := ← Json.optional? base.threadIndent Json.asText? indent
          maxThreadDepth := ← Json.optional? base.maxThreadDepth nonNegative? depth
          summaryLength := ← Json.optional? base.summaryLength size? length
          summaryEllipsis := ← Json.optional? base.summaryEllipsis Json.asText? ellipsis
          lineWidth := ← Json.optional? base.lineWidth nonNegative? width
          relayHintLimit := ← Json.optional? base.relayHintLimit size? hints }
  | _ => none

def parse (text : String) : Except SettingsError Settings :=
  match (Json.parse? text).bind ofJson? with
  | some settings => .ok settings
  | none => .error (.invalid "not an object of settings")

end Settings

end NostrCapsule
