import NostrCapsule.CommandLine.Run
import NostrCapsule.Proofs.Refusal

/-!
Contract: the stages of a run, and which of them decides it.

A stage fails for causes of its own.  The first stage that fails gives the error of a run; if none
does, the run makes a text from what the stages give.

Owns:
- `HoldsRelays`, what a file of relays looks like;
- `Stage` with its order, `Fails` and `IsFirstFailure`;
- `Gives` and `IsPage`, what stages give, and `Makes`, the text from it;
- the two ways in which options run, and that one of them always applies.

Does not own: the reading of arguments, of settings and of events.
-/

namespace NostrCapsule

/-! ## Files of relays -/

namespace Json

variable {α : Type} {value? : Json → Option α} {write : α → Json}

theorem asText?_eq_some_iff {json : Json} {content : String} :
    json.asText? = some content ↔ json = .text (some content) := by
  cases json <;> simp [asText?]

theorem asList?_eq_some_iff (inverse : ∀ {json value}, value? json = some value ↔ json = write value)
    {json : Json} {values : List α} :
    asList? value? json = some values ↔ json = .array (values.map write) := by
  cases json with
  | array items => rw [asList?, Refusal.mapM_eq_some_iff inverse, array.injEq]
  | _ => simp [asList?]

theorem asMap?_eq_some_iff (inverse : ∀ {json value}, value? json = some value ↔ json = write value)
    {json : Json} {entries : List (String × α)} :
    asMap? value? json = some entries ↔
      json = .object (entries.map fun entry => (some entry.1, write entry.2)) := by
  cases json with
  | object fields =>
      rw [asMap?, Refusal.mapM_eq_some_iff, object.injEq]
      intro field entry
      obtain ⟨name, value⟩ := field
      obtain ⟨key, content⟩ := entry
      cases name with
      | none => simp
      | some name =>
          simp only [Option.bind_eq_bind, Option.bind_some, Option.bind_eq_some_iff, inverse,
            Option.pure_def, Option.some.injEq, Prod.mk.injEq, exists_eq_right_right]
          exact and_comm
  | _ => simp [asMap?]

end Json

namespace CommandLine

/-- A file of relays is the text of one JSON object that has a list of texts under each name. -/
def HoldsRelays (octets : List UInt8) (entries : List (String × List String)) : Prop :=
  ∃ text, octets = Text.octetsOf text ∧
    Json.parse? text = some (.object (entries.map fun entry =>
      (some entry.1, .array (entry.2.map fun relay => .text (some relay)))))

theorem parseRelays?_eq_some_iff {octets : List UInt8} {entries : List (String × List String)} :
    parseRelays? octets = some entries ↔ HoldsRelays octets entries := by
  have written {json : Json} : json.asMap? (Json.asList? Json.asText?) = some entries ↔
      json = .object (entries.map fun entry =>
        (some entry.1, .array (entry.2.map fun relay => .text (some relay)))) :=
    Json.asMap?_eq_some_iff (Json.asList?_eq_some_iff Json.asText?_eq_some_iff)
  simp [parseRelays?, HoldsRelays, Option.bind_eq_some_iff, Text.ofOctets?_eq_some_iff, written]

theorem parseRelays?_eq_none_iff {octets : List UInt8} :
    parseRelays? octets = none ↔ ∀ entries, ¬ HoldsRelays octets entries := by
  simp only [Option.eq_none_iff_forall_ne_some, ne_eq, parseRelays?_eq_some_iff]

/-! ## Stages -/

/-- A part of a run that may fail. -/
inductive Stage where
  | settings
  | events
  | relays
  | page
deriving DecidableEq, Repr

def Stage.before : Stage → List Stage
  | .settings => []
  | .events => [.settings]
  | .relays => [.settings, .events]
  | .page => [.settings, .events, .relays]

/-- A stage fails for a cause of its own, whatever the other stages do. -/
inductive Fails (surroundings : Surroundings) (options : Options) : Stage → RunError → Prop
  | settingsUnread {path detail : String} (named : options.config = some path)
      (unread : (surroundings.contentAt path).octets = .error detail) :
      Fails surroundings options .settings (.settings (.unreadable detail))
  | settingsNoText {path : String} {octets : List UInt8} (named : options.config = some path)
      (leads : surroundings.contentAt path = .file octets)
      (noText : Text.ofOctets? octets = none) :
      Fails surroundings options .settings
        (.settings (.unreadable "the file is not valid UTF-8"))
  | settingsRefused {path text : String} {octets : List UInt8} {cause : SettingsError}
      (named : options.config = some path) (leads : surroundings.contentAt path = .file octets)
      (isText : Text.ofOctets? octets = some text) (refused : Settings.parse text = .error cause) :
      Fails surroundings options .settings (.settings cause)
  | eventsUnopened {path detail : String} (named : options.events = some path)
      (leads : surroundings.contentAt path = .unopened detail) :
      Fails surroundings options .events (.file detail)
  | eventsUnreadable {path detail : String} (named : options.events = some path)
      (leads : surroundings.contentAt path = .unreadable detail) :
      Fails surroundings options .events (.events (.unreadable detail))
  | eventsRefused {path : String} {octets : List UInt8} {cause : LoadError}
      (named : options.events = some path) (leads : surroundings.contentAt path = .file octets)
      (refused : MemoryStore.ofLines octets = .error cause) :
      Fails surroundings options .events (.events cause)
  | relaysUnread {path detail : String} (named : options.relays = some path)
      (unread : (surroundings.contentAt path).octets = .error detail) :
      Fails surroundings options .relays (.file detail)
  | relaysRefused {path : String} {octets : List UInt8} (named : options.relays = some path)
      (leads : surroundings.contentAt path = .file octets)
      (refused : ∀ entries, ¬ HoldsRelays octets entries) :
      Fails surroundings options .relays (.file "not a map from keys to lists of relays")
  | noteUnspelled {text : String} (asked : options.page = .note text)
      (unspelled : spelledEvent? text = none) :
      Fails surroundings options .page (.notAnEventId text)
  | profileUnspelled {text : String} (asked : options.page = .profile text)
      (unspelled : spelledKey? text = none) :
      Fails surroundings options .page (.notAPubkey text)
  | threadUnspelled {text : String} (asked : options.page = .thread text)
      (unspelled : spelledEvent? text = none) :
      Fails surroundings options .page (.notAnEventId text)
  | standardInputNoText (asked : options.page = .expand)
      (noText : Text.ofOctets? surroundings.standardInput = none) :
      Fails surroundings options .page (.file "standard input is not valid UTF-8")

/-- A stage fails, and none before it does. -/
structure IsFirstFailure (surroundings : Surroundings) (options : Options) (stage : Stage)
    (error : RunError) : Prop where
  fails : Fails surroundings options stage error
  before : ∀ earlier ∈ stage.before, ∀ other, ¬ Fails surroundings options earlier other

/-! ## What a stage gives -/

/-- What a source gives: a default if no file is named, or what the file is read as. -/
inductive Gives {α : Type} (surroundings : Surroundings) (default : α)
    (Reads : List UInt8 → α → Prop) : Option String → α → Prop
  | unnamed : Gives surroundings default Reads none default
  | named {path : String} {octets : List UInt8} {value : α}
      (leads : surroundings.contentAt path = .file octets) (reads : Reads octets value) :
      Gives surroundings default Reads (some path) value

/-- The record of settings of a run.  Without a file it has no fields. -/
def GivesRecord (surroundings : Surroundings) (options : Options) : Json → Prop :=
  Gives surroundings (.object [])
    (fun octets record => (Text.ofOctets? octets).bind Json.parse? = some record) options.config

def GivesEvents (surroundings : Surroundings) (options : Options) : MemoryStore → Prop :=
  Gives surroundings .empty (fun octets store => MemoryStore.ofLines octets = .ok store)
    options.events

def GivesRelays (surroundings : Surroundings) (options : Options) :
    List (String × List String) → Prop :=
  Gives surroundings [] HoldsRelays options.relays

/-- The page that a request asks for. -/
inductive IsPage (standardInput : List UInt8) (edition : Edition) :
    PageRequest → Lookup String → Prop
  | note {text : String} {id : EventId} (spelled : spelledEvent? text = some id) :
      IsPage standardInput edition (.note text) (edition.notePage id.text)
  | profile {text : String} {key : PublicKey} (spelled : spelledKey? text = some key) :
      IsPage standardInput edition (.profile text) (edition.profilePage key.text)
  | thread {text : String} {id : EventId} (spelled : spelledEvent? text = some id) :
      IsPage standardInput edition (.thread text) (edition.threadPage id.text)
  | expand {text : String} (isText : Text.ofOctets? standardInput = some text) :
      IsPage standardInput edition .expand (edition.textPage text)

/-- The text that a run makes if each of its stages gives something: the page that is asked for,
over the events and relays that are loaded, in the width among the arguments or else that of the
settings. -/
inductive Makes (surroundings : Surroundings) (options : Options) : String → Prop
  | intro {record : Json} {base : Settings} {events : MemoryStore}
      {entries : List (String × List String)} {page : Lookup String}
      (written : GivesRecord surroundings options record)
      (read : Settings.ofJson? record = some base)
      (loaded : GivesEvents surroundings options events)
      (listed : GivesRelays surroundings options entries)
      (asked : IsPage surroundings.standardInput
        { settings := { base with lineWidth := options.width.getD base.lineWidth }
          now := surroundings.now }
        options.page page) :
      Makes surroundings options
        (page.answer
          ((entries.foldl (fun store entry => store.setReadRelays entry.1 entry.2) events).answers
            .background))

/-! ## One stage

Each stage refuses with the error for which it fails; otherwise there is something that it gives,
and it gives that. -/

section OneStage

variable {surroundings : Surroundings} {options : Options} {error : RunError}

theorem loadSettings_of_fails (fails : Fails surroundings options .settings error) :
    loadSettings surroundings options = .error error := by
  cases fails with
  | settingsUnread named unread =>
      simp only [loadSettings, named, unread]
      rfl
  | settingsNoText named leads noText =>
      simp only [loadSettings, named, leads, PathContent.octets, noText]
      rfl
  | settingsRefused named leads isText refused =>
      simp only [loadSettings, named, leads, PathContent.octets, isText, refused]
      rfl

theorem loadSettings_of_gives {record : Json} {base : Settings}
    (gives : GivesRecord surroundings options record)
    (read : Settings.ofJson? record = some base) :
    loadSettings surroundings options =
      .ok { base with lineWidth := options.width.getD base.lineWidth } := by
  unfold GivesRecord at gives
  generalize config : options.config = named at gives
  cases gives with
  | unnamed =>
      cases read
      simp only [loadSettings, config]
      rfl
  | named leads reads =>
      obtain ⟨text, isText, parsed⟩ := Option.bind_eq_some_iff.mp reads
      have given : Settings.parse text = .ok base := by
        rw [Settings.parse, parsed, Option.bind_some, read]
      simp only [loadSettings, config, leads, PathContent.octets, isText, given]
      rfl

theorem exists_record (succeeds : ∀ error, ¬ Fails surroundings options .settings error) :
    ∃ record base, GivesRecord surroundings options record ∧
      Settings.ofJson? record = some base := by
  unfold GivesRecord
  cases config : options.config with
  | none => exact ⟨_, _, .unnamed, rfl⟩
  | some path =>
      cases leads : surroundings.contentAt path with
      | unopened detail => exact absurd (.settingsUnread config (by rw [leads]; rfl)) (succeeds _)
      | unreadable detail =>
          exact absurd (.settingsUnread config (by rw [leads]; rfl)) (succeeds _)
      | file octets =>
          cases isText : Text.ofOctets? octets with
          | none => exact absurd (.settingsNoText config leads isText) (succeeds _)
          | some text =>
              cases given : Settings.parse text with
              | error cause =>
                  exact absurd (.settingsRefused config leads isText given) (succeeds _)
              | ok base =>
                  unfold Settings.parse at given
                  split at given
                  case h_2 => cases given
                  case h_1 settings built =>
                    obtain ⟨record, parsed, read⟩ := Option.bind_eq_some_iff.mp built
                    exact ⟨record, settings, .named leads (by simp [isText, parsed]), read⟩

theorem loadEvents_of_fails (fails : Fails surroundings options .events error) :
    loadEvents surroundings options = .error error := by
  cases fails with
  | eventsUnopened named leads =>
      simp only [loadEvents, named, leads]
      rfl
  | eventsUnreadable named leads =>
      simp only [loadEvents, named, leads]
      rfl
  | eventsRefused named leads refused =>
      simp only [loadEvents, named, leads, refused]
      rfl

theorem loadEvents_of_gives {store : MemoryStore}
    (gives : GivesEvents surroundings options store) :
    loadEvents surroundings options = .ok store := by
  unfold GivesEvents at gives
  generalize events : options.events = named at gives
  cases gives with
  | unnamed =>
      simp only [loadEvents, events]
      rfl
  | named leads reads =>
      simp only [loadEvents, events, leads, reads]
      rfl

theorem exists_events (succeeds : ∀ error, ¬ Fails surroundings options .events error) :
    ∃ store, GivesEvents surroundings options store := by
  unfold GivesEvents
  cases named : options.events with
  | none => exact ⟨_, .unnamed⟩
  | some path =>
      cases leads : surroundings.contentAt path with
      | unopened detail => exact absurd (.eventsUnopened named leads) (succeeds _)
      | unreadable detail => exact absurd (.eventsUnreadable named leads) (succeeds _)
      | file octets =>
          cases read : MemoryStore.ofLines octets with
          | error cause => exact absurd (.eventsRefused named leads read) (succeeds _)
          | ok store => exact ⟨store, .named leads read⟩

theorem loadRelays_of_fails (fails : Fails surroundings options .relays error)
    (store : MemoryStore) : loadRelays surroundings options store = .error error := by
  cases fails with
  | relaysUnread named unread =>
      simp only [loadRelays, named, unread]
      rfl
  | relaysRefused named leads refused =>
      simp only [loadRelays, named, leads, PathContent.octets,
        parseRelays?_eq_none_iff.mpr refused]
      rfl

theorem loadRelays_of_gives {entries : List (String × List String)}
    (gives : GivesRelays surroundings options entries) (store : MemoryStore) :
    loadRelays surroundings options store =
      .ok (entries.foldl (fun store entry => store.setReadRelays entry.1 entry.2) store) := by
  unfold GivesRelays at gives
  generalize relays : options.relays = named at gives
  cases gives with
  | unnamed =>
      simp only [loadRelays, relays]
      rfl
  | named leads reads =>
      simp only [loadRelays, relays, leads, PathContent.octets,
        parseRelays?_eq_some_iff.mpr reads]
      rfl

theorem exists_relays (succeeds : ∀ error, ¬ Fails surroundings options .relays error) :
    ∃ entries, GivesRelays surroundings options entries := by
  unfold GivesRelays
  cases named : options.relays with
  | none => exact ⟨_, .unnamed⟩
  | some path =>
      cases leads : surroundings.contentAt path with
      | unopened detail => exact absurd (.relaysUnread named (by rw [leads]; rfl)) (succeeds _)
      | unreadable detail => exact absurd (.relaysUnread named (by rw [leads]; rfl)) (succeeds _)
      | file octets =>
          cases read : parseRelays? octets with
          | none =>
              have refused := parseRelays?_eq_none_iff.mp read
              exact absurd (.relaysRefused named leads refused) (succeeds _)
          | some entries => exact ⟨entries, .named leads (parseRelays?_eq_some_iff.mp read)⟩

theorem makePage_of_fails (fails : Fails surroundings options .page error) (edition : Edition) :
    makePage surroundings edition options.page = .error error := by
  unfold makePage
  cases fails with
  | noteUnspelled asked unspelled =>
      simp only [asked, unspelled]
      rfl
  | profileUnspelled asked unspelled =>
      simp only [asked, unspelled]
      rfl
  | threadUnspelled asked unspelled =>
      simp only [asked, unspelled]
      rfl
  | standardInputNoText asked noText =>
      simp only [asked, noText]
      rfl

theorem makePage_of_isPage {edition : Edition} {request : PageRequest} {page : Lookup String}
    (isPage : IsPage surroundings.standardInput edition request page) :
    makePage surroundings edition request = .ok page := by
  unfold makePage
  cases isPage with
  | note spelled =>
      simp only [spelled]
      rfl
  | profile spelled =>
      simp only [spelled]
      rfl
  | thread spelled =>
      simp only [spelled]
      rfl
  | expand isText =>
      simp only [isText]
      rfl

theorem exists_page (succeeds : ∀ error, ¬ Fails surroundings options .page error)
    (edition : Edition) :
    ∃ page, IsPage surroundings.standardInput edition options.page page := by
  cases asked : options.page with
  | note text =>
      cases spelled : spelledEvent? text with
      | none => exact absurd (.noteUnspelled asked spelled) (succeeds _)
      | some id => exact ⟨_, .note spelled⟩
  | profile text =>
      cases spelled : spelledKey? text with
      | none => exact absurd (.profileUnspelled asked spelled) (succeeds _)
      | some key => exact ⟨_, .profile spelled⟩
  | thread text =>
      cases spelled : spelledEvent? text with
      | none => exact absurd (.threadUnspelled asked spelled) (succeeds _)
      | some id => exact ⟨_, .thread spelled⟩
  | expand =>
      cases isText : Text.ofOctets? surroundings.standardInput with
      | none => exact absurd (.standardInputNoText asked isText) (succeeds _)
      | some text => exact ⟨_, .expand isText⟩

end OneStage

/-! ## A whole run -/

section WholeRun

variable {surroundings : Surroundings} {options : Options} {stage : Stage} {error : RunError}

theorem runOptions_of_isFirstFailure
    (first : IsFirstFailure surroundings options stage error) :
    runOptions surroundings options = .error error := by
  obtain ⟨fails, before⟩ := first
  cases stage with
  | settings => rw [runOptions, loadSettings_of_fails fails, Refusal.error_bind]
  | events =>
      obtain ⟨record, base, written, read⟩ := exists_record (before .settings (by decide))
      rw [runOptions, loadSettings_of_gives written read, Refusal.ok_bind,
        loadEvents_of_fails fails, Refusal.error_bind]
  | relays =>
      obtain ⟨record, base, written, read⟩ := exists_record (before .settings (by decide))
      obtain ⟨events, loaded⟩ := exists_events (before .events (by decide))
      rw [runOptions, loadSettings_of_gives written read, Refusal.ok_bind,
        loadEvents_of_gives loaded, Refusal.ok_bind, loadRelays_of_fails fails,
        Refusal.error_bind]
  | page =>
      obtain ⟨record, base, written, read⟩ := exists_record (before .settings (by decide))
      obtain ⟨events, loaded⟩ := exists_events (before .events (by decide))
      obtain ⟨entries, listed⟩ := exists_relays (before .relays (by decide))
      rw [runOptions, loadSettings_of_gives written read, Refusal.ok_bind,
        loadEvents_of_gives loaded, Refusal.ok_bind, loadRelays_of_gives listed,
        Refusal.ok_bind, makePage_of_fails fails, Refusal.error_bind]

theorem runOptions_of_makes {text : String} (makes : Makes surroundings options text) :
    runOptions surroundings options = .ok text := by
  obtain ⟨written, read, loaded, listed, asked⟩ := makes
  rw [runOptions, loadSettings_of_gives written read, Refusal.ok_bind,
    loadEvents_of_gives loaded, Refusal.ok_bind, loadRelays_of_gives listed,
    Refusal.ok_bind, makePage_of_isPage asked, Refusal.ok_bind]
  rfl

theorem exists_makes (succeeds : ∀ stage error, ¬ Fails surroundings options stage error) :
    ∃ text, Makes surroundings options text := by
  obtain ⟨record, base, written, read⟩ := exists_record (succeeds .settings)
  obtain ⟨events, loaded⟩ := exists_events (succeeds .events)
  obtain ⟨entries, listed⟩ := exists_relays (succeeds .relays)
  obtain ⟨page, asked⟩ := exists_page (succeeds .page) _
  exact ⟨_, .intro written read loaded listed asked⟩

/-- If a stage fails, some stage is the first to fail. -/
theorem Fails.exists_isFirstFailure {stage : Stage} {error : RunError}
    (fails : Fails surroundings options stage error) :
    ∃ first cause, IsFirstFailure surroundings options first cause := by
  by_cases earlierFails :
      ∃ earlier ∈ stage.before, ∃ other, Fails surroundings options earlier other
  · obtain ⟨earlier, isBefore, other, failsToo⟩ := earlierFails
    exact failsToo.exists_isFirstFailure
  · exact ⟨stage, error, fails, fun earlier isBefore other failsToo =>
      earlierFails ⟨earlier, isBefore, other, failsToo⟩⟩
termination_by stage.before.length
decreasing_by revert isBefore; cases earlier <;> cases stage <;> decide

end WholeRun

end CommandLine

end NostrCapsule
