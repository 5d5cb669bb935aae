import NostrCapsule.Proofs.CommandLine.Stages
import NostrCapsule.Proofs.CommandLine.Width

/-!
Contract: what of its surroundings a run depends on.

Owns:
- `Alike`, the part of two runs that a stage looks at, and the first failure of runs that are
  alike up to it;
- `HasWidthInSettings`, two runs of which one is given its width in the settings;
- `run_by_stages`, from arguments to exit code and output.

Does not own: the stages themselves.
-/

namespace NostrCapsule.CommandLine

/-! ## Two runs -/

/-- Two runs let a stage look at the same: what its path leads to, or the page that is asked for
and, if it is made from standard input, that. -/
def Alike (surroundings elsewhere : Surroundings) (options choices : Options) : Stage → Prop
  | .settings =>
      options.config.map surroundings.contentAt = choices.config.map elsewhere.contentAt
  | .events =>
      options.events.map surroundings.contentAt = choices.events.map elsewhere.contentAt
  | .relays =>
      options.relays.map surroundings.contentAt = choices.relays.map elsewhere.contentAt
  | .page =>
      options.page = choices.page ∧
        (options.page = .expand → surroundings.standardInput = elsewhere.standardInput)

instance (surroundings elsewhere : Surroundings) (options choices : Options) :
    DecidablePred (Alike surroundings elsewhere options choices)
  | .settings | .events | .relays => inferInstanceAs (Decidable (_ = _))
  | .page => inferInstanceAs (Decidable (_ ∧ (_ → _)))

section TwoRuns

variable {surroundings elsewhere : Surroundings} {options choices : Options} {stage : Stage}

theorem Alike.symm (alike : Alike surroundings elsewhere options choices stage) :
    Alike elsewhere surroundings choices options stage := by
  cases stage with
  | settings => exact Eq.symm alike
  | events => exact Eq.symm alike
  | relays => exact Eq.symm alike
  | page => exact ⟨alike.1.symm, fun asked => (alike.2 (alike.1.trans asked)).symm⟩

/-- Where two runs find the same, one names a file if the other does. -/
theorem exists_named {path : String} {source other : Option String}
    (same : source.map surroundings.contentAt = other.map elsewhere.contentAt)
    (named : source = some path) :
    ∃ file, other = some file ∧ elsewhere.contentAt file = surroundings.contentAt path := by
  subst named
  exact Option.map_eq_some_iff.mp same.symm

theorem unnamed_or_named {source other : Option String}
    (same : source.map surroundings.contentAt = other.map elsewhere.contentAt) :
    (source = none ∧ other = none) ∨
      ∃ path file, source = some path ∧ other = some file ∧
        elsewhere.contentAt file = surroundings.contentAt path := by
  cases named : source with
  | none =>
      rw [named] at same
      exact .inl ⟨rfl, Option.map_eq_none_iff.mp same.symm⟩
  | some path =>
      obtain ⟨file, namedToo, leads⟩ := exists_named same named
      exact .inr ⟨path, file, rfl, namedToo, leads⟩

theorem Fails.of_alike {error : RunError}
    (alike : Alike surroundings elsewhere options choices stage)
    (fails : Fails surroundings options stage error) : Fails elsewhere choices stage error := by
  cases fails with
  | settingsUnread named unread =>
      obtain ⟨file, namedToo, same⟩ := exists_named alike named
      exact .settingsUnread namedToo (same ▸ unread)
  | settingsNoText named leads noText =>
      obtain ⟨file, namedToo, same⟩ := exists_named alike named
      exact .settingsNoText namedToo (same.trans leads) noText
  | settingsRefused named leads isText refused =>
      obtain ⟨file, namedToo, same⟩ := exists_named alike named
      exact .settingsRefused namedToo (same.trans leads) isText refused
  | eventsUnopened named leads =>
      obtain ⟨file, namedToo, same⟩ := exists_named alike named
      exact .eventsUnopened namedToo (same.trans leads)
  | eventsUnreadable named leads =>
      obtain ⟨file, namedToo, same⟩ := exists_named alike named
      exact .eventsUnreadable namedToo (same.trans leads)
  | eventsRefused named leads refused =>
      obtain ⟨file, namedToo, same⟩ := exists_named alike named
      exact .eventsRefused namedToo (same.trans leads) refused
  | relaysUnread named unread =>
      obtain ⟨file, namedToo, same⟩ := exists_named alike named
      exact .relaysUnread namedToo (same ▸ unread)
  | relaysRefused named leads refused =>
      obtain ⟨file, namedToo, same⟩ := exists_named alike named
      exact .relaysRefused namedToo (same.trans leads) refused
  | noteUnspelled asked unspelled => exact .noteUnspelled (alike.1.symm.trans asked) unspelled
  | profileUnspelled asked unspelled =>
      exact .profileUnspelled (alike.1.symm.trans asked) unspelled
  | threadUnspelled asked unspelled => exact .threadUnspelled (alike.1.symm.trans asked) unspelled
  | standardInputNoText asked noText =>
      exact .standardInputNoText (alike.1.symm.trans asked) (alike.2 asked ▸ noText)

/-- The first failure is the same in two runs that are alike up to it. -/
theorem IsFirstFailure.of_alike {error : RunError}
    (alike : ∀ seen ∈ stage.before ++ [stage], Alike surroundings elsewhere options choices seen)
    (first : IsFirstFailure surroundings options stage error) :
    IsFirstFailure elsewhere choices stage error where
  fails := first.fails.of_alike (alike stage (by simp))
  before earlier isBefore other fails :=
    first.before earlier isBefore other
      (fails.of_alike (alike earlier (List.mem_append_left _ isBefore)).symm)

/-- Runs with the same settings that are alike at the other stages end alike. -/
theorem runOptions_eq_of_alike
    (settings : loadSettings elsewhere choices = loadSettings surroundings options)
    (alike : ∀ stage, stage ≠ .settings → Alike surroundings elsewhere options choices stage)
    (now : elsewhere.now = surroundings.now) :
    runOptions elsewhere choices = runOptions surroundings options := by
  have events : loadEvents elsewhere choices = loadEvents surroundings options := by
    obtain ⟨unnamed, unnamedToo⟩ | ⟨path, file, named, namedToo, leads⟩ :=
      unnamed_or_named (alike .events (by decide))
    · simp only [loadEvents, unnamed, unnamedToo]
    · simp only [loadEvents, named, namedToo, leads]
  have relays : loadRelays elsewhere choices = loadRelays surroundings options := by
    funext store
    obtain ⟨unnamed, unnamedToo⟩ | ⟨path, file, named, namedToo, leads⟩ :=
      unnamed_or_named (alike .relays (by decide))
    · simp only [loadRelays, unnamed, unnamedToo]
    · simp only [loadRelays, named, namedToo, leads]
  have page (edition : Edition) : makePage elsewhere edition choices.page =
      makePage surroundings edition options.page := by
    obtain ⟨asked, input⟩ := alike .page (by decide)
    rw [← asked]
    cases request : options.page with
    | expand =>
        unfold makePage
        simp only [input request]
    | _ => rfl
  simp only [runOptions, settings, events, relays, page, now]

/-- A run has in its settings the width that another one has among its arguments, and is like it
in everything else. -/
structure HasWidthInSettings (value : Int) (surroundings elsewhere : Surroundings)
    (options choices : Options) : Prop where
  width : choices.width = none
  settings : ∃ record widened, GivesRecord surroundings options record ∧
    (Settings.ofJson? record).isSome = true ∧ GivesRecord elsewhere choices widened ∧
    Settings.HasWidth value record widened
  alike : ∀ stage, stage ≠ .settings → Alike surroundings elsewhere options choices stage
  now : elsewhere.now = surroundings.now

theorem HasWidthInSettings.runOptions_eq {value : Int}
    (inSettings : HasWidthInSettings value surroundings elsewhere options choices)
    (within : Text.IsSigned64 value) (given : options.width = some value.toNat) :
    runOptions elsewhere choices = runOptions surroundings options := by
  obtain ⟨missing, ⟨record, widened, written, read, writtenToo, replaced⟩, alike, now⟩ := inSettings
  obtain ⟨base, read⟩ := Option.isSome_iff_exists.mp read
  refine runOptions_eq_of_alike ?_ alike now
  rw [loadSettings_of_gives written read,
    loadSettings_of_gives writtenToo (Settings.ofJson?_of_hasWidth within replaced read), given,
    missing]
  rfl

end TwoRuns

/-! ## From arguments -/

section Runs

variable {surroundings elsewhere : Surroundings} {arguments otherArguments : List String}
  {options choices : Options}

theorem run_eq_failure (understood : Options.parse? arguments = some options) {error : RunError}
    (fails : runOptions surroundings options = .error error) :
    run surroundings arguments = .failure error := by
  simp only [run, understood, fails]

theorem run_eq_page (understood : Options.parse? arguments = some options) {text : String}
    (succeeds : runOptions surroundings options = .ok text) :
    run surroundings arguments = .page text := by
  simp only [run, understood, succeeds]

theorem run_eq_of_runOptions_eq (understood : Options.parse? arguments = some options)
    (understoodToo : Options.parse? otherArguments = some choices)
    (same : runOptions elsewhere choices = runOptions surroundings options) :
    run elsewhere otherArguments = run surroundings arguments := by
  simp only [run, understood, understoodToo, same]

theorem exitCode_run_eq_two_iff :
    (run surroundings arguments).exitCode = 2 ↔ Options.parse? arguments = none := by
  cases understood : Options.parse? arguments with
  | none => simp only [run, understood, Outcome.exitCode]
  | some options =>
      cases ended : runOptions surroundings options with
      | ok text => simp [run_eq_page understood ended, Outcome.exitCode]
      | error error => simp [run_eq_failure understood ended, Outcome.exitCode]

theorem exitCode_run_eq_one_iff (understood : Options.parse? arguments = some options) :
    (run surroundings arguments).exitCode = 1 ↔
      ∃ stage error, IsFirstFailure surroundings options stage error := by
  constructor
  · intro failed
    by_contra noFirst
    have succeeds : ∀ stage error, ¬ Fails surroundings options stage error :=
      fun stage error fails => noFirst fails.exists_isFirstFailure
    obtain ⟨text, makes⟩ := exists_makes succeeds
    rw [run_eq_page understood (runOptions_of_makes makes)] at failed
    cases failed
  · rintro ⟨stage, error, first⟩
    rw [run_eq_failure understood (runOptions_of_isFirstFailure first)]
    rfl

/-- Settings with a width and nothing else stand for that width among the arguments. -/
theorem run_config_cons (understood : Options.parse? arguments = some options)
    (noWidth : options.width = none) (noConfig : options.config = none) {value : Int}
    (within : Text.IsSigned64 value) {path : String}
    (leads : surroundings.contentAt path = .file (Text.octetsOf (Settings.widthOnly value))) :
    run surroundings ("--config" :: path :: arguments) =
      run surroundings ("--width" :: toString value :: arguments) := by
  have widened := Options.parse?_width_cons understood noWidth (Text.signed64?_toString within)
  have configured := Options.parse?_config_cons understood noConfig path
  have record : GivesRecord surroundings { options with width := some value.toNat }
      (.object []) := by
    simp only [GivesRecord, noConfig]
    exact .unnamed
  have recordToo : GivesRecord surroundings { options with config := some path }
      (.object [(some "line_width", .number (.whole value))]) :=
    .named leads (by
      rw [Text.ofOctets?_octetsOf, Option.bind_some, Settings.parse?_widthOnly])
  have inSettings : HasWidthInSettings value surroundings surroundings
      { options with width := some value.toNat } { options with config := some path } :=
    { width := noWidth
      settings := ⟨_, _, record, rfl, recordToo, Settings.hasWidth_widthOnly value⟩
      alike := fun stage other => by
        cases stage with
        | settings => exact absurd rfl other
        | events => rfl
        | relays => rfl
        | page => exact ⟨rfl, fun _ => rfl⟩
      now := rfl }
  exact run_eq_of_runOptions_eq widened configured (inSettings.runOptions_eq within rfl)

end Runs

/-- A run is decided by its first stage that fails, and by what the run finds up to there.  If no
stage fails, it ends with the page over what the stages give, in which a width among the
arguments stands for one in the settings; only the page of a text depends on standard input. -/
theorem run_by_stages (surroundings : Surroundings) (arguments : List String) :
    ((run surroundings arguments).exitCode = 2 ↔ Options.parse? arguments = none) ∧
    ∀ options, Options.parse? arguments = some options →
      ((run surroundings arguments).exitCode = 1 ↔
        ∃ stage error, IsFirstFailure surroundings options stage error) ∧
      (∀ stage error, IsFirstFailure surroundings options stage error →
        ∀ elsewhere otherArguments choices, Options.parse? otherArguments = some choices →
          (∀ seen ∈ stage.before ++ [stage],
            Alike surroundings elsewhere options choices seen) →
          run elsewhere otherArguments = .failure error ∧
            (run elsewhere otherArguments).standardOutput = "" ∧
            ∀ program, (run elsewhere otherArguments).standardError program =
              programName ++ ": " ++ error.message ++ "\n") ∧
      ((∀ stage error, ¬ Fails surroundings options stage error) →
        ∃ text, Makes surroundings options text ∧ (run surroundings arguments).exitCode = 0 ∧
          (run surroundings arguments).standardOutput = text ++ "\n") ∧
      (options.page ≠ .expand → ∀ input,
        run { surroundings with standardInput := input } arguments =
          run surroundings arguments) ∧
      (∀ groups text value, Splits arguments groups → .width text value ∈ groups →
        ∀ elsewhere otherArguments choices, Options.parse? otherArguments = some choices →
          HasWidthInSettings value surroundings elsewhere options choices →
          run elsewhere otherArguments = run surroundings arguments) ∧
      (∀ value, Text.IsSigned64 value → options.width = none → options.config = none →
        ∀ path, surroundings.contentAt path =
            .file (Text.octetsOf (Settings.widthOnly value)) →
          run surroundings ("--config" :: path :: arguments) =
            run surroundings ("--width" :: toString value :: arguments)) := by
  refine ⟨exitCode_run_eq_two_iff, fun options understood =>
    ⟨exitCode_run_eq_one_iff understood, ?_, ?_, ?_, ?_, ?_⟩⟩
  · intro stage error first elsewhere otherArguments choices understoodToo alike
    have ended := run_eq_failure understoodToo
      (runOptions_of_isFirstFailure (first.of_alike alike))
    rw [ended]
    exact ⟨rfl, rfl, fun _ => rfl⟩
  · intro succeeds
    obtain ⟨text, makes⟩ := exists_makes succeeds
    rw [run_eq_page understood (runOptions_of_makes makes)]
    exact ⟨text, makes, rfl, rfl⟩
  · intro notExpand input
    refine run_eq_of_runOptions_eq understood understood (runOptions_eq_of_alike rfl ?_ rfl)
    intro stage _
    cases stage with
    | page => exact ⟨rfl, fun expand => absurd expand notExpand⟩
    | _ => rfl
  · intro groups text value splits member elsewhere otherArguments choices understoodToo inSettings
    have reflects := Options.reflects_of_parse? splits understood
    have given := (reflects.width _).mpr ⟨text, value, member, Int.ofNat_toNat value⟩
    have within := Text.isSigned64_of_signed64? (splits.2 _ member)
    exact run_eq_of_runOptions_eq understood understoodToo (inSettings.runOptions_eq within given)
  · intro value within noWidth noConfig path leads
    exact run_config_cons understood noWidth noConfig within leads

/-- Files of settings, without portals, the same in a width, and in a width only; a file of relays,
and one with a number where a list is due; and a file of prose. -/
def sampleFiles : String → PathContent
  | "plain" => .file (Text.octetsOf "\x7b\"portals\":[]\x7d")
  | "narrow" => .file (Text.octetsOf "\x7b\"portals\":[],\"line_width\":-5\x7d")
  | "wide" => .file (Text.octetsOf (Settings.widthOnly 400))
  | "listed" => .file (Text.octetsOf "\x7b\"key\":[\"wss://a\",\"wss://b\"]\x7d")
  | "unlisted" => .file (Text.octetsOf "\x7b\"key\":1\x7d")
  | "prose" => .file (Text.octetsOf "prose")
  | _ => .unopened "no such file"

def sampleSurroundings (standardInput : List UInt8) : Surroundings :=
  { contentAt := sampleFiles, standardInput, now := 7 }

/-- Prose for events, before relays that are not there; the same with other relays and another
page; a page that is made, without relays and with them; relays that are refused; standard input
that is not looked at; and widths in settings. -/
theorem run_by_stages_samples :
    (run (sampleSurroundings [255])
        ["--events", "prose", "--relays", "nothing", "--expand"]).exitCode = 1 ∧
      run { contentAt := fun path => if path = "prose" then sampleFiles path else .file []
            standardInput := [], now := 9 } ["--note", "1", "--events", "prose"] =
        .failure (.events (.invalidEvent 1 "not an event")) ∧
      (run (sampleSurroundings [104, 105]) ["--expand"]).exitCode = 0 ∧
      HoldsRelays (Text.octetsOf "\x7b\"key\":[\"wss://a\",\"wss://b\"]\x7d")
        [("key", ["wss://a", "wss://b"])] ∧
      (run (sampleSurroundings [104, 105]) ["--relays", "listed", "--expand"]).exitCode = 0 ∧
      run (sampleSurroundings [255]) ["--relays", "unlisted", "--expand"] =
        .failure (.file "not a map from keys to lists of relays") ∧
      run (sampleSurroundings []) ["--note", "1"] =
        run (sampleSurroundings [104, 105]) ["--note", "1"] ∧
      run (sampleSurroundings [104, 105]) ["--config", "narrow", "--expand"] =
        run (sampleSurroundings [104, 105]) ["--width", "-5", "--config", "plain", "--expand"] ∧
      run (sampleSurroundings [104, 105]) ["--config", "wide", "--expand"] =
        run (sampleSurroundings [104, 105]) ["--width", "400", "--expand"] ∧
      (run (sampleSurroundings []) ["--note"]).exitCode = 2 := by
  have proseFails : IsFirstFailure (sampleSurroundings [255])
      { events := some "prose", relays := some "nothing", config := none, width := none,
        page := .expand } .events (.events (.invalidEvent 1 "not an event")) :=
    { fails := .eventsRefused rfl rfl rfl
      before := fun earlier isBefore other fails => by
        cases List.mem_singleton.mp isBefore
        cases fails <;> contradiction }
  have listed : HoldsRelays (Text.octetsOf "\x7b\"key\":[\"wss://a\",\"wss://b\"]\x7d")
      [("key", ["wss://a", "wss://b"])] :=
    ⟨_, rfl, rfl⟩
  have listedSucceeds : ∀ stage error, ¬ Fails (sampleSurroundings [104, 105])
      { events := none, relays := some "listed", config := none, width := none, page := .expand }
      stage error := by
    intro stage error fails
    cases fails with
    | relaysRefused named leads refused =>
        cases named
        cases leads
        exact refused _ listed
    | relaysUnread named unread =>
        cases named
        cases unread
    | _ => contradiction
  have unlistedFails : IsFirstFailure (sampleSurroundings [255])
      { events := none, relays := some "unlisted", config := none, width := none,
        page := .expand } .relays (.file "not a map from keys to lists of relays") :=
    { fails := .relaysRefused rfl rfl (parseRelays?_eq_none_iff.mp rfl)
      before := fun earlier isBefore other fails => by
        have early : earlier = .settings ∨ earlier = .events := by
          simpa [Stage.before] using isBefore
        obtain rfl | rfl := early <;> cases fails <;> contradiction }
  obtain ⟨codeOne, sameFailure, -⟩ := (run_by_stages (sampleSurroundings [255])
    ["--events", "prose", "--relays", "nothing", "--expand"]).2 _ rfl
  obtain ⟨-, -, made, -, -, fromSettings⟩ :=
    (run_by_stages (sampleSurroundings [104, 105]) ["--expand"]).2 _ rfl
  obtain ⟨-, -, madeListed, -, -, -⟩ :=
    (run_by_stages (sampleSurroundings [104, 105]) ["--relays", "listed", "--expand"]).2 _ rfl
  obtain ⟨-, sameRefusal, -⟩ :=
    (run_by_stages (sampleSurroundings [255]) ["--relays", "unlisted", "--expand"]).2 _ rfl
  obtain ⟨-, -, -, unseen, -⟩ :=
    (run_by_stages (sampleSurroundings [104, 105]) ["--note", "1"]).2 _ rfl
  obtain ⟨-, -, -, -, inSettings, -⟩ := (run_by_stages (sampleSurroundings [104, 105])
    ["--width", "-5", "--config", "plain", "--expand"]).2 _ rfl
  have narrow : HasWidthInSettings (-5) (sampleSurroundings [104, 105])
      (sampleSurroundings [104, 105])
      { events := none, relays := none, config := some "plain", width := some 0, page := .expand }
      { events := none, relays := none, config := some "narrow", width := none, page := .expand } :=
    { width := rfl
      settings := ⟨.object [(some "portals", .array [])],
        .object [(some "portals", .array []), (some "line_width", .number (.whole (-5)))],
        .named rfl rfl, rfl, .named rfl rfl,
        some (.array []) :: List.replicate 6 none, rfl, rfl⟩
      alike := fun stage other => by
        cases stage with
        | settings => contradiction
        | _ => decide
      now := rfl }
  refine ⟨codeOne.mpr ⟨_, _, proseFails⟩, ?_, ?_, listed, ?_, ?_, unseen nofun [], ?_, ?_, ?_⟩
  · exact (sameFailure _ _ proseFails _ _ _ rfl (by decide)).1
  · obtain ⟨text, -, code, -⟩ := made fun stage error fails => by
      cases fails <;> contradiction
    exact code
  · obtain ⟨text, -, code, -⟩ := madeListed listedSucceeds
    exact code
  · exact (sameRefusal _ _ unlistedFails _ _ _ rfl (by decide)).1
  · exact inSettings [.width "-5" (-5), .config "plain", .page .expand] "-5" (-5)
      (by decide +kernel) List.mem_cons_self _ _ _ rfl narrow
  · exact fromSettings 400 (by decide) rfl rfl "wide" rfl
  · exact (run_by_stages (sampleSurroundings []) ["--note"]).1.mpr rfl

end NostrCapsule.CommandLine
