import NostrCapsule.Proofs.CommandLine.Grammar
import NostrCapsule.Proofs.Json.Numeral
import NostrCapsule.Settings

/-!
Contract: the line width, among the arguments and in settings.

Owns:
- `Settings.HasWidth`, a record of settings with the width of another, and what is read from it;
- `Settings.widthOnly`, the text of settings with a width and nothing else;
- arguments with a width or with settings in front of them.

Does not own: how pages are broken to a width.
-/

namespace NostrCapsule

namespace Settings

/-- One record of settings is another one with its line width replaced. -/
def HasWidth (value : Int) (base widened : Json) : Prop :=
  ∃ fields, base.fields? fieldNames = some fields ∧
    widened.fields? fieldNames =
      some (fields.set (fieldNames.idxOf "line_width") (some (.number (.whole value))))

theorem nonNegative?_whole {value : Int} (within : Text.IsSigned64 value) :
    nonNegative? (.number (.whole value)) = some value.toNat := by
  unfold Text.IsSigned64 at within
  have bounds : -(Text.signedLimit : Int) ≤ value ∧ value ≤ (Text.signedLimit : Int) - 1 := by
    omega
  rw [nonNegative?, Json.asSigned64?, Json.asWhole?, if_pos bounds]
  rfl

theorem ofJson?_of_hasWidth {value : Int} (within : Text.IsSigned64 value) {base widened : Json}
    (replaced : HasWidth value base widened) {settings : Settings}
    (read : ofJson? base = some settings) :
    ofJson? widened = some { settings with lineWidth := value.toNat } := by
  obtain ⟨fields, ofBase, ofWidened⟩ := replaced
  have place : fieldNames.idxOf "line_width" = 5 := by decide
  have width : Json.optional? 0 nonNegative? (some (.number (.whole value))) = some value.toNat :=
    nonNegative?_whole within
  rw [place] at ofWidened
  simp only [ofJson?, ofBase, Option.bind_eq_bind, Option.bind_some] at read
  split at read
  case h_2 => cases read
  case h_1 portals indent depth length ellipsis _ hints =>
    simp only [List.set] at ofWidened
    simp only [ofJson?, ofWidened, Option.bind_eq_bind, Option.bind_some]
    simp only [Option.bind_eq_some_iff, Option.pure_def] at read
    obtain ⟨ownPortals, readPortals, ownIndent, readIndent, ownDepth, readDepth, ownLength,
      readLength, ownEllipsis, readEllipsis, _, _, ownHints, readHints, built⟩ := read
    cases built
    simp [readPortals, readIndent, readDepth, readLength, readEllipsis, readHints, width]

def widthOnly (value : Int) : String :=
  "\x7b\"line_width\":" ++ toString value ++ "\x7d"

theorem parse?_widthOnly (value : Int) :
    Json.parse? (widthOnly value) =
      some (.object [(some "line_width", .number (.whole value))]) := by
  have tokens : Json.tokens? (widthOnly value) = some
      [.openObject, .text (some "line_width"), .colon, .number (.whole value), .closeObject] := by
    have before : Json.stepAll? .between "\x7b\"line_width\":".toList =
        some (.between, [.openObject, .text (some "line_width"), .colon]) := by decide +kernel
    rw [Json.tokens?, widthOnly, String.toList_append, String.toList_append, List.append_assoc,
      Json.tokensFrom?_append before]
    exact congrArg (Option.map _) (Json.tokensFrom?_toString_append value (by decide) [])
  rw [Json.parse?, tokens]
  rfl

theorem hasWidth_widthOnly (value : Int) :
    HasWidth value (.object []) (.object [(some "line_width", .number (.whole value))]) :=
  ⟨List.replicate 7 none, rfl, rfl⟩

end Settings

/-! ## In front of other arguments -/

namespace CommandLine.Options

variable {arguments : List String} {options : Options}

theorem reflects_of_parse? {groups : List Group} (splits : Splits arguments groups)
    (understood : parse? arguments = some options) : options.Reflects groups := by
  obtain ⟨others, understoodToo, reflects⟩ :=
    exists_parse?_of_admissible splits (admissible_of_parse? splits understood)
  cases understood.symm.trans understoodToo
  exact reflects

theorem exists_groups_of_parse? (understood : parse? arguments = some options) :
    ∃ groups, Splits arguments groups ∧ IsAdmissible groups ∧ options.Reflects groups := by
  obtain ⟨final, read, _⟩ := Option.bind_eq_some_iff.mp understood
  obtain ⟨groups, splits⟩ := Draft.exists_splits_of_read? read
  exact ⟨groups, splits, admissible_of_parse? splits understood,
    reflects_of_parse? splits understood⟩

/-- A group whose place is free may stand in front. -/
theorem exists_parse?_cons {groups : List Group} (splits : Splits arguments groups)
    (admissible : IsAdmissible groups) (group : Group) (readable : group.IsReadable)
    (free : ∀ other ∈ groups, other.slot ≠ group.slot) :
    ∃ extended, parse? (group.arguments ++ arguments) = some extended ∧
      extended.Reflects (group :: groups) := by
  have splitsToo : Splits (group.arguments ++ arguments) (group :: groups) :=
    ⟨by rw [splits.1, List.flatMap_cons], List.forall_mem_cons.mpr ⟨readable, splits.2⟩⟩
  obtain ⟨distinct, paged⟩ := isAdmissible_iff.mp admissible
  refine exists_parse?_of_admissible splitsToo (isAdmissible_iff.mpr ⟨?_, ?_⟩)
  · exact List.nodup_cons.mpr ⟨by simpa using free, distinct⟩
  · exact List.mem_cons_of_mem _ paged

theorem parse?_width_cons (understood : parse? arguments = some options)
    (missing : options.width = none) {text : String} {value : Int}
    (reads : Text.signed64? text = some value) :
    parse? ("--width" :: text :: arguments) = some { options with width := some value.toNat } := by
  obtain ⟨groups, splits, admissible, reflects⟩ := exists_groups_of_parse? understood
  have noWidth : ∀ text value, Group.width text value ∉ groups := fun text value member => by
    have given := (reflects.width _).mpr ⟨text, value, member, Int.ofNat_toNat value⟩
    exact nomatch missing.symm.trans given
  have free : ∀ other ∈ groups, other.slot ≠ .width := by
    intro other member placed
    cases other <;> cases placed
    exact noWidth _ _ member
  obtain ⟨extended, understoodToo, reflectsToo⟩ :=
    exists_parse?_cons splits admissible (.width text value) reads free
  have widened : ({ options with width := some value.toNat } : Options).Reflects
      (.width text value :: groups) :=
    { events := by simp [reflects.events]
      relays := by simp [reflects.relays]
      config := by simp [reflects.config]
      page := by simp [reflects.page]
      width := fun size => by
        simp [noWidth]
        omega }
  exact understoodToo.trans (congrArg some (reflectsToo.unique widened fun _ => Iff.rfl))

theorem parse?_config_cons (understood : parse? arguments = some options)
    (missing : options.config = none) (path : String) :
    parse? ("--config" :: path :: arguments) = some { options with config := some path } := by
  obtain ⟨groups, splits, admissible, reflects⟩ := exists_groups_of_parse? understood
  have noConfig : ∀ path, Group.config path ∉ groups := fun path member =>
    nomatch missing.symm.trans ((reflects.config path).mpr member)
  have free : ∀ other ∈ groups, other.slot ≠ .config := by
    intro other member placed
    cases other <;> cases placed
    exact noConfig _ member
  obtain ⟨extended, understoodToo, reflectsToo⟩ :=
    exists_parse?_cons splits admissible (.config path) trivial free
  have configured : ({ options with config := some path } : Options).Reflects
      (.config path :: groups) :=
    { events := by simp [reflects.events]
      relays := by simp [reflects.relays]
      config := fun other => by simp [noConfig, eq_comm]
      page := by simp [reflects.page]
      width := fun size => by simp [reflects.width] }
  exact understoodToo.trans (congrArg some (reflectsToo.unique configured fun _ => Iff.rfl))

end CommandLine.Options

end NostrCapsule
