import Mathlib.Data.List.Nodup
import NostrCapsule.CommandLine.Options

/-!
Contract: the arguments that are understood, and what they ask for.

Arguments are understood if they are groups, one after the other, of which no two take the same
place and one asks for a page.  Reading goes from left to right and stops at the first group whose
place is taken; what it has read so far is what the groups up to there say, in any order.

Owns:
- `Slot`, the place of a group, and `Group.contentAt?`;
- `Draft.Reflects`, the invariant of reading, with its step and its run;
- `Splits` and `IsAdmissible`, the grammar, and `Options.parse?_grammar`.

Does not own: the reading of numbers.
-/

namespace NostrCapsule.CommandLine

/-- A place in the options, which one group can take. -/
inductive Slot where
  | events
  | relays
  | config
  | width
  | page
deriving DecidableEq, Repr

def Slot.Content : Slot → Type
  | .events => String
  | .relays => String
  | .config => String
  | .width => Nat
  | .page => PageRequest

namespace Group

def slot : Group → Slot
  | .events _ => .events
  | .relays _ => .relays
  | .config _ => .config
  | .width _ _ => .width
  | .page _ => .page

def contentAt? : (slot : Slot) → Group → Option slot.Content
  | .events, .events path => some path
  | .relays, .relays path => some path
  | .config, .config path => some path
  | .width, .width _ value => some value.toNat
  | .page, .page request => some request
  | _, _ => none

theorem isSome_contentAt?_iff {slot : Slot} {group : Group} :
    (group.contentAt? slot).isSome = true ↔ group.slot = slot := by
  cases slot <;> cases group <;>
    first | exact ⟨fun _ => rfl, fun _ => rfl⟩ | exact ⟨nofun, nofun⟩

/-- A group is what it puts at its place, but for the text of a width. -/
theorem eq_of_contentAt?_eq {group other : Group} (notWidth : group.slot ≠ .width)
    (same : other.contentAt? group.slot = group.contentAt? group.slot) : other = group := by
  cases group with
  | width text value => exact absurd rfl notWidth
  | _ =>
      cases other <;> cases same
      rfl

def IsReadable : Group → Prop
  | .width text value => Text.signed64? text = some value
  | _ => True

instance : DecidablePred IsReadable
  | .width text value => inferInstanceAs (Decidable (Text.signed64? text = some value))
  | .events _ | .relays _ | .config _ | .page _ => inferInstanceAs (Decidable True)

end Group

/-! ## Reading groups -/

namespace Draft

def at? (draft : Draft) : (slot : Slot) → Option slot.Content
  | .events => draft.events
  | .relays => draft.relays
  | .config => draft.config
  | .width => draft.width
  | .page => draft.page

def put (draft : Draft) : Group → Draft
  | .events path => { draft with events := some path }
  | .relays path => { draft with relays := some path }
  | .config path => { draft with config := some path }
  | .width _ value => { draft with width := some value.toNat }
  | .page request => { draft with page := some request }

theorem at?_put (draft : Draft) (group : Group) (slot : Slot) :
    (draft.put group).at? slot = (group.contentAt? slot).or (draft.at? slot) := by
  cases slot <;> cases group <;> rfl

theorem add?_eq (draft : Draft) (group : Group) :
    draft.add? group = if (draft.at? group.slot).isSome then none else some (draft.put group) := by
  have filled {α : Type} (place : Option α) (value : α) (next : Option α → Draft) :
      (do pure (next (← fillOnce place value))) =
        if place.isSome then none else some (next (some value)) := by
    cases place <;> rfl
  cases group <;> exact filled _ _ _

/-- A draft has at each place what one of the groups puts there. -/
def Reflects (draft : Draft) (groups : List Group) : Prop :=
  ∀ slot content, draft.at? slot = some content ↔
    ∃ group ∈ groups, group.contentAt? slot = some content

section Reflects

variable {draft : Draft} {groups : List Group} {group : Group}

theorem reflects_nil : ({} : Draft).Reflects [] := by
  intro slot content
  cases slot <;> simp [at?]

theorem Reflects.isSome_at?_iff (reflects : draft.Reflects groups) {slot : Slot} :
    (draft.at? slot).isSome = true ↔ slot ∈ groups.map Group.slot := by
  rw [Option.isSome_iff_exists, List.mem_map]
  constructor
  · rintro ⟨content, stands⟩
    obtain ⟨group, member, carries⟩ := (reflects slot content).mp stands
    exact ⟨group, member, Group.isSome_contentAt?_iff.mp (by rw [carries]; rfl)⟩
  · rintro ⟨group, member, placed⟩
    obtain ⟨content, carries⟩ := Option.isSome_iff_exists.mp (Group.isSome_contentAt?_iff.mpr placed)
    exact ⟨content, (reflects slot content).mpr ⟨group, member, carries⟩⟩

theorem Reflects.at?_slot_iff (reflects : draft.Reflects groups) (group : Group)
    (notWidth : group.slot ≠ .width) :
    draft.at? group.slot = group.contentAt? group.slot ↔ group ∈ groups := by
  obtain ⟨content, carries⟩ :=
    Option.isSome_iff_exists.mp (Group.isSome_contentAt?_iff.mpr (rfl : group.slot = _))
  rw [carries, reflects group.slot content]
  constructor
  · rintro ⟨other, member, same⟩
    rwa [← Group.eq_of_contentAt?_eq notWidth (same.trans carries.symm)]
  · intro member
    exact ⟨group, member, carries⟩

/-- One step: a group whose place is free is taken in. -/
theorem Reflects.add?_of_free (reflects : draft.Reflects groups)
    (free : group.slot ∉ groups.map Group.slot) :
    ∃ next, draft.add? group = some next ∧ next.Reflects (groups ++ [group]) := by
  have empty : ¬ (draft.at? group.slot).isSome = true := fun filled =>
    free (reflects.isSome_at?_iff.mp filled)
  refine ⟨draft.put group, by rw [add?_eq, if_neg empty], fun slot content => ?_⟩
  rw [at?_put]
  simp only [List.mem_append, List.mem_singleton, or_and_right, exists_or, exists_eq_left]
  cases carried : group.contentAt? slot with
  | none => simpa using reflects slot content
  | some other =>
      have placed : group.slot = slot := Group.isSome_contentAt?_iff.mp (by rw [carried]; rfl)
      have nothing : ¬ ∃ earlier ∈ groups, earlier.contentAt? slot = some content := by
        rw [← reflects slot content]
        intro stands
        rw [placed, stands] at empty
        exact empty rfl
      rw [Option.some_or]
      exact ⟨.inr, fun found => found.resolve_left nothing⟩

theorem Reflects.add?_of_taken (reflects : draft.Reflects groups)
    (taken : group.slot ∈ groups.map Group.slot) : draft.add? group = none := by
  rw [add?_eq, if_pos (reflects.isSome_at?_iff.mpr taken)]

/-- A whole run: groups that take distinct places are all taken in. -/
theorem Reflects.exists_foldlM_add? (reflects : draft.Reflects groups) {later : List Group}
    (distinct : ((groups ++ later).map Group.slot).Nodup) :
    ∃ final, later.foldlM add? draft = some final ∧ final.Reflects (groups ++ later) := by
  induction later generalizing draft groups with
  | nil => exact ⟨draft, rfl, by rwa [List.append_nil]⟩
  | cons group rest inductionHypothesis =>
      have regrouped : groups ++ group :: rest = groups ++ [group] ++ rest := by simp
      have free : group.slot ∉ groups.map Group.slot := by
        rw [List.map_append, List.nodup_append] at distinct
        intro taken
        exact distinct.2.2 _ taken _ List.mem_cons_self rfl
      obtain ⟨next, added, reflectsNext⟩ := reflects.add?_of_free free
      rw [regrouped] at distinct ⊢
      rw [List.foldlM_cons, added]
      exact inductionHypothesis reflectsNext distinct

theorem Reflects.nodup_of_foldlM_add? (reflects : draft.Reflects groups)
    (distinct : (groups.map Group.slot).Nodup) {later : List Group} {final : Draft}
    (read : later.foldlM add? draft = some final) :
    ((groups ++ later).map Group.slot).Nodup := by
  induction later generalizing draft groups with
  | nil => rwa [List.append_nil]
  | cons group rest inductionHypothesis =>
      rw [List.foldlM_cons] at read
      by_cases taken : group.slot ∈ groups.map Group.slot
      · rw [reflects.add?_of_taken taken] at read
        cases read
      · obtain ⟨next, added, reflectsNext⟩ := reflects.add?_of_free taken
        rw [added] at read
        have extended : ((groups ++ [group]).map Group.slot).Nodup := by
          rw [List.map_append, List.map_singleton, ← List.concat_eq_append]
          exact distinct.concat taken
        have regrouped : groups ++ group :: rest = groups ++ [group] ++ rest := by simp
        rw [regrouped]
        exact inductionHypothesis reflectsNext extended read

end Reflects

end Draft

/-! ## Arguments as groups -/

/-- Arguments are the spellings of groups, one after the other. -/
def Splits (arguments : List String) (groups : List Group) : Prop :=
  arguments = groups.flatMap Group.arguments ∧ ∀ group ∈ groups, group.IsReadable

instance (arguments : List String) (groups : List Group) : Decidable (Splits arguments groups) :=
  inferInstanceAs (Decidable (_ ∧ _))

theorem Group.of_ofValue? {option value : String} {group : Group}
    (found : ofValue? option value = some group) :
    group.arguments = [option, value] ∧ group.IsReadable := by
  unfold ofValue? at found
  split at found
  case h_4 =>
    obtain ⟨number, reads, rfl⟩ := Option.map_eq_some_iff.mp found
    exact ⟨rfl, reads⟩
  case h_8 => cases found
  all_goals
    cases found
    exact ⟨rfl, trivial⟩

namespace Draft

theorem read?_arguments_append (draft : Draft) {group : Group} (readable : group.IsReadable)
    (rest : List String) :
    draft.read? (group.arguments ++ rest) = (draft.add? group).bind fun next => next.read? rest := by
  cases group with
  | events path => simp [Group.arguments, read?, Group.ofValue?]
  | relays path => simp [Group.arguments, read?, Group.ofValue?]
  | config path => simp [Group.arguments, read?, Group.ofValue?]
  | width text value =>
      have reads : Text.signed64? text = some value := readable
      simp [Group.arguments, read?, Group.ofValue?, reads]
  | page request => cases request <;> simp [Group.arguments, read?, Group.ofValue?]

theorem read?_eq_foldlM {arguments : List String} {groups : List Group}
    (splits : Splits arguments groups) (draft : Draft) :
    draft.read? arguments = groups.foldlM add? draft := by
  obtain ⟨rfl, readable⟩ := splits
  induction groups generalizing draft with
  | nil => rfl
  | cons group rest inductionHypothesis =>
      rw [List.forall_mem_cons] at readable
      rw [List.flatMap_cons, draft.read?_arguments_append readable.1, List.foldlM_cons]
      exact congrArg _ (funext fun next => inductionHypothesis next readable.2)

/-- Only groups are read. -/
theorem exists_splits_of_read? {draft final : Draft} {arguments : List String}
    (read : draft.read? arguments = some final) : ∃ groups, Splits arguments groups := by
  fun_induction read? draft arguments with
  | case1 draft => exact ⟨[], rfl, by simp⟩
  | case2 draft rest inductionHypothesis =>
      obtain ⟨next, _, read⟩ := Option.bind_eq_some_iff.mp read
      obtain ⟨groups, rfl, readable⟩ := inductionHypothesis next read
      exact ⟨.page .expand :: groups, rfl, List.forall_mem_cons.mpr ⟨trivial, readable⟩⟩
  | case3 draft option value rest _ inductionHypothesis =>
      obtain ⟨group, found, read⟩ := Option.bind_eq_some_iff.mp read
      obtain ⟨next, _, read⟩ := Option.bind_eq_some_iff.mp read
      obtain ⟨spelled, readsToo⟩ := Group.of_ofValue? found
      obtain ⟨groups, rfl, readable⟩ := inductionHypothesis next read
      refine ⟨group :: groups, ?_, List.forall_mem_cons.mpr ⟨readsToo, readable⟩⟩
      rw [List.flatMap_cons, spelled]
      rfl
  | case4 => cases read

end Draft

/-! ## The grammar -/

/-- No place is taken twice, and that of the page is taken. -/
def IsAdmissible (groups : List Group) : Prop :=
  (∀ slot, (groups.map Group.slot).count slot ≤ 1) ∧ (groups.map Group.slot).count .page = 1

theorem isAdmissible_iff {groups : List Group} :
    IsAdmissible groups ↔
      (groups.map Group.slot).Nodup ∧ Slot.page ∈ groups.map Group.slot := by
  rw [IsAdmissible, ← List.nodup_iff_count_le_one]
  refine and_congr_right fun distinct => ?_
  rw [← List.count_pos_iff]
  have once := List.nodup_iff_count_le_one.mp distinct .page
  omega

instance (groups : List Group) : Decidable (IsAdmissible groups) :=
  decidable_of_iff _ isAdmissible_iff.symm

namespace Options

/-- Options are what groups ask for: each is given exactly if a group gives it. -/
structure Reflects (options : Options) (groups : List Group) : Prop where
  events : ∀ path, options.events = some path ↔ .events path ∈ groups
  relays : ∀ path, options.relays = some path ↔ .relays path ∈ groups
  config : ∀ path, options.config = some path ↔ .config path ∈ groups
  width : ∀ size : Nat, options.width = some size ↔
    ∃ text value, .width text value ∈ groups ∧ (size : Int) = max value 0
  page : ∀ request, options.page = request ↔ .page request ∈ groups

theorem Reflects.unique {left right : Options} {groups others : List Group}
    (reflects : left.Reflects groups) (reflectsToo : right.Reflects others)
    (same : ∀ group, group ∈ groups ↔ group ∈ others) : left = right := by
  have events : left.events = right.events := Option.ext fun path => by
    rw [reflects.events, reflectsToo.events, same]
  have relays : left.relays = right.relays := Option.ext fun path => by
    rw [reflects.relays, reflectsToo.relays, same]
  have config : left.config = right.config := Option.ext fun path => by
    rw [reflects.config, reflectsToo.config, same]
  have width : left.width = right.width := Option.ext fun size => by
    simp only [reflects.width, reflectsToo.width, same]
  have page : left.page = right.page := by
    rw [reflects.page, same, ← reflectsToo.page]
  cases left
  cases right
  simp only at events relays config width page
  rw [events, relays, config, width, page]

end Options

/-- A draft with a page makes options, which ask for the same. -/
theorem Draft.Reflects.exists_options? {draft : Draft} {groups : List Group}
    (reflects : draft.Reflects groups) (paged : Slot.page ∈ groups.map Group.slot) :
    ∃ options, draft.options? = some options ∧ options.Reflects groups := by
  obtain ⟨page, hasPage⟩ := Option.isSome_iff_exists.mp (reflects.isSome_at?_iff.mpr paged)
  refine ⟨_, Option.map_eq_some_iff.mpr ⟨page, hasPage, rfl⟩, ?_, ?_, ?_, ?_, ?_⟩
  · exact fun path => reflects.at?_slot_iff (.events path) nofun
  · exact fun path => reflects.at?_slot_iff (.relays path) nofun
  · exact fun path => reflects.at?_slot_iff (.config path) nofun
  · intro size
    refine (reflects .width size).trans ⟨?_, ?_⟩
    · rintro ⟨group, member, carries⟩
      cases group <;> cases carries
      exact ⟨_, _, member, Int.ofNat_toNat _⟩
    · rintro ⟨text, value, member, same⟩
      exact ⟨_, member, congrArg some (show value.toNat = size by omega)⟩
  · intro request
    have stands := reflects.at?_slot_iff (.page request) nofun
    rw [← stands]
    exact ⟨fun same => same ▸ hasPage, fun same => Option.some.inj (hasPage.symm.trans same)⟩

namespace Options

variable {arguments : List String} {groups : List Group}

theorem parse?_of_splits (splits : Splits arguments groups) :
    parse? arguments = (groups.foldlM Draft.add? {}).bind Draft.options? := by
  rw [parse?, Draft.read?_eq_foldlM splits]

/-- Groups with distinct places and a page among them are understood. -/
theorem exists_parse?_of_admissible (splits : Splits arguments groups)
    (admissible : IsAdmissible groups) :
    ∃ options, parse? arguments = some options ∧ options.Reflects groups := by
  obtain ⟨distinct, paged⟩ := isAdmissible_iff.mp admissible
  obtain ⟨final, read, reflects⟩ := Draft.reflects_nil.exists_foldlM_add? distinct
  obtain ⟨options, complete, reflectsToo⟩ := reflects.exists_options? paged
  exact ⟨options, by rw [parse?_of_splits splits, read]; exact complete, reflectsToo⟩

theorem admissible_of_parse? (splits : Splits arguments groups) {options : Options}
    (understood : parse? arguments = some options) : IsAdmissible groups := by
  rw [parse?_of_splits splits] at understood
  obtain ⟨final, read, complete⟩ := Option.bind_eq_some_iff.mp understood
  have distinct := Draft.reflects_nil.nodup_of_foldlM_add? List.nodup_nil read
  obtain ⟨other, readToo, reflects⟩ := Draft.reflects_nil.exists_foldlM_add? distinct
  cases read.symm.trans readToo
  obtain ⟨page, hasPage, _⟩ := Option.map_eq_some_iff.mp complete
  exact isAdmissible_iff.mpr ⟨distinct,
    reflects.isSome_at?_iff.mp (Option.isSome_iff_exists.mpr ⟨page, hasPage⟩)⟩

theorem parse?_of_perm (splits : Splits arguments groups) {reordered : List Group}
    (same : groups.Perm reordered) :
    parse? (reordered.flatMap Group.arguments) = parse? arguments := by
  have splitsToo : Splits (reordered.flatMap Group.arguments) reordered :=
    ⟨rfl, fun group member => splits.2 group (same.mem_iff.mpr member)⟩
  have admissibleIff : IsAdmissible groups ↔ IsAdmissible reordered := by
    simp only [IsAdmissible, (same.map Group.slot).count_eq]
  by_cases admissible : IsAdmissible groups
  · obtain ⟨options, understood, reflects⟩ := exists_parse?_of_admissible splits admissible
    obtain ⟨others, understoodToo, reflectsToo⟩ :=
      exists_parse?_of_admissible splitsToo (admissibleIff.mp admissible)
    rw [understood, understoodToo, reflects.unique reflectsToo fun _ => same.mem_iff]
  · have refused : parse? arguments = none := Option.eq_none_iff_forall_ne_some.mpr
      fun _ understood => admissible (admissible_of_parse? splits understood)
    rw [refused]
    exact Option.eq_none_iff_forall_ne_some.mpr fun _ understood =>
      admissible (admissibleIff.mpr (admissible_of_parse? splitsToo understood))

/-- Arguments are understood exactly if they are the spellings of groups that take distinct places,
one of them a page.  What they ask for is decided by the set of groups: a source is given by its
group, a width is that of its group or zero if that is negative, and groups may come in any
order. -/
theorem parse?_grammar (arguments : List String) :
    ((∃ options, parse? arguments = some options) ↔
      ∃ groups, Splits arguments groups ∧ IsAdmissible groups) ∧
    ∀ groups, Splits arguments groups →
      (IsAdmissible groups →
        ∃ options, parse? arguments = some options ∧ options.Reflects groups) ∧
      ∀ reordered, groups.Perm reordered →
        parse? (reordered.flatMap Group.arguments) = parse? arguments := by
  refine ⟨⟨?_, ?_⟩, fun groups splits => ⟨exists_parse?_of_admissible splits,
    fun reordered => parse?_of_perm splits⟩⟩
  · rintro ⟨options, understood⟩
    obtain ⟨final, read, _⟩ := Option.bind_eq_some_iff.mp understood
    obtain ⟨groups, splits⟩ := Draft.exists_splits_of_read? read
    exact ⟨groups, splits, admissible_of_parse? splits understood⟩
  · rintro ⟨groups, splits, admissible⟩
    obtain ⟨options, understood, _⟩ := exists_parse?_of_admissible splits admissible
    exact ⟨options, understood⟩

/-- Values that look like options, and a width below zero. -/
theorem parse?_grammar_lookalikes :
    Splits ["--width", "-5", "--events", "--note", "--thread", "--expand"]
        [.width "-5" (-5), .events "--note", .page (.thread "--expand")] ∧
      IsAdmissible [.width "-5" (-5), .events "--note", .page (.thread "--expand")] ∧
      (∃ options : Options,
        parse? ["--width", "-5", "--events", "--note", "--thread", "--expand"] = some options ∧
          options.Reflects [.width "-5" (-5), .events "--note", .page (.thread "--expand")] ∧
          options.width = some 0 ∧ options.page = .thread "--expand") ∧
      parse? ["--thread", "--expand", "--events", "--note", "--width", "-5"] =
        parse? ["--width", "-5", "--events", "--note", "--thread", "--expand"] := by
  have splits : Splits ["--width", "-5", "--events", "--note", "--thread", "--expand"]
      [.width "-5" (-5), .events "--note", .page (.thread "--expand")] := by decide +kernel
  have admissible :
      IsAdmissible [.width "-5" (-5), .events "--note", .page (.thread "--expand")] := by decide
  obtain ⟨understood, reordered⟩ := (parse?_grammar _).2 _ splits
  obtain ⟨options, parsed, reflects⟩ := understood admissible
  refine ⟨splits, admissible, ⟨options, parsed, reflects, ?_, ?_⟩,
    reordered _ (List.reverse_perm _).symm⟩
  · exact (reflects.width 0).mpr ⟨_, _, List.mem_cons_self, rfl⟩
  · exact (reflects.page _).mpr (by decide)

end Options

end NostrCapsule.CommandLine
