import NostrCapsule.Proofs.Identifier.OneLine
import NostrCapsule.Proofs.Reference.Replacement
import NostrCapsule.Proofs.Reference.Shape

/-!
Contract: which names can hold a line feed.

Keys, identifiers and the first line of a note have none.  A profile, a title and the identifier of
an address are taken as they stand, and trimming clears their ends only.

Owns:
- `HasPlainNames`, for events and for sources, and the names that come from such events;
- tokens, identifiers and paths of the entities of a text.

Does not own: where names are shown.
-/

namespace NostrCapsule

open Text

variable {σ : Type}

/-! ## Names of targets -/

/-- An event that has no line feed inside what names are made from. -/
structure Event.HasPlainNames (event : Event) : Prop where
  id : IsOneLine event.id
  title : ∀ title ∈ Naming.usableTitle? event, IsOneLine title
  profile : ∀ name ∈ (Profile.ofContent? event.content).bind Profile.bestName?, IsOneLine name

def Source.HasPlainNames (source : Source σ) : Prop :=
  ∀ filter state events, (source.query filter state).1 = .ok events →
    ∀ event ∈ events, event.HasPlainNames

theorem Source.HasPlainNames.firstMatch {source : Source σ} (plain : source.HasPlainNames)
    {filter : Filter} {state : σ} {event : Event}
    (found : ((Lookup.firstMatch filter).run source state).1 = some event) :
    event.HasPlainNames := by
  rw [Lookup.run_firstMatch] at found
  cases answered : (source.query filter state).1 with
  | error refusal =>
      rw [answered] at found
      cases found
  | ok events =>
      rw [answered] at found
      exact plain filter state events answered event (List.mem_of_head? found)

namespace Naming

theorem isOneLine_nameFromProfile {pubkey : String} (key : IsOneLine pubkey)
    (found : Option Profile) :
    IsOneLine (nameFromProfile pubkey found) ↔
      ∀ name ∈ found.bind Profile.bestName?, IsOneLine name := by
  unfold nameFromProfile
  cases found.bind Profile.bestName? with
  | none => simp [isOneLine_shortKey key]
  | some name => simp

theorem isOneLine_storedEventName {event : Event} (plain : event.HasPlainNames) :
    IsOneLine (storedEventName event) := by
  unfold storedEventName
  dsimp only
  split
  · -- A name from the first line is one line; a line feed inside the title is never reached.
    next line found =>
      split at found
      · exact isOneLine_truncate titleLength (by decide) (isOneLine_of_firstLine? found)
      · cases found
  · cases titled : usableTitle? event with
    | none =>
        rw [Option.getD_none, isOneLine_append]
        exact ⟨by decide, isOneLine_shortId plain.id⟩
    | some title => exact plain.title title titled

theorem isOneLine_nameFromEvent {id : String} (whole : IsOneLine id) {found : Option Event}
    (plain : ∀ event ∈ found, event.HasPlainNames) : IsOneLine (nameFromEvent id found) := by
  cases found with
  | none =>
      rw [nameFromEvent, isOneLine_append]
      exact ⟨by decide, isOneLine_shortId whole⟩
  | some event => exact isOneLine_storedEventName (plain event rfl)

theorem isOneLine_nameFromAddress {coordinates : Coordinates} {found : Option Event}
    (plain : ∀ event ∈ found, event.HasPlainNames)
    (identifier : IsOneLine coordinates.identifier) :
    IsOneLine (nameFromAddress coordinates found) := by
  have author : IsOneLine (shortKey coordinates.author.text) :=
    isOneLine_shortKey coordinates.author.isOneLine_text
  unfold nameFromAddress
  dsimp only
  split
  · next title titled =>
      obtain ⟨event, present, usable⟩ := Option.bind_eq_some_iff.mp titled
      exact (plain event present).title title usable
  split
  · rw [isOneLine_append]
    exact ⟨by decide, author⟩
  split
  · exact identifier
  · rw [isOneLine_append, isOneLine_append]
    exact ⟨⟨identifier, by decide⟩, author⟩

section Plain

variable {source : Source σ}

theorem isOneLine_profileName (plain : source.HasPlainNames) {pubkey : String}
    (key : IsOneLine pubkey) (state : σ) :
    IsOneLine ((profileName pubkey).run source state).1 := by
  simp only [profileName, profile, Lookup.run_bind, Lookup.run_pure]
  rw [isOneLine_nameFromProfile key]
  intro name best
  obtain ⟨found, read, held⟩ := Option.bind_eq_some_iff.mp best
  obtain ⟨event, answered, content⟩ := Option.bind_eq_some_iff.mp read
  apply (plain.firstMatch answered).profile
  rw [content]
  exact held

theorem isOneLine_eventName (plain : source.HasPlainNames) {id : String} (whole : IsOneLine id)
    (state : σ) : IsOneLine ((eventName id).run source state).1 := by
  simp only [eventName, Lookup.fetchEvent, Lookup.run_bind, Lookup.run_pure]
  exact isOneLine_nameFromEvent whole fun event answered => plain.firstMatch answered

theorem isOneLine_addressName (plain : source.HasPlainNames) {coordinates : Coordinates}
    (identifier : IsOneLine coordinates.identifier) (state : σ) :
    IsOneLine ((addressName coordinates).run source state).1 := by
  unfold addressName
  split
  · exact isOneLine_nameFromAddress (fun _ answered => nomatch answered) identifier
  · simp only [Lookup.run_bind, Lookup.run_pure]
    exact isOneLine_nameFromAddress (fun event answered => plain.firstMatch answered) identifier

/-- Over plain events, a name can only be broken by the identifier of an address. -/
theorem isOneLine_pointerName (plain : source.HasPlainNames) {pointer : Pointer}
    (identifier : ∀ coordinates relays, pointer = .address coordinates relays →
      IsOneLine coordinates.identifier) (state : σ) :
    IsOneLine ((pointerName pointer).run source state).1 := by
  cases pointer with
  | pubkey key => exact isOneLine_profileName plain key.isOneLine_text state
  | profile key relays => exact isOneLine_profileName plain key.isOneLine_text state
  | note id => exact isOneLine_eventName plain id.isOneLine_text state
  | event id relays author kind => exact isOneLine_eventName plain id.isOneLine_text state
  | address coordinates relays =>
      exact isOneLine_addressName plain (identifier coordinates relays rfl) state

end Plain

end Naming

/-! ## Tokens in a text -/

namespace Reference

theorem IsToken.lineFeed_not_mem {token : List Char} (isToken : IsToken token) :
    '\n' ∉ token := by
  obtain ⟨name, listed, body, rfl, _, inside⟩ := isToken
  have plain : ∀ name ∈ names, '\n' ∉ name.toList := by decide
  intro present
  rcases List.mem_append.mp present with inName | behind
  · exact plain name listed inName
  · rcases List.mem_cons.mp behind with separator | inBody
    · exact absurd separator (by decide)
    · exact absurd (inside _ inBody) (by decide)

theorem isOneLine_of_mem_pieces {characters : List Char} {token : String}
    (member : .reference token ∈ pieces characters) : IsOneLine token := by
  fun_induction pieces characters with
  | case1 => cases member
  | case2 character later front rest found inductionHypothesis =>
      rcases List.mem_cons.mp member with same | behind
      · cases same
        rw [isOneLine_ofList]
        exact (referenceAt?_eq_some_iff.mp found).2.1.lineFeed_not_mem
      · exact inductionHypothesis behind
  | case3 character later _ inductionHypothesis =>
      rcases List.mem_cons.mp member with same | behind
      · cases same
      · exact inductionHypothesis behind

theorem isOneLine_token_of_mem_scan {text : String} {found : ReferenceMatch}
    (member : found ∈ scan text) : IsOneLine found.token := by
  obtain ⟨piece, present, named⟩ := List.mem_filterMap.mp (token_mem_of_mem_scan member)
  cases piece with
  | plain character => cases named
  | reference token =>
      cases named
      exact isOneLine_of_mem_pieces present

end Reference

/-! ## Entities of a text -/

namespace Entity

variable {format : Entity → String} {text : String} {source : Source σ} {state : σ}
  {entity : Entity}

theorem exists_resolve_of_mem
    (member : entity ∈ ((expand format text).run source state).1.entities) :
    ∃ found ∈ Reference.scan text, ∃ asked,
      ((resolve found.token).run source asked).1 = .ok entity := by
  obtain ⟨kept, keptAre, each, entities, _⟩ := exists_kept_expand format text source state
  rw [entities] at member
  obtain ⟨pair, present, rfl⟩ := List.mem_map.mp member
  have listed : pair.1 ∈ kept.map Prod.fst := List.mem_map_of_mem present
  rw [keptAre] at listed
  exact ⟨pair.1, (List.mem_filter.mp listed).1, (each pair present).1⟩

theorem isOneLine_identifier_of_mem
    (member : entity ∈ ((expand format text).run source state).1.entities) :
    IsOneLine entity.identifier := by
  obtain ⟨found, listed, asked, resolved⟩ := exists_resolve_of_mem member
  obtain ⟨_, _, _, _, spelled, _⟩ := of_run_resolve resolved
  rw [identifier_of_spelling spelled]
  exact Reference.isOneLine_token_of_mem_scan listed

theorem isOneLine_linkPath_of_mem
    (member : entity ∈ ((expand format text).run source state).1.entities) :
    IsOneLine entity.linkPath := by
  obtain ⟨found, _, asked, resolved⟩ := exists_resolve_of_mem member
  obtain ⟨pointer, _, _, path, _⟩ := of_run_resolve resolved
  rw [path]
  exact pointer.isOneLine_linkPath

/-- Over plain events, the name of an entity can only be broken by the identifier of an address. -/
theorem isOneLine_displayName_of_mem (plain : source.HasPlainNames)
    (identifiers : ∀ found ∈ Reference.scan text, ∀ coordinates relays,
      Pointer.ofToken found.token = .ok (.address coordinates relays) →
      IsOneLine coordinates.identifier)
    (member : entity ∈ ((expand format text).run source state).1.entities) :
    IsOneLine entity.displayName := by
  obtain ⟨found, listed, asked, resolved⟩ := exists_resolve_of_mem member
  obtain ⟨pointer, read, _, _, _, named⟩ := of_run_resolve resolved
  rw [named]
  apply Naming.isOneLine_pointerName plain
  rintro coordinates relays rfl
  exact identifiers found listed coordinates relays read

end Entity

end NostrCapsule
