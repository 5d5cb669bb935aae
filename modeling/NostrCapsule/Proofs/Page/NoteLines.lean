import NostrCapsule.Page.Document
import NostrCapsule.Proofs.Engagement.Reactions
import NostrCapsule.Proofs.Page.LinkLines
import NostrCapsule.Proofs.Reference.Names
import NostrCapsule.Store.Loading

/-!
Contract: which data from outside can add lines to the page of a note.

The body apart, each entry of the page is meant as one line.  Ages, paths, tokens and the links to
portals are made so that they are.  A title, a name and the content of a reaction are trimmed and
then stand as they are, so a line feed inside of them goes into the page.

Owns:
- ages as one line;
- `isOneLine_noteParts_iff`, which says when each entry is one line, and what cannot be broken.

Does not own: the body, and the lines into which a page is reflowed.
-/

namespace NostrCapsule

open Text

/-! ## Ages -/

namespace Date

theorem isOneLine_padded (width value : Nat) : IsOneLine (padded width value) := by
  rw [padded, isOneLine_append, isOneLine_ofList]
  constructor
  · intro present
    exact absurd (List.eq_of_mem_replicate present) (by decide)
  · exact isOneLine_toString_nat value

theorem isOneLine_yearText (year : Int) : IsOneLine (yearText year) := by
  have digits := isOneLine_padded 4 year.natAbs
  have minus : IsOneLine "-" := by decide
  have plus : IsOneLine "+" := by decide
  unfold yearText
  dsimp only
  split
  · exact isOneLine_append.mpr ⟨minus, digits⟩
  split
  · exact isOneLine_append.mpr ⟨plus, digits⟩
  · exact digits

theorem isOneLine_text (date : Date) : IsOneLine date.text := by
  have dash : IsOneLine "-" := by decide
  unfold text
  simp only [isOneLine_append]
  exact ⟨⟨⟨⟨isOneLine_yearText _, dash⟩, isOneLine_padded _ _⟩, dash⟩, isOneLine_padded _ _⟩

end Date

theorem isOneLine_dateText (seconds : Int) : IsOneLine (dateText seconds) := by
  unfold dateText
  split
  · exact Date.isOneLine_text _
  · exact isOneLine_toString_int seconds

theorem isOneLine_ageText (createdAt now : Int) : IsOneLine (ageText createdAt now) := by
  have counted (count : Int) {unit : String} (plain : IsOneLine unit) :
      IsOneLine (toString count ++ unit) :=
    isOneLine_append.mpr ⟨isOneLine_toString_int count, plain⟩
  unfold ageText
  dsimp only
  split
  · decide
  split
  · exact counted _ (by decide)
  split
  · exact counted _ (by decide)
  split
  · exact counted _ (by decide)
  · exact isOneLine_dateText createdAt

namespace Edition

/-! ## Entries -/

theorem isOneLine_noteHeading {event : Event} {author : String} (name : IsOneLine author) :
    IsOneLine (noteHeading event author) ↔
      ∀ title ∈ event.title?.bind trimmed?, IsOneLine title := by
  have mark : IsOneLine "# " := by decide
  have note : IsOneLine "Note by " := by decide
  unfold noteHeading
  cases event.title?.bind trimmed? with
  | none => simp [mark, note, name]
  | some title => simp [mark]

theorem isOneLine_of_mem_headed {heading : String} (plain : IsOneLine heading)
    {entries : List String} :
    (∀ entry ∈ headed heading entries, IsOneLine entry) ↔ ∀ entry ∈ entries, IsOneLine entry := by
  have empty : IsOneLine "" := by decide
  cases entries with
  | nil => exact Iff.rfl
  | cons first rest =>
      rw [headed, if_neg (by simp), List.forall_mem_cons, List.forall_mem_cons]
      simp only [empty, plain, true_and]

section References

variable {edition : Edition} {entity : Entity}

/-- Each entity has one link of its own and one for each portal that is not blank.  Only the name
on the first one can break a line. -/
theorem exists_entityLinks_eq (portals : ∀ portal ∈ edition.settings.portals, IsOneLine portal)
    (token : IsOneLine entity.identifier) (path : IsOneLine entity.linkPath) :
    ∃ links,
      edition.entityLinks entity = linkLine entity.linkPath entity.displayName :: links ∧
      links.length = edition.settings.portals.countP (fun portal => !isAllBlank portal) ∧
      (∀ link ∈ links, IsOneLine link) ∧
      (IsOneLine (linkLine entity.linkPath entity.displayName) ↔
        IsOneLine entity.displayName) := by
  let links := PortalLink.ofEntity entity edition.settings.portals
  refine ⟨links.map PortalLink.line, rfl, ?_, ?_, ?_⟩
  · rw [List.length_map]
    exact PortalLink.length_ofPortals entity.identifier edition.settings.portals
  · intro line member
    obtain ⟨link, listed, rfl⟩ := List.mem_map.mp member
    exact PortalLink.isOneLine_of_mem_ofPortals token portals listed
  · rw [isOneLine_linkLine]
    exact and_iff_right path

theorem isOneLine_of_mem_entityLinks
    (portals : ∀ portal ∈ edition.settings.portals, IsOneLine portal)
    (token : IsOneLine entity.identifier) (path : IsOneLine entity.linkPath) :
    (∀ entry ∈ edition.entityLinks entity, IsOneLine entry) ↔ IsOneLine entity.displayName := by
  obtain ⟨links, all, _, others, own⟩ := exists_entityLinks_eq portals token path
  rw [all, List.forall_mem_cons, own]
  exact and_iff_left others

theorem isOneLine_of_mem_references {entities : List Entity}
    (portals : ∀ portal ∈ edition.settings.portals, IsOneLine portal)
    (tokens : ∀ entity ∈ entities, IsOneLine entity.identifier)
    (paths : ∀ entity ∈ entities, IsOneLine entity.linkPath) :
    (∀ entry ∈ edition.references entities, IsOneLine entry) ↔
      ∀ entity ∈ Entity.distinct entities, IsOneLine entity.displayName := by
  rw [references, isOneLine_of_mem_headed (by decide), List.forall_mem_flatMap]
  apply forall₂_congr
  intro entity first
  have listed : entity ∈ entities := mem_of_mem_distinctBy first
  exact isOneLine_of_mem_entityLinks portals (tokens entity listed) (paths entity listed)

end References

/-! ## Pages of notes -/

/-- The entries other than the body are fixed words and these parts. -/
theorem NoteParts.isOneLine_iff (parts : NoteParts) :
    (∀ entry ∈ parts.above ++ parts.below, IsOneLine entry) ↔
      IsOneLine parts.heading ∧ IsOneLine parts.authorLink ∧ IsOneLine parts.age ∧
        (∀ entry ∈ parts.references, IsOneLine entry) ∧
        (∀ line ∈ parts.engagement, IsOneLine line) ∧ ∀ link ∈ parts.links, IsOneLine link := by
  have empty : IsOneLine "" := by decide
  have elsewhere : IsOneLine "## Elsewhere" := by decide
  have engaged : (∀ entry ∈ parts.engagement.toList.flatMap fun line => ["", line],
      IsOneLine entry) ↔ ∀ line ∈ parts.engagement, IsOneLine line := by
    cases parts.engagement with
    | none => simp
    | some line => simp [empty]
  rw [above, below]
  simp only [List.forall_mem_append, List.forall_mem_cons, engaged, empty, elsewhere,
    List.not_mem_nil, false_implies, implies_true, true_and, and_true, and_assoc]

section Note

variable {σ : Type} (edition : Edition) (event : Event)

theorem run_noteParts (engagement : Engagement) (source : Source σ) (state : σ) :
    let author := (Naming.profileName event.pubkey).run source state
    let expansion := (expandNames event.content).run source author.2
    ((edition.noteParts event engagement).run source state).1 =
      { heading := noteHeading event author.1
        authorLink := linkLine (Pointer.profilePath event.pubkey) author.1
        age := edition.age event
        body := expansion.1.text
        references := edition.references expansion.1.entities
        engagement := engagement.line?
        links := ((event.linkLines edition.settings).run source expansion.2).1 } := by
  simp only [noteParts, Lookup.run_bind, Lookup.run_pure]

section Valid

variable {edition event} (portals : ∀ portal ∈ edition.settings.portals, IsOneLine portal)
  (id : IsOneLine event.id) (pubkey : IsOneLine event.pubkey)
  (engagement : Engagement) (source : Source σ) (state : σ)

include portals id in
theorem isOneLine_links_noteParts :
    ∀ link ∈ ((edition.noteParts event engagement).run source state).1.links, IsOneLine link := by
  rw [run_noteParts]
  exact Event.isOneLine_of_mem_linkLines portals id

include portals id pubkey in
/-- The title, the names and the engagement decide whether all entries but the body are one line
each. -/
theorem isOneLine_entries_noteParts_iff :
    let parts := ((edition.noteParts event engagement).run source state).1
    let author := (Naming.profileName event.pubkey).run source state
    let expansion := ((expandNames event.content).run source author.2).1
    (∀ entry ∈ parts.above ++ parts.below, IsOneLine entry) ↔
      (∀ title ∈ event.title?.bind trimmed?, IsOneLine title) ∧ IsOneLine author.1 ∧
        (∀ entity ∈ Entity.distinct expansion.entities, IsOneLine entity.displayName) ∧
        ∀ line ∈ engagement.line?, IsOneLine line := by
  intro parts author expansion
  have links := isOneLine_links_noteParts portals id engagement source state
  have references : (∀ entry ∈ edition.references expansion.entities, IsOneLine entry) ↔
      ∀ entity ∈ Entity.distinct expansion.entities, IsOneLine entity.displayName :=
    isOneLine_of_mem_references portals (fun _ => Entity.isOneLine_identifier_of_mem)
      fun _ => Entity.isOneLine_linkPath_of_mem
  have authorLink : IsOneLine (linkLine (Pointer.profilePath event.pubkey) author.1) ↔
      IsOneLine author.1 := by
    rw [isOneLine_linkLine, Pointer.isOneLine_profilePath]
    exact and_iff_right pubkey
  have age : IsOneLine (edition.age event) := isOneLine_ageText event.createdAt edition.now
  rw [NoteParts.isOneLine_iff]
  simp only [parts, run_noteParts] at links ⊢
  rw [authorLink, references]
  constructor
  · rintro ⟨title, name, _, names, line, _⟩
    exact ⟨(isOneLine_noteHeading name).mp title, name, names, line⟩
  · rintro ⟨title, name, names, line⟩
    exact ⟨(isOneLine_noteHeading name).mpr title, name, age, names, line, links⟩

end Valid

/-- The body apart, the entries of a note's page are one line each exactly if the title, the name
of the author, the names of the references and the keys of the reactions are.  Whatever these are,
the age and the links at the end are one line each, and each reference adds its own link and one
for each portal that is not blank.  Over plain events, the identifier of an address is the only
part of a name that can be broken. -/
theorem isOneLine_noteParts_iff (responses : List Event) (source : Source σ) (state : σ)
    (portals : ∀ portal ∈ edition.settings.portals, IsOneLine portal)
    (id : (HexId.ofText? event.id : Except IdError EventId).isOk = true)
    (pubkey : (HexId.ofText? event.pubkey : Except IdError PublicKey).isOk = true) :
    let parts := ((edition.noteParts event (.ofEvents responses)).run source state).1
    let author := (Naming.profileName event.pubkey).run source state
    let entities := Entity.distinct ((expandNames event.content).run source author.2).1.entities
    ((∀ entry ∈ parts.above ++ parts.below, IsOneLine entry) ↔
        (∀ title ∈ event.title?.bind trimmed?, IsOneLine title) ∧ IsOneLine author.1 ∧
          (∀ entity ∈ entities, IsOneLine entity.displayName) ∧
          ∀ response ∈ responses, response.isKind .reaction = true →
            IsOneLine (Engagement.reactionKey response.content)) ∧
      IsOneLine parts.age ∧ (∀ link ∈ parts.links, IsOneLine link) ∧
      parts.references = headed "## References" (entities.flatMap edition.entityLinks) ∧
      (∀ entity ∈ entities, ∃ links,
        edition.entityLinks entity = linkLine entity.linkPath entity.displayName :: links ∧
        links.length = edition.settings.portals.countP (fun portal => !isAllBlank portal) ∧
        (∀ link ∈ links, IsOneLine link) ∧
        (IsOneLine (linkLine entity.linkPath entity.displayName) ↔
          IsOneLine entity.displayName)) ∧
      (source.HasPlainNames →
        (∀ found ∈ Reference.scan event.content, ∀ coordinates relays,
          Pointer.ofToken found.token = .ok (.address coordinates relays) →
          IsOneLine coordinates.identifier) →
        IsOneLine author.1 ∧ ∀ entity ∈ entities, IsOneLine entity.displayName) := by
  intro parts author entities
  have idLine : IsOneLine event.id := HexId.isOneLine_of_isOk id
  have keyLine : IsOneLine event.pubkey := HexId.isOneLine_of_isOk pubkey
  refine ⟨?_, ?_, ?_, ?_, ?_, ?_⟩
  · rw [← Engagement.isOneLine_line?_ofEvents]
    exact isOneLine_entries_noteParts_iff portals idLine keyLine _ source state
  · simp only [parts, run_noteParts]
    exact isOneLine_ageText event.createdAt edition.now
  · exact isOneLine_links_noteParts portals idLine _ source state
  · simp only [parts, run_noteParts]
    rfl
  · intro entity first
    have listed := mem_of_mem_distinctBy first
    exact exists_entityLinks_eq portals (Entity.isOneLine_identifier_of_mem listed)
      (Entity.isOneLine_linkPath_of_mem listed)
  · intro plain identifiers
    refine ⟨Naming.isOneLine_profileName plain keyLine state, ?_⟩
    intro entity first
    exact Entity.isOneLine_displayName_of_mem plain identifiers (mem_of_mem_distinctBy first)

/-- The page of an article that refers to a stranger and has one reaction. -/
theorem isOneLine_noteParts_stranger :
    let source := Answers.source ⟨fun _ => .ok [], fun _ => []⟩
    let digits := "7e7e9c42a91bfef19fa929e5fda1b72e0ebc1a4c1141673e2794234d86addf4e"
    let event : Event :=
      { id := digits, pubkey := digits, kind := 30023, createdAt := 0, tags := [["title", " News "]]
        content := "nostr:npub10elfcs4fr0l0r8af98jlmgdh9c8tcxjvz9qkw038js35mp4dma8qzvjptg" }
    let response : Event := { id := digits, pubkey := digits, kind := 7, createdAt := 0 }
    let parts := ((noteParts ⟨{}, 0⟩ event (.ofEvents [response])).run source ()).1
    source.HasPlainNames ∧ ∀ entry ∈ parts.above ++ parts.below, IsOneLine entry := by
  intro source digits event response parts
  have plain : source.HasPlainNames := by
    intro filter state events answered event member
    cases answered
    cases member
  have noAddress : ∀ found ∈ Reference.scan event.content, ∀ coordinates relays,
      Pointer.ofToken found.token = .ok (.address coordinates relays) →
      IsOneLine coordinates.identifier := by
    have kinds : ∀ found ∈ Reference.scan event.content,
        (Pointer.ofToken found.token).toOption.map Pointer.kind = some .pubkey := by
      decide +kernel
    intro found listed coordinates relays read
    have kind := kinds found listed
    rw [read] at kind
    cases kind
  obtain ⟨whole, _, _, _, _, named⟩ := isOneLine_noteParts_iff ⟨{}, 0⟩ event [response] source ()
    (by decide) (by decide +kernel) (by decide +kernel)
  obtain ⟨author, names⟩ := named plain noAddress
  exact ⟨plain, whole.mpr ⟨by decide +kernel, author, names, by decide +kernel⟩⟩

/-- A line feed inside a title is a line feed in the heading. -/
theorem not_isOneLine_noteParts :
    ¬∀ (store : MemoryStore) (edition : Edition) (event : Event) (id : String),
      (∀ portal ∈ edition.settings.portals, IsOneLine portal) →
      (HexId.ofText? event.id : Except IdError EventId).isOk = true →
      (HexId.ofText? event.pubkey : Except IdError PublicKey).isOk = true →
      let answers := store.answers .background
      let parts := (edition.noteParts event ((Engagement.tally id).answer answers)).answer answers
      ∀ entry ∈ parts.above ++ parts.below, IsOneLine entry := by
  intro claimed
  let digits := "3bf0c63fcb93463407af97a5e5ee64fa883d107ef9e558472c4eb9aaaefa459d"
  have each := claimed .empty ⟨{}, 0⟩
    { id := digits, pubkey := digits, kind := 1, createdAt := 0, tags := [["title", "a\nb"]] }
    digits (by decide) (by decide +kernel) (by decide +kernel) "# a\nb" (by decide +kernel)
  exact absurd each (by decide)

end Note

end Edition

end NostrCapsule
