import NostrCapsule.Proofs.FirstOccurrence
import NostrCapsule.Proofs.Lookup.Transcript
import NostrCapsule.Proofs.Reference.Replacement
import NostrCapsule.Store.Loading

/-!
Contract: what a store has a say in when a text is expanded.

A name is a function of the pointer and of the event that was found for it, if any.  One question
is asked for each distinct token, and it bears on the name of that token alone; kinds, paths,
spellings and places come from the text.

Owns:
- `Naming.question?`, the question about a target, and its name with an event and without one:
  `offers`, `lastResort` and `fallback`;
- `Consultation`, a token with what the store said about it, and the consultations of an expansion;
- `Entity.Target`, what an entity says apart from its name, and `expand_asks_for_names_only`.

Does not own: which texts are references.
-/

namespace NostrCapsule

variable {σ : Type}

/-! ## Names -/

namespace Naming

/-- The question about the target of a pointer.  There is none about an address whose kind no event
can have. -/
def question? : Pointer → Option Filter
  | .pubkey key => some (.byAuthor key.text .metadata 1)
  | .profile key _ => some (.byAuthor key.text .metadata 1)
  | .note id => some (.byId id.text)
  | .event id _ _ _ => some (.byId id.text)
  | .address coordinates _ => addressFilter? coordinates

def nameFromMetadata (pubkey : String) (found : Option Event) : String :=
  nameFromProfile pubkey (found.bind fun event => Profile.ofContent? event.content)

/-- The name of a pointer's target with the event found for it, or with none. -/
def nameFor : Pointer → Option Event → String
  | .pubkey key, found => nameFromMetadata key.text found
  | .profile key _, found => nameFromMetadata key.text found
  | .note id, found => nameFromEvent id.text found
  | .event id _ _ _, found => nameFromEvent id.text found
  | .address coordinates _, found => nameFromAddress coordinates found

/-- The name that a pointer gives by itself. -/
def fallback : Pointer → String
  | .pubkey key => Text.shortKey key.text
  | .profile key _ => Text.shortKey key.text
  | .note id => "Note " ++ Text.shortId id.text
  | .event id _ _ _ => "Note " ++ Text.shortId id.text
  | .address coordinates _ =>
      let author := Text.shortKey coordinates.author.text
      if coordinates.identifier.isEmpty then "Article by " ++ author
      else coordinates.identifier ++ " by " ++ author

theorem nameFor_none (pointer : Pointer) : nameFor pointer none = fallback pointer := by
  cases pointer <;> rfl

/-- The names in the profile that an event holds, as far as they say something. -/
def profileNames (event : Event) : List String :=
  (Profile.ofContent? event.content).toList.flatMap fun profile =>
    [profile.displayName, profile.displayNameCamel, profile.name, profile.nip05].filterMap
      fun field => field.bind Text.trimmed?

/-- The first line of a text note that says something, at most forty characters of it. -/
def openingLine (event : Event) : List String :=
  if event.kind = 1 then (Text.firstLine? event.content).toList.map (Text.truncate 40 "...") else []

def titles (event : Event) : List String :=
  (event.tagValue? "title").toList.filter fun title => !Text.isAllBlank title

/-- What the event that was found for a pointer's target offers as its name, the best first. -/
def offers : Pointer → Event → List String
  | .pubkey _, event => profileNames event
  | .profile _ _, event => profileNames event
  | .note _, event => openingLine event ++ titles event
  | .event _ _ _ _, event => openingLine event ++ titles event
  | .address coordinates _, event =>
      titles event ++ [coordinates.identifier].filter fun identifier => !identifier.isEmpty

/-- The name of a pointer's target if the event that was found for it offers none. -/
def lastResort : Pointer → Event → String
  | .pubkey key, _ => Text.shortKey key.text
  | .profile key _, _ => Text.shortKey key.text
  | .note _, event => "Event " ++ Text.shortId event.id
  | .event _ _ _ _, event => "Event " ++ Text.shortId event.id
  | .address coordinates _, _ => "Article by " ++ Text.shortKey coordinates.author.text

theorem nameFromMetadata_some (pubkey : String) (event : Event) :
    nameFromMetadata pubkey (some event) = (profileNames event).headD (Text.shortKey pubkey) := by
  show ((Profile.ofContent? event.content).bind Profile.bestName?).getD _ = _
  rw [List.headD_eq_head?_getD, profileNames]
  cases Profile.ofContent? event.content with
  | none => rfl
  | some profile =>
      rw [Option.toList_some, List.flatMap_singleton, List.head?_filterMap]
      rfl

theorem head?_titles (event : Event) : (titles event).head? = usableTitle? event := by
  rw [titles, usableTitle?, Event.title?]
  cases event.tagValue? "title" with
  | none => rfl
  | some title => by_cases blank : Text.isAllBlank title <;> simp [blank, Option.filter_some]

theorem storedEventName_eq (event : Event) :
    storedEventName event =
      (openingLine event ++ titles event).headD ("Event " ++ Text.shortId event.id) := by
  have isNote : event.isKind .textNote = decide (event.kind = 1) := rfl
  rw [List.headD_eq_head?_getD, List.head?_append, head?_titles, storedEventName, openingLine,
    isNote]
  by_cases note : event.kind = 1
  · cases Text.firstLine? event.content with
    | none => simp [note]
    | some line => simp [note, titleLength]
  · simp [note]

theorem nameFromAddress_some (coordinates : Coordinates) (event : Event) :
    nameFromAddress coordinates (some event) =
      (titles event ++ [coordinates.identifier].filter fun identifier => !identifier.isEmpty).headD
        ("Article by " ++ Text.shortKey coordinates.author.text) := by
  rw [List.headD_eq_head?_getD, List.head?_append, head?_titles, nameFromAddress,
    Option.bind_some]
  cases usableTitle? event with
  | some title => rfl
  | none => by_cases bare : coordinates.identifier.isEmpty <;> simp [bare]

/-- With an event, the name is the best one that the event offers. -/
theorem nameFor_some (pointer : Pointer) (event : Event) :
    nameFor pointer (some event) = (offers pointer event).headD (lastResort pointer event) := by
  cases pointer with
  | pubkey key => exact nameFromMetadata_some key.text event
  | profile key relays => exact nameFromMetadata_some key.text event
  | note id => exact storedEventName_eq event
  | event id relays author kind => exact storedEventName_eq event
  | address coordinates relays => exact nameFromAddress_some coordinates event

theorem question?_eq_none_iff {pointer : Pointer} :
    question? pointer = none ↔
      ∃ coordinates relays, pointer = .address coordinates relays ∧
        65535 < coordinates.kind.toNat := by
  have limit : UInt16.size = 65536 := rfl
  cases pointer with
  | address coordinates relays =>
      change addressFilter? coordinates = none ↔ _
      unfold addressFilter?
      by_cases possible : coordinates.kind.toNat < UInt16.size
      · rw [if_pos possible]
        refine ⟨nofun, ?_⟩
        rintro ⟨_, _, same, above⟩
        cases same
        omega
      · rw [if_neg possible]
        exact ⟨fun _ => ⟨coordinates, relays, rfl, by omega⟩, fun _ => rfl⟩
  | _ => simp [question?]

theorem profileName_eq (pubkey : String) :
    profileName pubkey = (do
      pure (nameFromMetadata pubkey (← Lookup.firstMatch (.byAuthor pubkey .metadata 1)))) := by
  simp only [profileName, profile, nameFromMetadata, bind_assoc, pure_bind]

/-- A name takes one question, if there is one to ask. -/
theorem pointerName_eq (pointer : Pointer) :
    pointerName pointer =
      match question? pointer with
      | none => pure (nameFor pointer none)
      | some filter => (do pure (nameFor pointer (← Lookup.firstMatch filter))) := by
  cases pointer with
  | pubkey key => exact profileName_eq key.text
  | profile key relays => exact profileName_eq key.text
  | note id => rfl
  | event id relays author kind => rfl
  | address coordinates relays => rfl

end Naming

/-! ## Consultations -/

/-- A token that reads, with the store's answer to the question about its target, if there is such
a question. -/
structure Consultation where
  token : String
  pointer : Pointer
  answer? : Option QueryAnswer
  read : Pointer.ofToken token = .ok pointer
  asked : answer?.isSome = (Naming.question? pointer).isSome

namespace Consultation

/-- The event that was found: none if the store has none, refuses or is not asked. -/
def found? (consultation : Consultation) : Option Event :=
  consultation.answer?.bind fun answer => (QueryAnswer.found answer).head?

def exchange? (consultation : Consultation) : Option Exchange :=
  (Naming.question? consultation.pointer).bind fun filter =>
    consultation.answer?.map (Exchange.query filter)

/-- The entity of the token. -/
def entity (consultation : Consultation) : Entity where
  kind := consultation.pointer.kind
  displayName := Naming.nameFor consultation.pointer consultation.found?
  linkPath := consultation.pointer.linkPath
  spelling := scheme ++ consultation.token

def glossary (heard : List Consultation) : Glossary :=
  heard.map fun consultation => (consultation.token, consultation.entity)

theorem displayName_entity_of_not_found {consultation : Consultation}
    (missing : consultation.found? = none) :
    consultation.entity.displayName = Naming.fallback consultation.pointer := by
  rw [entity, missing, Naming.nameFor_none]

theorem displayName_entity_of_found {consultation : Consultation} {event : Event}
    (known : consultation.found? = some event) :
    consultation.entity.displayName =
      (Naming.offers consultation.pointer event).headD
        (Naming.lastResort consultation.pointer event) := by
  rw [entity, known, Naming.nameFor_some]

theorem answer?_eq_none_iff (consultation : Consultation) :
    consultation.answer? = none ↔
      ∃ coordinates relays, consultation.pointer = .address coordinates relays ∧
        65535 < coordinates.kind.toNat := by
  rw [← Naming.question?_eq_none_iff, ← Option.isNone_iff_eq_none, ← Option.isNone_iff_eq_none,
    ← Option.not_isSome, ← Option.not_isSome, consultation.asked]

theorem mem_of_lookup_glossary {heard : List Consultation} {token : String} {entity : Entity}
    (found : (glossary heard).lookup token = some entity) :
    ∃ consultation ∈ heard, consultation.token = token ∧ consultation.entity = entity := by
  obtain ⟨before, after, split, _⟩ := List.lookup_eq_some_iff.mp found
  have member : (token, entity) ∈ glossary heard := by
    rw [split]
    exact List.mem_append_right before List.mem_cons_self
  obtain ⟨consultation, present, same⟩ := List.mem_map.mp member
  cases same
  exact ⟨consultation, present, rfl, rfl⟩

theorem isSome_lookup_glossary_iff {heard : List Consultation} {token : String} :
    ((glossary heard).lookup token).isSome = true ↔ token ∈ heard.map Consultation.token := by
  rw [List.lookup_isSome_iff]
  simp only [glossary, List.mem_map, exists_exists_and_eq_and, beq_iff_eq]
  exact exists_congr fun _ => and_congr_right fun _ => eq_comm

end Consultation

section Run

variable (source : Source σ)

/-- To resolve a token that reads is to consult the store about it. -/
theorem Entity.exists_consultation (state : σ) {token : String} {pointer : Pointer}
    (read : Pointer.ofToken token = .ok pointer) :
    ∃ consultation : Consultation, consultation.token = token ∧
      ((resolve token).run source state).1 = .ok consultation.entity ∧
      (resolve token).transcript source state = consultation.exchange?.toList := by
  have transcript : (resolve token).transcript source state =
      (Naming.pointerName pointer).transcript source state := by
    unfold resolve ofPointer
    simp only [read, Lookup.transcript_bind, Lookup.transcript_pure, List.append_nil]
  rw [run_resolve_of_ok read, transcript, Naming.pointerName_eq]
  cases question : Naming.question? pointer with
  | none =>
      let consultation : Consultation := ⟨token, pointer, none, read, by rw [question]; rfl⟩
      refine ⟨consultation, rfl, rfl, ?_⟩
      rw [Consultation.exchange?, question]
      rfl
  | some filter =>
      let answer := (source.query filter state).1
      let consultation : Consultation := ⟨token, pointer, some answer, read, by rw [question]; rfl⟩
      refine ⟨consultation, rfl, ?_, ?_⟩
      · simp only [Lookup.run_bind, Lookup.run_firstMatch, Lookup.run_pure]
        rfl
      · simp only [Lookup.transcript_bind, Lookup.transcript_firstMatch, Lookup.transcript_pure,
          List.append_nil]
        rw [Consultation.exchange?, question]
        rfl

/-- A glossary is made by one consultation for each token that reads, in order. -/
theorem Glossary.exists_consultations (tokens : List String) (state : σ) :
    ∃ heard : List Consultation,
      heard.map Consultation.token = tokens.filter (fun token => (Pointer.ofToken token).isOk) ∧
      (ofTokens tokens).transcript source state = heard.filterMap Consultation.exchange? ∧
      ((ofTokens tokens).run source state).1 = Consultation.glossary heard := by
  induction tokens generalizing state with
  | nil => exact ⟨[], rfl, rfl, rfl⟩
  | cons token rest inductionHypothesis =>
      cases read : Pointer.ofToken token with
      | error cause =>
          -- Nothing is asked about such a token, so the rest begins in the same state.
          have unasked : (Entity.resolve token).transcript source state = [] := by
            unfold Entity.resolve
            rw [read]
            rfl
          obtain ⟨heard, tokens, transcript, glossary⟩ := inductionHypothesis state
          refine ⟨heard, ?_, ?_, ?_⟩
          · rw [tokens, List.filter_cons_of_neg (by simp [read, Except.isOk, Except.toBool])]
          · rw [ofTokens, Lookup.transcript_bind, Entity.run_resolve_of_error read, unasked]
            exact transcript
          · rw [ofTokens, Lookup.run_bind, Entity.run_resolve_of_error read]
            exact glossary
      | ok pointer =>
          obtain ⟨first, same, resolved, exchanged⟩ :=
            Entity.exists_consultation source state read
          obtain ⟨heard, tokens, transcript, glossary⟩ :=
            inductionHypothesis ((Entity.resolve token).run source state).2
          refine ⟨first :: heard, ?_, ?_, ?_⟩
          · rw [List.map_cons, same, tokens,
              List.filter_cons_of_pos (by simp [read, Except.isOk, Except.toBool])]
          · rw [ofTokens, Lookup.transcript_bind, resolved, exchanged]
            dsimp only
            rw [Lookup.transcript_bind, Lookup.transcript_pure, transcript, List.append_nil]
            cases exchange : first.exchange? <;> simp [exchange]
          · rw [ofTokens, Lookup.run_bind, resolved]
            dsimp only
            rw [Lookup.run_bind, Lookup.run_pure, glossary, ← same]
            rfl

end Run

/-! ## Expansion -/

namespace Reference

/-- The references in a text whose tokens read. -/
def readable (text : String) : List ReferenceMatch :=
  (scan text).filter fun found => (Pointer.ofToken found.token).isOk

theorem distinct_readable_tokens (text : String) :
    (distinctBy id ((piecesOf text).filterMap Piece.token?)).filter
        (fun token => (Pointer.ofToken token).isOk) =
      distinctBy id ((readable text).map ReferenceMatch.token) := by
  have commuted := filter_distinctBy id (fun token => (Pointer.ofToken token).isOk)
    ((scan text).map ReferenceMatch.token)
  rw [List.filter_map] at commuted
  rw [← map_token_scan]
  exact commuted

end Reference

/-- What an entity says apart from its name. -/
structure Entity.Target where
  kind : PointerKind
  linkPath : String
  spelling : String
deriving DecidableEq, Repr

def Entity.target (entity : Entity) : Target :=
  ⟨entity.kind, entity.linkPath, entity.spelling⟩

def ReferenceMatch.target? (found : ReferenceMatch) : Option Entity.Target :=
  (Pointer.ofToken found.token).toOption.map fun pointer =>
    ⟨pointer.kind, pointer.linkPath, found.spelling⟩

theorem Consultation.target?_eq (consultation : Consultation) {found : ReferenceMatch}
    (same : consultation.token = found.token) :
    found.target? = some consultation.entity.target := by
  have read := consultation.read
  rw [same] at read
  rw [ReferenceMatch.target?, read, Entity.target, entity, same]
  rfl

section Expand

variable (format : Entity → String) (text : String) (source : Source σ) (state : σ)

/-- An expansion replaces the references that read by the entities of its consultations, one of
which it makes for each distinct token. -/
theorem exists_consultations_expand :
    ∃ (kept : List (ReferenceMatch × Entity)) (heard : List Consultation),
      kept.map Prod.fst = Reference.readable text ∧
      ((expand format text).run source state).1.entities = kept.map Prod.snd ∧
      Reference.splice? text 0 (kept.map fun pair => (pair.1, format pair.2)) =
        some ((expand format text).run source state).1.text ∧
      heard.map Consultation.token =
        distinctBy id ((Reference.readable text).map ReferenceMatch.token) ∧
      (expand format text).transcript source state =
        heard.filterMap Consultation.exchange? ∧
      ∀ pair ∈ kept, (Consultation.glossary heard).lookup pair.1.token = some pair.2 := by
  let tokens := distinctBy id ((Reference.piecesOf text).filterMap Piece.token?)
  obtain ⟨heard, heardTokens, transcript, asked⟩ :=
    Glossary.exists_consultations source tokens state
  let glossary := Consultation.glossary heard
  have expansion : ((expand format text).run source state).1 =
      .ofPieces glossary format (Reference.piecesOf text) := by
    rw [expand_eq, Lookup.run_bind, Lookup.run_pure, asked]
  rw [expansion]
  refine ⟨(Reference.scan text).filterMap glossary.kept?, heard, ?_, ?_, ?_, ?_, ?_, ?_⟩
  · rw [glossary.map_fst_filterMap_kept?]
    apply List.filter_congr
    intro found member
    have distinct : found.token ∈ tokens :=
      mem_distinctBy_id_iff.mpr (Reference.token_mem_of_mem_scan member)
    rw [Bool.eq_iff_iff, Consultation.isSome_lookup_glossary_iff, heardTokens, List.mem_filter]
    exact and_iff_right distinct
  · rw [Reference.scan_eq_matchesFrom]
    exact (glossary.map_snd_filterMap_kept? 0 _).symm
  · exact glossary.splice?_scan format text
  · rw [heardTokens, Reference.distinct_readable_tokens]
  · rw [expand_eq, Lookup.transcript_bind, Lookup.transcript_pure, List.append_nil]
    exact transcript
  · intro pair member
    obtain ⟨found, _, kept⟩ := List.mem_filterMap.mp member
    obtain ⟨entity, lookedUp, rfl⟩ := Option.map_eq_some_iff.mp kept
    exact lookedUp

/-- The targets of an expansion's entities are those of the references that read. -/
theorem map_target_entities_expand :
    ((expand format text).run source state).1.entities.map Entity.target =
      (Reference.readable text).filterMap ReferenceMatch.target? := by
  obtain ⟨kept, heard, keptAre, entities, _, _, _, named⟩ :=
    exists_consultations_expand format text source state
  have targets : ∀ pair ∈ kept, (ReferenceMatch.target? ∘ Prod.fst) pair =
      (some ∘ Entity.target ∘ Prod.snd) pair := by
    intro pair member
    obtain ⟨consultation, _, same, entity⟩ :=
      Consultation.mem_of_lookup_glossary (named pair member)
    rw [Function.comp_apply, consultation.target?_eq same, entity]
    rfl
  rw [← keptAre, entities, List.map_map, List.filterMap_map, List.filterMap_congr targets,
    List.filterMap_eq_map]

end Expand

/-- Whatever a store answers, and whenever it fails, an expansion replaces the references that read
and its entities have the targets that these give.  Only names come from the store: each distinct
token is asked about once, in the order of first occurrences and unless its kind is one that no
event can have.  The name is the best one that the event in the answer offers, and the fallback if
there is no event; and all occurrences of the token have the one entity. -/
theorem expand_asks_for_names_only (format : Entity → String) (text : String)
    (source : Source σ) (state : σ) :
    let expansion := ((expand format text).run source state).1
    (∀ {τ : Type} (other : Source τ) (otherState : τ),
      ((expand format text).run other otherState).1.entities.map Entity.target =
        expansion.entities.map Entity.target) ∧
    ∃ (kept : List (ReferenceMatch × Entity)) (heard : List Consultation),
      kept.map Prod.fst = Reference.readable text ∧
      expansion.entities = kept.map Prod.snd ∧
      Reference.splice? text 0 (kept.map fun pair => (pair.1, format pair.2)) =
        some expansion.text ∧
      heard.map Consultation.token =
        distinctBy id ((Reference.readable text).map ReferenceMatch.token) ∧
      (expand format text).transcript source state =
        heard.filterMap Consultation.exchange? ∧
      (∀ pair ∈ kept, ∃ consultation ∈ heard,
        consultation.token = pair.1.token ∧ consultation.entity = pair.2) ∧
      (∀ consultation ∈ heard,
        (consultation.answer? = none ↔ ∃ coordinates relays,
          consultation.pointer = .address coordinates relays ∧
            65535 < coordinates.kind.toNat) ∧
        (∀ event, consultation.found? = some event →
          consultation.entity.displayName =
            (Naming.offers consultation.pointer event).headD
              (Naming.lastResort consultation.pointer event)) ∧
        (consultation.found? = none →
          consultation.entity.displayName = Naming.fallback consultation.pointer)) ∧
      ∀ left ∈ kept, ∀ right ∈ kept, left.1.token = right.1.token → left.2 = right.2 := by
  intro expansion
  obtain ⟨kept, heard, keptAre, entities, spliced, tokens, transcript, named⟩ :=
    exists_consultations_expand format text source state
  refine ⟨?_, kept, heard, keptAre, entities, spliced, tokens, transcript, ?_, ?_, ?_⟩
  · intro τ other otherState
    rw [map_target_entities_expand, map_target_entities_expand]
  · intro pair member
    exact Consultation.mem_of_lookup_glossary (named pair member)
  · intro consultation _
    exact ⟨consultation.answer?_eq_none_iff,
      fun _ known => Consultation.displayName_entity_of_found known,
      Consultation.displayName_entity_of_not_found⟩
  · intro left leftKept right rightKept same
    have leftNamed := named left leftKept
    rw [same, named right rightKept] at leftNamed
    exact (Option.some.inj leftNamed).symm

/-- A key that is named twice, over a store with a profile of it and over a source that refuses. -/
theorem expand_asks_for_names_only_profile :
    let key := "3bf0c63fcb93463407af97a5e5ee64fa883d107ef9e558472c4eb9aaaefa459d"
    let token := "npub180cvv07tjdrrgpa0j7j7tmnyl2yr6yr7l8j4s3evf6u64th6gkwsyjh6w6"
    let profile : Event :=
      { id := "a", pubkey := key, kind := 0, createdAt := 1
        content := "\x7b\"name\":\" Ann \"\x7d" }
    let store := (MemoryStore.empty.insertAll [profile]).answers .background
    let failing : Answers := ⟨fun _ => .error .cancelled, fun _ => []⟩
    let ann : Entity := ⟨.pubkey, "Ann", "/profile/" ++ key, "nostr:" ++ token⟩
    let entitiesOver := fun answers : Answers =>
      ((expand Entity.displayName ("nostr:" ++ token ++ ", nostr:" ++ token)).run
        answers.source ()).1.entities
    entitiesOver store = [ann, ann] ∧
      (entitiesOver failing).map Entity.target = [ann.target, ann.target] ∧
      ∃ consultation : Consultation, consultation.entity = ann ∧
        ∃ event, consultation.found? = some event ∧
          (Naming.offers consultation.pointer event).headD
            (Naming.lastResort consultation.pointer event) = "Ann" := by
  intro key token profile store failing ann entitiesOver
  have entities : entitiesOver store = [ann, ann] := by decide +kernel
  have unnamed : (Pointer.ofToken token).toOption.map Naming.fallback =
      some "3bf0c63f...aefa459d" := by
    decide +kernel
  obtain ⟨alike, kept, heard, _, keptEntities, _, _, _, named, derived, _⟩ :=
    expand_asks_for_names_only Entity.displayName ("nostr:" ++ token ++ ", nostr:" ++ token)
      store.source ()
  have member : ann ∈ kept.map Prod.snd := by
    rw [keptEntities.symm.trans entities]
    exact List.mem_cons_self
  obtain ⟨pair, present, same⟩ := List.mem_map.mp member
  obtain ⟨consultation, listed, _, entity⟩ := named pair present
  rw [same] at entity
  have spelled : consultation.token = token := by
    have dropped := congrArg (dropScheme ∘ Entity.spelling) entity
    exact (dropScheme_scheme_append _).symm.trans (dropped.trans (dropScheme_scheme_append _))
  refine ⟨entities, (alike failing.source ()).trans (congrArg (List.map Entity.target) entities),
    consultation, entity, ?_⟩
  cases found : consultation.found? with
  | none =>
      have short := (derived consultation listed).2.2 found
      rw [← spelled, consultation.read] at unnamed
      rw [entity, Option.some.inj unnamed] at short
      exact absurd short (by decide)
  | some event =>
      exact ⟨event, rfl, ((derived consultation listed).2.1 event found).symm.trans
        (congrArg Entity.displayName entity)⟩

end NostrCapsule
