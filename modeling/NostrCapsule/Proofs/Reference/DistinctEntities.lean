import NostrCapsule.Proofs.Reference.Consultation

/-!
Contract: the distinct entities of a text stand for all of them.

Entities are told apart by their spellings.  Of each spelling the first entity is kept, where it
stands.  In an expansion a token is resolved once, so the entities that are dropped are the same as
those that are kept, however a store changes its answers meanwhile.

Owns:
- the entities of an expansion by their spellings;
- `distinct_keeps_first_mentions`.

Does not own: what an entity says.
-/

namespace NostrCapsule

variable {σ : Type}

namespace Entity

section Expand

variable {format : Entity → String} {text : String} {source : Source σ} {state : σ}

/-- There is a glossary in which each entity of an expansion stands for its identifier. -/
theorem exists_lookup_identifier_of_mem (format : Entity → String) (text : String)
    (source : Source σ) (state : σ) :
    ∃ glossary : Glossary, ∀ entity ∈ ((expand format text).run source state).1.entities,
      glossary.lookup entity.identifier = some entity := by
  obtain ⟨kept, heard, _, entities, _, _, _, named⟩ :=
    exists_consultations_expand format text source state
  refine ⟨Consultation.glossary heard, ?_⟩
  intro entity member
  rw [entities] at member
  obtain ⟨pair, present, rfl⟩ := List.mem_map.mp member
  have found := named pair present
  obtain ⟨consultation, _, same, entity⟩ := Consultation.mem_of_lookup_glossary found
  have spelled : pair.2.spelling = scheme ++ pair.1.token := by
    rw [← entity, ← same, Consultation.entity]
  rw [identifier_of_spelling spelled, found]

/-- Entities of one expansion are told apart by their spellings. -/
theorem eq_of_spelling_eq {left right : Entity}
    (leftMember : left ∈ ((expand format text).run source state).1.entities)
    (rightMember : right ∈ ((expand format text).run source state).1.entities)
    (same : left.spelling = right.spelling) : left = right := by
  obtain ⟨glossary, named⟩ := exists_lookup_identifier_of_mem format text source state
  have identifiers : left.identifier = right.identifier := congrArg dropScheme same
  have found := named left leftMember
  rw [identifiers, named right rightMember, Option.some.injEq] at found
  exact found.symm

theorem mem_distinct_entities_iff {entity : Entity} :
    entity ∈ distinct ((expand format text).run source state).1.entities ↔
      entity ∈ ((expand format text).run source state).1.entities := by
  constructor
  · exact mem_of_mem_distinctBy
  · intro member
    have spelled := (mem_map_distinctBy_iff spelling _).mpr (List.mem_map_of_mem member)
    obtain ⟨first, kept, same⟩ := List.mem_map.mp spelled
    obtain rfl := eq_of_spelling_eq (mem_of_mem_distinctBy kept) member same
    exact kept

end Expand

/-- The distinct entities of a list are those at the places where a spelling comes up first, in
their order.  So no two of them share a spelling and no spelling is lost; further entities add those
of their distinct ones whose spellings are new, whether or not repetitions were dropped before.  In
an expansion nothing but repetitions is dropped, since entities with one spelling are the same. -/
theorem distinct_keeps_first_mentions (entities more : List Entity) (format : Entity → String)
    (text : String) (source : Source σ) (state : σ) :
    let expansion := ((expand format text).run source state).1
    (distinct entities = atFirstPlaces spelling entities ∧
      (distinct entities).Sublist entities ∧
      ((distinct entities).map spelling).Nodup ∧
      ∀ spelled, spelled ∈ (distinct entities).map spelling ↔ spelled ∈ entities.map spelling) ∧
    (distinct (distinct entities) = distinct entities ∧
      distinct (entities ++ more) = distinct (distinct entities ++ more) ∧
      distinct (entities ++ more) = distinct entities ++
        (distinct more).filter fun entity => entity.spelling ∉ entities.map spelling) ∧
    (∀ left ∈ expansion.entities, ∀ right ∈ expansion.entities,
      left.spelling = right.spelling → left = right) ∧
    ∀ entity, entity ∈ distinct expansion.entities ↔ entity ∈ expansion.entities := by
  intro expansion
  refine ⟨⟨?_, ?_, ?_, ?_⟩, ⟨?_, ?_, ?_⟩, ?_, ?_⟩
  · exact distinctBy_eq_atFirstPlaces spelling entities
  · exact distinctBy_sublist spelling entities
  · exact nodup_distinctBy spelling entities
  · exact fun spelled => mem_map_distinctBy_iff spelling entities
  · exact distinctBy_distinctBy spelling entities
  · exact (distinctBy_distinctBy_append spelling entities more).symm
  · exact distinctBy_append spelling entities more
  · exact fun left leftMember right rightMember => eq_of_spelling_eq leftMember rightMember
  · exact fun entity => mem_distinct_entities_iff

/-- A store that gives an author another name each time it is asked: both mentions have the first of
them. -/
theorem distinct_keeps_first_mentions_renamed :
    let token := "npub10elfcs4fr0l0r8af98jlmgdh9c8tcxjvz9qkw038js35mp4dma8qzvjptg"
    let renamed (asked : Nat) : Event :=
      { id := "", pubkey := "", kind := 0, createdAt := 0
        content := "\x7b\"name\":\"" ++ toString asked ++ "\"\x7d" }
    let source : Source Nat :=
      { query := fun _ asked => (.ok [renamed asked], asked + 1)
        readRelays := fun _ asked => ([], asked) }
    let text := s!"nostr:{token} nostr:{token}"
    ((resolve token).run source 0).1 ≠ ((resolve token).run source 1).1 ∧
      ∃ left right, ((expand displayName text).run source 0).1.entities = [left, right] ∧
        left.spelling = right.spelling ∧ left = right ∧ left.displayName = "0" := by
  intro token renamed source text
  have different : ((resolve token).run source 0).1 ≠ ((resolve token).run source 1).1 := by
    decide +kernel
  have spellings : ((expand displayName text).run source 0).1.entities.map spelling =
      ["nostr:" ++ token, "nostr:" ++ token] := by
    decide +kernel
  have names : ((expand displayName text).run source 0).1.entities.map displayName =
      ["0", "0"] := by
    decide +kernel
  obtain ⟨left, right, both⟩ : ∃ left right,
      ((expand displayName text).run source 0).1.entities = [left, right] := by
    apply List.length_eq_two.mp
    rw [← List.length_map spelling, spellings]
    rfl
  rw [both] at spellings names
  simp only [List.map_cons, List.map_nil, List.cons.injEq, and_true] at spellings names
  have same := spellings.1.trans spellings.2.symm
  have told := (distinct_keeps_first_mentions [] [] displayName text source 0).2.2.1
  rw [both] at told
  exact ⟨different, left, right, both, same,
    told left (by simp) right (by simp) same, names.1⟩

end Entity

end NostrCapsule
