import NostrCapsule.Proofs.Reference.Memo
import NostrCapsule.Proofs.Reference.Places
import NostrCapsule.Store.Loading

/-!
Contract: expanding a text replaces the references that resolve and moves nothing else.

The replaced text is described a second time, by places: from a cursor on, what lies before the
next replaced reference is sliced out of the text, then comes the replacement, and the cursor goes
to the end of that reference.  A reference that does not resolve leaves the cursor where it is.

Owns: `splice?` and `Expansion.IsFrom`, the description by places, and `expand_splices`.

Does not own: which places of a text are references, and the names of entities.
-/

namespace NostrCapsule

variable {σ : Type}

namespace Reference

/-- A text from a place on, with the given references replaced. -/
def splice? (text : String) (cursor : Nat) : List (ReferenceMatch × String) → Option String
  | [] => Text.slice? text cursor text.utf8ByteSize
  | (found, replacement) :: rest => do
      let gap ← Text.slice? text cursor found.start
      let later ← splice? text found.stop rest
      pure (gap ++ replacement ++ later)

end Reference

/-- An expansion comes from a text by giving each reference that resolves, and no other, the form
of an entity that it resolves to. -/
def Expansion.IsFrom (expansion : Expansion) (format : Entity → String) (text : String)
    (source : Source σ) (state : σ) : Prop :=
  ∃ kept : List (ReferenceMatch × Entity),
    kept.map Prod.fst = (Reference.scan text).filter (source.resolves state) ∧
    (∀ pair ∈ kept, ∃ asked,
      ((Entity.resolve pair.1.token).run source asked).1 = .ok pair.2) ∧
    expansion.entities = kept.map Prod.snd ∧
    Reference.splice? text 0 (kept.map fun pair => (pair.1, format pair.2)) = some expansion.text

/-! ## Replacing by a glossary -/

namespace Glossary

variable (glossary : Glossary)

/-- A reference with its entity, if there is one. -/
def kept? (found : ReferenceMatch) : Option (ReferenceMatch × Entity) :=
  (glossary.lookup found.token).map fun entity => (found, entity)

theorem map_fst_filterMap_kept? (found : List ReferenceMatch) :
    (found.filterMap glossary.kept?).map Prod.fst =
      found.filter fun each => (glossary.lookup each.token).isSome := by
  rw [List.map_filterMap, ← List.filterMap_eq_filter]
  congr 1
  funext each
  unfold kept?
  cases named : glossary.lookup each.token <;> simp [Option.guard, named]

theorem map_snd_filterMap_kept? (offset : Nat) (pieces : List Piece) :
    ((Reference.matchesFrom offset pieces).filterMap glossary.kept?).map Prod.snd =
      pieces.filterMap glossary.entityOf? := by
  have entities : ∀ found : List ReferenceMatch,
      (found.filterMap glossary.kept?).map Prod.snd =
        (found.map ReferenceMatch.token).filterMap fun token => glossary.lookup token := by
    intro found
    rw [List.map_filterMap, List.filterMap_map]
    congr 1
    funext each
    unfold kept?
    simp [Function.comp_def]
  rw [entities, Reference.map_token_matchesFrom, List.filterMap_filterMap]
  rfl

/-- Between the cursor and the pieces to come stands what was passed over without a replacement. -/
theorem splice?_matchesFrom (format : Entity → String) (pieces : List Piece)
    (front gap : String) :
    Reference.splice? (front ++ gap ++ Reference.textOf pieces) front.utf8ByteSize
        (((Reference.matchesFrom (front.utf8ByteSize + gap.utf8ByteSize) pieces).filterMap
          glossary.kept?).map fun pair => (pair.1, format pair.2)) =
      some (gap ++ String.ofList (pieces.flatMap (glossary.replacement format))) := by
  induction pieces generalizing front gap with
  | nil =>
      have whole := Text.slice?_append front gap ""
      simpa [Reference.splice?, Reference.matchesFrom, Reference.textOf] using whole
  | cons piece rest inductionHypothesis =>
      cases piece with
      | plain character =>
          have passed := inductionHypothesis front (gap ++ String.singleton character)
          rw [String.utf8ByteSize_append, String.utf8ByteSize_singleton, ← Nat.add_assoc,
            ← String.append_assoc] at passed
          rw [Reference.textOf_plain, ← String.append_assoc, Reference.matchesFrom, passed]
          apply congrArg some
          apply String.toList_inj.mp
          simp [replacement, Piece.token?, Piece.chars]
      | reference token =>
          rw [Reference.textOf_reference, Reference.matchesFrom]
          cases named : glossary.lookup token with
          | none =>
              have passed := inductionHypothesis front (gap ++ (scheme ++ token))
              rw [String.utf8ByteSize_append, ← Nat.add_assoc, ← String.append_assoc] at passed
              rw [List.filterMap_cons_none (by simp [kept?, named]), ← String.append_assoc, passed]
              apply congrArg some
              apply String.toList_inj.mp
              simp [replacement, Piece.token?, Piece.chars, named]
          | some entity =>
              have before := Text.slice?_append front gap (scheme ++ token ++ Reference.textOf rest)
              have later := inductionHypothesis (front ++ gap ++ (scheme ++ token)) ""
              simp only [String.append_empty, String.empty_append, String.utf8ByteSize_append,
                String.utf8ByteSize_empty, Nat.add_zero] at later
              rw [List.filterMap_cons_some (by simp [kept?, named]; rfl), List.map_cons,
                Reference.splice?]
              simp only [String.utf8ByteSize_append]
              rw [before, ← String.append_assoc, later]
              apply congrArg some
              apply String.toList_inj.mp
              simp [replacement, Piece.token?, named]

theorem splice?_scan (format : Entity → String) (text : String) :
    Reference.splice? text 0
        (((Reference.scan text).filterMap glossary.kept?).map fun pair => (pair.1, format pair.2)) =
      some (Expansion.ofPieces glossary format (Reference.piecesOf text)).text := by
  have spliced := glossary.splice?_matchesFrom format (Reference.piecesOf text) "" ""
  simpa [Reference.textOf_piecesOf, Reference.scan_eq_matchesFrom, Expansion.ofPieces] using spliced

/-- Replacing by what stands there already changes nothing. -/
theorem flatMap_replacement_eq_chars {format : Entity → String} {pieces : List Piece}
    (same : ∀ token ∈ pieces.filterMap Piece.token?, ∀ entity,
      glossary.lookup token = some entity → format entity = scheme ++ token) :
    pieces.flatMap (glossary.replacement format) = pieces.flatMap Piece.chars := by
  rw [List.flatMap_def, List.flatMap_def]
  apply congrArg
  apply List.map_congr_left
  intro piece member
  cases piece with
  | plain character => rfl
  | reference token =>
      cases named : glossary.lookup token with
      | none => simp [replacement, Piece.token?, named]
      | some entity =>
          have spelled := same token (List.mem_filterMap.mpr ⟨_, member, rfl⟩) entity named
          simp [replacement, Piece.token?, Piece.chars, named, spelled]

/-- A glossary of what tokens resolve to replaces the references that resolve. -/
theorem exists_kept (format : Entity → String) {text : String} (source : Source σ) (state : σ)
    (named : ∀ token ∈ (Reference.piecesOf text).filterMap Piece.token?, ∃ asked,
      glossary.lookup token = ((Entity.resolve token).run source asked).1.toOption) :
    ∃ kept : List (ReferenceMatch × Entity),
      kept.map Prod.fst = (Reference.scan text).filter (source.resolves state) ∧
      (∀ pair ∈ kept,
        (∃ asked, ((Entity.resolve pair.1.token).run source asked).1 = .ok pair.2) ∧
          Text.slice? text pair.1.start pair.1.stop = some pair.2.spelling) ∧
      (Expansion.ofPieces glossary format (Reference.piecesOf text)).entities =
        kept.map Prod.snd ∧
      Reference.splice? text 0 (kept.map fun pair => (pair.1, format pair.2)) =
        some (Expansion.ofPieces glossary format (Reference.piecesOf text)).text := by
  have namedAt : ∀ found ∈ Reference.scan text, ∃ asked,
      glossary.lookup found.token =
        ((Entity.resolve found.token).run source asked).1.toOption := by
    intro found member
    exact named found.token (Reference.token_mem_of_mem_scan member)
  refine ⟨(Reference.scan text).filterMap glossary.kept?, ?_, ?_, ?_, ?_⟩
  · rw [glossary.map_fst_filterMap_kept?]
    apply List.filter_congr
    intro found member
    obtain ⟨asked, resolved⟩ := namedAt found member
    exact source.isSome_lookup_eq_resolves state resolved
  · intro pair member
    obtain ⟨found, present, kept⟩ := List.mem_filterMap.mp member
    obtain ⟨entity, lookedUp, rfl⟩ := Option.map_eq_some_iff.mp kept
    obtain ⟨asked, resolved⟩ := namedAt found present
    rw [lookedUp, eq_comm, Refusal.toOption_eq_some_iff] at resolved
    refine ⟨⟨asked, resolved⟩, ?_⟩
    obtain ⟨_, _, _, _, spelled, _⟩ := Entity.of_run_resolve resolved
    rw [Reference.slice?_of_mem_scan present, spelled, ReferenceMatch.spelling]
  · rw [Reference.scan_eq_matchesFrom]
    exact (glossary.map_snd_filterMap_kept? 0 _).symm
  · exact glossary.splice?_scan format text

theorem isFrom_ofPieces (format : Entity → String) {text : String} (source : Source σ) (state : σ)
    (named : ∀ token ∈ (Reference.piecesOf text).filterMap Piece.token?, ∃ asked,
      glossary.lookup token = ((Entity.resolve token).run source asked).1.toOption) :
    (Expansion.ofPieces glossary format (Reference.piecesOf text)).IsFrom format text source
      state := by
  obtain ⟨kept, keptAre, each, entities, spliced⟩ :=
    glossary.exists_kept format source state named
  exact ⟨kept, keptAre, fun pair member => (each pair member).1, entities, spliced⟩

end Glossary

/-! ## Expansion -/

section Expand

variable (format : Entity → String) (text : String) (source : Source σ) (state : σ)

/-- An expansion replaces by a glossary in which each token of the text has what it resolved to. -/
theorem exists_glossary_expand :
    ∃ glossary : Glossary,
      ((expand format text).run source state).1 =
        .ofPieces glossary format (Reference.piecesOf text) ∧
      ∀ token ∈ (Reference.piecesOf text).filterMap Piece.token?, ∃ asked,
        glossary.lookup token = ((Entity.resolve token).run source asked).1.toOption := by
  let tokens := distinctBy id ((Reference.piecesOf text).filterMap Piece.token?)
  refine ⟨((Glossary.ofTokens tokens).run source state).1, ?_, ?_⟩
  · rw [expand_eq, Lookup.run_bind, Lookup.run_pure]
  · intro token member
    apply Glossary.lookup_run_ofTokens
    exact mem_distinctBy_id_iff.mpr member

theorem text_expand_spelling :
    ((expand Entity.spelling text).run source state).1.text = text := by
  obtain ⟨glossary, expansion, named⟩ := exists_glossary_expand Entity.spelling text source state
  rw [expansion, Expansion.ofPieces]
  simp only
  rw [glossary.flatMap_replacement_eq_chars]
  · exact Reference.textOf_piecesOf text
  · intro token member entity found
    obtain ⟨asked, resolved⟩ := named token member
    rw [resolved, Refusal.toOption_eq_some_iff] at found
    obtain ⟨_, _, _, _, spelled, _⟩ := Entity.of_run_resolve found
    exact spelled

/-- A text in which no token reads stays as it is. -/
theorem run_expand_of_unread (unread : ∀ token ∈ (Reference.piecesOf text).filterMap Piece.token?,
    (Pointer.ofToken token).isOk = false) :
    ((expand format text).run source state).1 = { text, entities := [] } := by
  obtain ⟨glossary, expansion, named⟩ := exists_glossary_expand format text source state
  have unnamed : ∀ token ∈ (Reference.piecesOf text).filterMap Piece.token?,
      glossary.lookup token = none := by
    intro token member
    obtain ⟨asked, resolved⟩ := named token member
    rw [resolved, ← Option.not_isSome_iff_eq_none, Refusal.isSome_toOption,
      Entity.isOk_run_resolve, unread token member]
    exact Bool.false_ne_true
  have without : ∀ piece ∈ Reference.piecesOf text, glossary.entityOf? piece = none := by
    intro piece member
    rw [Glossary.entityOf?, Option.bind_eq_none_iff]
    exact fun token is => unnamed token (List.mem_filterMap.mpr ⟨piece, member, is⟩)
  rw [expansion, Expansion.ofPieces, List.filterMap_eq_nil_iff.mpr without,
    glossary.flatMap_replacement_eq_chars]
  · exact congrArg (Expansion.mk · []) (Reference.textOf_piecesOf text)
  · intro token member entity found
    rw [unnamed token member] at found
    cases found

theorem exists_kept_expand :
    ∃ kept : List (ReferenceMatch × Entity),
      kept.map Prod.fst = (Reference.scan text).filter (source.resolves state) ∧
      (∀ pair ∈ kept,
        (∃ asked, ((Entity.resolve pair.1.token).run source asked).1 = .ok pair.2) ∧
          Text.slice? text pair.1.start pair.1.stop = some pair.2.spelling) ∧
      ((expand format text).run source state).1.entities = kept.map Prod.snd ∧
      Reference.splice? text 0 (kept.map fun pair => (pair.1, format pair.2)) =
        some ((expand format text).run source state).1.text := by
  obtain ⟨glossary, expansion, named⟩ := exists_glossary_expand format text source state
  rw [expansion]
  exact glossary.exists_kept format source state named

/-- The references that resolve, and no others, give way to what the formatter makes of their
entities; every slice that this takes exists, and the entities are those of the replaced references
in their order.  So a formatter that gives the spelling changes nothing, and neither does any
formatter if no reference resolves. -/
theorem expand_splices :
    (∃ kept : List (ReferenceMatch × Entity),
      kept.map Prod.fst = (Reference.scan text).filter (source.resolves state) ∧
      (∀ pair ∈ kept,
        (∃ asked, ((Entity.resolve pair.1.token).run source asked).1 = .ok pair.2) ∧
          Text.slice? text pair.1.start pair.1.stop = some pair.2.spelling) ∧
      ((expand format text).run source state).1.entities = kept.map Prod.snd ∧
      Reference.splice? text 0 (kept.map fun pair => (pair.1, format pair.2)) =
        some ((expand format text).run source state).1.text) ∧
    (∀ found asked, source.resolves asked found = source.resolves state found) ∧
    ((expand Entity.spelling text).run source state).1.text = text ∧
    ((∀ found ∈ Reference.scan text, source.resolves state found = false) →
      ((expand format text).run source state).1 = { text, entities := [] }) := by
  refine ⟨exists_kept_expand format text source state, ?_,
    text_expand_spelling text source state, ?_⟩
  · intro found asked
    rw [source.resolves_eq, source.resolves_eq]
  · intro unresolved
    obtain ⟨kept, keptAre, _, entities, spliced⟩ := exists_kept_expand format text source state
    rw [List.filter_eq_nil_iff.mpr (by simpa using unresolved), List.map_eq_nil_iff] at keptAre
    subst keptAre
    rw [List.map_nil, Reference.splice?, Text.slice?_whole, Option.some.injEq] at spliced
    cases expansion : ((expand format text).run source state).1 with
    | mk expanded found =>
        rw [expansion] at entities spliced
        cases spliced
        cases entities
        rfl

end Expand

/-- After a character of two octets stands a reference that resolves, and after that one whose
checksum is wrong. -/
theorem expand_splices_mixed :
    let source := (MemoryStore.empty.answers .background).source
    let text :=
      "é nostr:npub10elfcs4fr0l0r8af98jlmgdh9c8tcxjvz9qkw038js35mp4dma8qzvjptg nostr:note1xyz!"
    (∃ pair : ReferenceMatch × Entity, pair.1.start = 3 ∧
        Text.slice? text pair.1.start pair.1.stop = some pair.2.spelling ∧
        Reference.splice? text 0 [(pair.1, pair.2.displayName)] =
          some "é 7e7e9c42...86addf4e nostr:note1xyz!") ∧
      (∀ found ∈ Reference.scan "é nostr:note1xyz!", source.resolves () found = false) ∧
      ((expand Entity.displayName "é nostr:note1xyz!").run source ()).1 =
        { text := "é nostr:note1xyz!", entities := [] } := by
  intro source text
  have resolving : ((Reference.scan text).filter (source.resolves ())).map ReferenceMatch.start =
      [3] := by
    decide +kernel
  have unresolved : ∀ found ∈ Reference.scan "é nostr:note1xyz!",
      source.resolves () found = false := by
    decide +kernel
  have expanded : ((expand Entity.displayName text).run source ()).1.text =
      "é 7e7e9c42...86addf4e nostr:note1xyz!" := by
    decide +kernel
  refine ⟨?_, unresolved, (expand_splices Entity.displayName _ source ()).2.2.2 unresolved⟩
  obtain ⟨⟨kept, keptAre, keptHave, _, spliced⟩, _⟩ :=
    expand_splices Entity.displayName text source ()
  rw [← keptAre, List.map_map, List.map_eq_singleton_iff] at resolving
  obtain ⟨pair, rfl, start⟩ := resolving
  rw [expanded] at spliced
  exact ⟨pair, start, (keptHave pair List.mem_cons_self).2, spliced⟩

end NostrCapsule
