import NostrCapsule.Proofs.Reference.Separation
import NostrCapsule.Proofs.Reference.Steady

/-!
Contract: texts with white space between them are expanded side by side.

No reference spans white space, so that the pieces of a text are those of its parts, with the white
space for itself.  Over a source that answers each filter alike, the parts have nothing else in
common: what one part asked and remembered does not show in the other.

Owns:
- the pieces and the references of a text with white space in it;
- `expand_append_blank`, for two parts, and for the lines of a document.

Does not own: texts that are not kept apart.
-/

namespace NostrCapsule

variable {σ : Type}

/-! ## Pieces and references -/

namespace Reference

variable {separator : Char} (blank : Text.isBlank separator = true) (front back : String)

include blank

theorem piecesOf_append_blank :
    piecesOf (front ++ String.singleton separator ++ back) =
      piecesOf front ++ .plain separator :: piecesOf back := by
  have characters : (front ++ String.singleton separator ++ back).toList =
      front.toList ++ separator :: back.toList := by
    simp
  rw [piecesOf, characters]
  exact pieces_append_separator (separates_of_isBlank blank) front.toList back.toList

theorem map_token_scan_append_blank :
    (scan (front ++ String.singleton separator ++ back)).map ReferenceMatch.token =
      (scan front).map ReferenceMatch.token ++ (scan back).map ReferenceMatch.token := by
  rw [map_token_scan, map_token_scan, map_token_scan, piecesOf_append_blank blank,
    List.filterMap_append]
  rfl

/-- The references of the second part are found where they stand in it, behind the white space. -/
theorem scan_append_blank :
    scan (front ++ String.singleton separator ++ back) =
      scan front ++
        (scan back).map
          (ReferenceMatch.shift (front ++ String.singleton separator).utf8ByteSize) := by
  rw [scan_eq_matchesFrom, piecesOf_append_blank blank, matchesFrom_append, textOf_piecesOf,
    Nat.zero_add, scan_eq_matchesFrom, scan_eq_matchesFrom, String.utf8ByteSize_append,
    String.utf8ByteSize_singleton]
  apply congrArg (matchesFrom 0 (piecesOf front) ++ ·)
  exact matchesFrom_add (front.utf8ByteSize + separator.utf8Size) 0 (piecesOf back)

end Reference

/-! ## Expansions -/

namespace Expansion

variable (entity? : String → Option Entity) (format : Entity → String)

theorem naming_append_blank {separator : Char} (blank : Text.isBlank separator = true)
    (front back : String) :
    naming entity? format (Reference.piecesOf (front ++ String.singleton separator ++ back)) =
      naming entity? format (Reference.piecesOf front) ++ ⟨String.singleton separator, []⟩ ++
        naming entity? format (Reference.piecesOf back) := by
  have alone : ofPiece format (.plain separator) none = ⟨String.singleton separator, []⟩ := by
    show Expansion.mk (String.ofList [separator]) [] = _
    rw [String.singleton_eq_ofList]
  rw [Reference.piecesOf_append_blank blank, naming_append, naming_cons, append_assoc, ← alone]
  rfl

def ofLines (lines : List Expansion) : Expansion where
  text := Text.unlines (lines.map text)
  entities := lines.flatMap entities

theorem ofLines_singleton (line : Expansion) : ofLines [line] = line := by
  apply Expansion.ext
  · exact @String.intercalate_singleton "\n" line.text
  · exact List.flatMap_singleton entities line

theorem ofLines_cons_cons (first second : Expansion) (rest : List Expansion) :
    ofLines (first :: second :: rest) =
      first ++ ⟨String.singleton '\n', []⟩ ++ ofLines (second :: rest) := by
  apply Expansion.ext
  · exact String.intercalate_cons_cons
  · rw [entities_append, entities_append, List.append_nil]
    rfl

theorem naming_unlines (lines : List String) :
    naming entity? format (Reference.piecesOf (Text.unlines lines)) =
      ofLines (lines.map fun line => naming entity? format (Reference.piecesOf line)) := by
  induction lines with
  | nil =>
      have empty : Reference.piecesOf (Text.unlines []) = [] := Reference.pieces_nil
      rw [empty]
      rfl
  | cons first rest inductionHypothesis =>
      cases rest with
      | nil =>
          have alone : Text.unlines [first] = first := String.intercalate_singleton
          rw [alone]
          exact (ofLines_singleton _).symm
      | cons second later =>
          have feed : Text.isBlank '\n' = true := by decide
          have joined : Text.unlines (first :: second :: later) =
              first ++ String.singleton '\n' ++ Text.unlines (second :: later) :=
            String.intercalate_cons_cons
          rw [joined, naming_append_blank entity? format feed, inductionHypothesis]
          exact (ofLines_cons_cons _ _ _).symm

end Expansion

namespace Source.Steady

variable {source : Source σ} (steady : source.Steady) (state : σ)

include steady

/-- Texts that are expanded in turn come out as each does by itself. -/
theorem run_mapM_expand (other : σ) (format : Entity → String) (texts : List String) :
    ((texts.mapM (expand format)).run source state).1 =
      texts.map fun text =>
        .naming (source.entity? other) format (Reference.piecesOf text) := by
  induction texts generalizing state with
  | nil => rfl
  | cons text rest inductionHypothesis =>
      rw [List.mapM_cons, Lookup.run_bind, Lookup.run_bind, Lookup.run_pure, List.map_cons,
        steady.run_expand state other]
      dsimp only
      rw [inductionHypothesis]

end Source.Steady

/-- White space keeps what stands on its two sides apart: their references are found one after the
other, and over a store that answers each filter alike they are expanded one after the other.  So
a document may as well be expanded line by line. -/
theorem expand_append_blank (format : Entity → String) {separator : Char}
    (blank : Text.isBlank separator = true) (front back document : String) (source : Source σ)
    (state first second : σ) :
    let whole := front ++ String.singleton separator ++ back
    let before := ((expand format front).run source first).1
    let after := ((expand format back).run source second).1
    let lines := (((Text.linesOf document).mapM (expand format)).run source first).1
    (Reference.scan whole).map ReferenceMatch.token =
        (Reference.scan front).map ReferenceMatch.token ++
          (Reference.scan back).map ReferenceMatch.token ∧
      Reference.scan whole =
        Reference.scan front ++
          (Reference.scan back).map
            (ReferenceMatch.shift (front ++ String.singleton separator).utf8ByteSize) ∧
      (source.Steady →
        ((expand format whole).run source state).1 =
            { text := before.text ++ String.singleton separator ++ after.text
              entities := before.entities ++ after.entities } ∧
          ((expand format document).run source state).1 =
            { text := Text.unlines (lines.map Expansion.text)
              entities := lines.flatMap Expansion.entities }) := by
  intro whole before after lines
  refine ⟨Reference.map_token_scan_append_blank blank front back,
    Reference.scan_append_blank blank front back, ?_⟩
  intro steady
  constructor
  · have apart := Expansion.naming_append_blank (source.entity? state) format blank front back
    rw [steady.run_expand state state, apart, ← steady.run_expand first state,
      ← steady.run_expand second state]
    apply Expansion.ext
    · rfl
    · exact congrArg (· ++ after.entities) (List.append_nil before.entities)
  · have cut := Expansion.naming_unlines (source.entity? state) format (Text.linesOf document)
    rw [Text.unlines_linesOf, ← steady.run_mapM_expand first state] at cut
    rw [steady.run_expand state state, cut]
    rfl

/-- One key on both sides of a no-break space, and in the last line of a document. -/
theorem expand_append_blank_key :
    let source := (MemoryStore.empty.answers .background).source
    let key := "nostr:npub10elfcs4fr0l0r8af98jlmgdh9c8tcxjvz9qkw038js35mp4dma8qzvjptg"
    let document := "by\n" ++ key
    source.Steady ∧ Text.isBlank '\u00A0' = true ∧
      (Reference.scan (key ++ String.singleton '\u00A0' ++ key)).map ReferenceMatch.start =
        [0, 71] ∧
      ((expand Entity.displayName (key ++ String.singleton '\u00A0' ++ key)).run source ()).1.text =
        "7e7e9c42...86addf4e\u00A07e7e9c42...86addf4e" ∧
      ((expand Entity.displayName document).run source ()).1.text =
        "by\n7e7e9c42...86addf4e" := by
  intro source key document
  have steady : source.Steady := Answers.steady_source _
  have blank : Text.isBlank '\u00A0' = true := by decide
  have alone : ((expand Entity.displayName key).run source ()).1.text = "7e7e9c42...86addf4e" := by
    decide +kernel
  obtain ⟨_, places, expanded⟩ :=
    expand_append_blank Entity.displayName blank key key document source () () ()
  obtain ⟨parts, lines⟩ := expanded steady
  refine ⟨steady, blank, ?_, ?_, ?_⟩
  · rw [places]
    decide +kernel
  · rw [parts, alone]
    rfl
  · rw [lines]
    decide +kernel

end NostrCapsule
