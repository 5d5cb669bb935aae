import NostrCapsule.Proofs.Identifier.TokenRoundTrip
import NostrCapsule.Proofs.Reference.Replacement
import NostrCapsule.Proofs.Reference.Separation

/-!
Contract: a written token is found in a text, and it leads back to its pointer.

A token that was written for a pointer has the shape of a reference, as long as it is: its name is
one of those that are looked for, and its letters are those that a reference takes in.  What stands
in front of it must be kept apart from it, and what stands behind it must not lengthen it.

Owns:
- `Pointer.isToken_of_toToken`, and where a written token is found;
- `expand_written`, from the place in the text to the entity.

Does not own: tokens that were written elsewhere.
-/

namespace NostrCapsule

variable {σ : Type}

/-! ## Place -/

theorem Reference.piecesOf_reference_append {token back : String} (shaped : IsToken token.toList)
    (stops : ∀ character ∈ back.toList.head?, isBody character = false) :
    piecesOf (scheme ++ token ++ back) = .reference token :: piecesOf back := by
  have found : referenceAt? (scheme.toList ++ (token.toList ++ back.toList)) =
      some (token.toList, back.toList) :=
    referenceAt?_eq_some_iff.mpr ⟨rfl, shaped, stops⟩
  unfold piecesOf
  rw [String.toList_append, String.toList_append, List.append_assoc,
    pieces_of_referenceAt? found, String.ofList_toList]

namespace Pointer

variable {pointer : Pointer} {token : String}

theorem tokenPrefix_mem_names (kind : PointerKind) : kind.tokenPrefix ∈ Reference.names := by
  cases kind <;> decide

theorem isToken_of_toToken (written : pointer.toToken = .ok token) :
    Reference.IsToken token.toList := by
  obtain ⟨octets, _, encoded⟩ := toToken_eq_ok_iff.mp written
  obtain ⟨_, rfl⟩ := Bech32.encode_eq_ok_iff.mp encoded
  rw [String.toList_ofList]
  refine ⟨_, tokenPrefix_mem_names pointer.kind, _, rfl, ?_, ?_⟩
  · intro empty
    have counted := congrArg List.length empty
    rw [List.length_map, List.length_append, Bech32.length_checksum, List.length_nil] at counted
    omega
  · intro character member
    obtain ⟨quintet, _, rfl⟩ := List.mem_map.mp member
    have each : ∀ quintet, Reference.isBody (Bech32.letter quintet) = true := by decide
    exact each quintet

/-- A written token behind white space is a piece of its own. -/
theorem piecesOf_of_toToken (written : pointer.toToken = .ok token) {front back : String}
    (ends : ∀ character ∈ front.toList.getLast?, Text.isBlank character = true)
    (stops : ∀ character ∈ back.toList.head?, Reference.isBody character = false) :
    Reference.piecesOf (front ++ (scheme ++ token ++ back)) =
        Reference.piecesOf front ++ Reference.piecesOf (scheme ++ token ++ back) ∧
      Reference.piecesOf (scheme ++ token ++ back) =
        .reference token :: Reference.piecesOf back := by
  constructor
  · unfold Reference.piecesOf
    rw [String.toList_append, Reference.pieces_append]
    exact fun character last => Reference.separates_of_isBlank (ends character last)
  · exact Reference.piecesOf_reference_append (isToken_of_toToken written) stops

theorem scan_of_toToken (written : pointer.toToken = .ok token) {front back : String}
    (ends : ∀ character ∈ front.toList.getLast?, Text.isBlank character = true)
    (stops : ∀ character ∈ back.toList.head?, Reference.isBody character = false) :
    Reference.scan (front ++ (scheme ++ token ++ back)) =
      Reference.scan front ++
        ⟨front.utf8ByteSize, (front ++ (scheme ++ token)).utf8ByteSize, token⟩ ::
          (Reference.scan back).map
            (ReferenceMatch.shift (front ++ (scheme ++ token)).utf8ByteSize) := by
  obtain ⟨apart, alone⟩ := piecesOf_of_toToken written ends stops
  have behind : Reference.scan (scheme ++ token ++ back) =
      ⟨0, (scheme ++ token).utf8ByteSize, token⟩ ::
        (Reference.scan back).map (ReferenceMatch.shift (scheme ++ token).utf8ByteSize) := by
    rw [Reference.scan_eq_matchesFrom, alone, Reference.matchesFrom, Nat.zero_add,
      Reference.scan_eq_matchesFrom]
    exact congrArg (_ :: ·) (Reference.matchesFrom_add (scheme ++ token).utf8ByteSize 0 _)
  have size : (front ++ (scheme ++ token)).utf8ByteSize =
      front.utf8ByteSize + (scheme ++ token).utf8ByteSize := by
    rw [String.utf8ByteSize_append]
  have shifted : ReferenceMatch.shift front.utf8ByteSize ∘
      ReferenceMatch.shift (scheme ++ token).utf8ByteSize =
        ReferenceMatch.shift (front ++ (scheme ++ token)).utf8ByteSize := by
    funext found
    rw [size, Function.comp_apply, ReferenceMatch.shift_shift]
  rw [Reference.scan_append apart, behind, List.map_cons, List.map_map, shifted, size]
  rfl

end Pointer

/-! ## Expansion -/

theorem Expansion.ofPieces_append_reference {glossary : Glossary} {token : String}
    {entity : Entity} (found : glossary.lookup token = some entity) (format : Entity → String)
    (front back : List Piece) :
    ofPieces glossary format (front ++ .reference token :: back) =
      { text := (ofPieces glossary format front).text ++ format entity ++
          (ofPieces glossary format back).text
        entities := (ofPieces glossary format front).entities ++
          entity :: (ofPieces glossary format back).entities } := by
  have replaced : glossary.replacement format (.reference token) = (format entity).toList := by
    simp [Glossary.replacement, Piece.token?, found]
  have entityOf : glossary.entityOf? (.reference token) = some entity := by
    simp [Glossary.entityOf?, Piece.token?, found]
  simp only [ofPieces, List.flatMap_append, List.flatMap_cons, List.filterMap_append,
    List.filterMap_cons, replaced, entityOf, String.ofList_append, String.ofList_toList,
    String.append_assoc]

/-- The token of a pointer, with the scheme in front, is found in any text in which it stands
behind white space or at the beginning and before a character that is none of its letters or at the
end; the references on its two sides are those of the two sides.  It is replaced by what its entity
looks like, which tells the pointer's kind, path and token, and the two sides are expanded as they
would be by themselves. -/
theorem expand_written {pointer : Pointer} {token : String}
    (written : pointer.toToken = .ok token) {front back : String}
    (ends : ∀ character ∈ front.toList.getLast?, Text.isBlank character = true)
    (starts : ∀ character ∈ back.toList.head?, character ∉ Bech32.alphabet)
    (format : Entity → String) (source : Source σ) (state : σ) :
    Reference.scan (front ++ (scheme ++ token ++ back)) =
        Reference.scan front ++
          ⟨front.utf8ByteSize, (front ++ (scheme ++ token)).utf8ByteSize, token⟩ ::
            (Reference.scan back).map
              (ReferenceMatch.shift (front ++ (scheme ++ token)).utf8ByteSize) ∧
      ∃ (before after : Expansion) (entity : Entity),
        before.IsFrom format front source state ∧ after.IsFrom format back source state ∧
        entity.kind = pointer.kind ∧ entity.linkPath = pointer.linkPath ∧
        entity.identifier = token ∧
        ((expand format (front ++ (scheme ++ token ++ back))).run source state).1 =
          { text := before.text ++ format entity ++ after.text
            entities := before.entities ++ entity :: after.entities } := by
  have stops : ∀ character ∈ back.toList.head?, Reference.isBody character = false := by
    intro character first
    rw [← Bool.not_eq_true, Reference.isBody_iff_mem_alphabet]
    exact starts character first
  refine ⟨Pointer.scan_of_toToken written ends stops, ?_⟩
  obtain ⟨apart, alone⟩ := Pointer.piecesOf_of_toToken written ends stops
  obtain ⟨glossary, expansion, named⟩ :=
    exists_glossary_expand format (front ++ (scheme ++ token ++ back)) source state
  rw [apart, alone] at expansion named
  have namedAll : ∀ each, each ∈ (Reference.piecesOf front).filterMap Piece.token? ∨ each = token ∨
      each ∈ (Reference.piecesOf back).filterMap Piece.token? → ∃ asked,
        glossary.lookup each = ((Entity.resolve each).run source asked).1.toOption := by
    intro each among
    apply named each
    rw [List.filterMap_append, List.mem_append]
    exact among.imp_right List.mem_cons.mpr
  obtain ⟨asked, resolved⟩ := namedAll token (.inr (.inl rfl))
  rw [Entity.run_resolve_of_ok (Pointer.ofToken_of_toToken written)] at resolved
  refine ⟨_, _, _, glossary.isFrom_ofPieces format source state
      fun each member => namedAll each (.inl member),
    glossary.isFrom_ofPieces format source state
      fun each member => namedAll each (.inr (.inr member)),
    ?_, ?_, ?_, expansion.trans (Expansion.ofPieces_append_reference resolved format _ _)⟩
  · rfl
  · rfl
  · exact Entity.identifier_of_spelling rfl

/-- The token of a key behind a character of two octets and a space, before a mark. -/
theorem expand_written_pubkey :
    let key : PublicKey := ⟨[0x7e, 0x7e, 0x9c, 0x42, 0xa9, 0x1b, 0xfe, 0xf1, 0x9f, 0xa9, 0x29, 0xe5,
      0xfd, 0xa1, 0xb7, 0x2e, 0x0e, 0xbc, 0x1a, 0x4c, 0x11, 0x41, 0x67, 0x3e, 0x27, 0x94, 0x23,
      0x4d, 0x86, 0xad, 0xdf, 0x4e], rfl⟩
    let token := "npub10elfcs4fr0l0r8af98jlmgdh9c8tcxjvz9qkw038js35mp4dma8qzvjptg"
    let source := (MemoryStore.empty.answers .background).source
    let text := "é " ++ (scheme ++ token ++ "!")
    (Pointer.pubkey key).toToken = .ok token ∧
      Reference.scan text = [⟨3, 72, token⟩] ∧
      ∃ entity ∈ ((expand Entity.displayName text).run source ()).1.entities,
        entity.kind = .pubkey ∧ entity.linkPath = (Pointer.pubkey key).linkPath ∧
          entity.identifier = token := by
  intro key token source text
  have written : (Pointer.pubkey key).toToken = .ok token := by
    decide +kernel
  have ends : ∀ character ∈ "é ".toList.getLast?, Text.isBlank character = true := by
    rintro character ⟨⟩
    decide
  have starts : ∀ character ∈ "!".toList.head?, character ∉ Bech32.alphabet := by
    rintro character ⟨⟩
    decide
  obtain ⟨found, before, after, entity, _, _, kind, path, identifier, expansion⟩ :=
    expand_written written ends starts Entity.displayName source ()
  refine ⟨written, found.trans (by decide +kernel), entity, ?_, kind, path, identifier⟩
  rw [expansion]
  exact List.mem_append_right _ List.mem_cons_self

end NostrCapsule
