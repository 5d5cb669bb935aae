import NostrCapsule.Proofs.FirstOccurrence
import NostrCapsule.Proofs.Reference.Glossary

/-!
Contract: a text that is expanded with a memo is expanded by a glossary of its tokens.

A token is resolved where it is met first, in the midst of the replacing.  Since replacing asks
nothing, all tokens may as well be resolved before, each once and in the order in which they are
met; the text then comes out the same, and so do the questions.

Owns:
- `Memo.unknown`, the tokens that are still to be asked for;
- expansions side by side, and `Expansion.naming`, by the entities of tokens;
- `expandPieces_eq` and `expand_eq`.

Does not own: what a token resolves to.
-/

namespace NostrCapsule

/-! ## Tokens to ask for -/

/-- The tokens of pieces that a memo does not know yet, each once. -/
def Memo.unknown (memo : Memo) (pieces : List Piece) : List String :=
  distinctBy id ((pieces.filterMap Piece.token?).filter fun token => (memo.lookup token).isNone)

namespace Memo

variable {memo : Memo} {token : String}

theorem unknown_cons_of_known {known : Option Entity} (met : memo.lookup token = some known)
    (rest : List Piece) : memo.unknown (.reference token :: rest) = memo.unknown rest := by
  unfold unknown
  show distinctBy id ((token :: rest.filterMap Piece.token?).filter _) = _
  rw [List.filter_cons_of_neg (by simp [met])]

theorem not_mem_unknown {known : Option Entity} (met : memo.lookup token = some known)
    (pieces : List Piece) : token ∉ memo.unknown pieces := by
  unfold unknown
  rw [mem_distinctBy_id_iff, List.mem_filter, met]
  exact fun listed => Bool.false_ne_true listed.2

/-- What is known of a token makes no difference to what is still to be asked for. -/
theorem unknown_cons_congr (found other : Option Entity) (pieces : List Piece) :
    Memo.unknown ((token, found) :: memo) pieces =
      Memo.unknown ((token, other) :: memo) pieces := by
  unfold unknown
  apply congrArg (distinctBy id)
  apply List.filter_congr
  intro each _
  rw [List.lookup_cons, List.lookup_cons]
  cases each == token <;> rfl

theorem unknown_cons_of_new (new : memo.lookup token = none) (found : Option Entity)
    (rest : List Piece) :
    memo.unknown (.reference token :: rest) =
      token :: Memo.unknown ((token, found) :: memo) rest := by
  unfold unknown
  show distinctBy id ((token :: rest.filterMap Piece.token?).filter _) = _
  rw [List.filter_cons_of_pos (by simp [new]), distinctBy]
  apply congrArg (token :: ·)
  have later := filter_distinctBy id (fun other => decide (other ≠ token))
    ((rest.filterMap Piece.token?).filter fun token => (memo.lookup token).isNone)
  refine later.trans ?_
  rw [List.filter_filter]
  apply congrArg (distinctBy id)
  apply List.filter_congr
  intro other _
  rw [List.lookup_cons]
  by_cases same : other = token
  · simp [same]
  · simp [same, beq_false_of_ne same]

end Memo

/-! ## Expansions side by side -/

attribute [ext] Expansion

instance : Append Expansion where
  append left right :=
    { text := left.text ++ right.text, entities := left.entities ++ right.entities }

namespace Expansion

@[simp] theorem text_append (left right : Expansion) :
    (left ++ right).text = left.text ++ right.text := rfl

@[simp] theorem entities_append (left right : Expansion) :
    (left ++ right).entities = left.entities ++ right.entities := rfl

theorem append_assoc (first second third : Expansion) :
    first ++ second ++ third = first ++ (second ++ third) := by
  apply Expansion.ext
  · exact String.append_assoc
  · exact List.append_assoc _ _ _

theorem append_empty (expansion : Expansion) : expansion ++ ⟨"", []⟩ = expansion := by
  apply Expansion.ext
  · exact String.append_empty
  · exact List.append_nil _

def ofPiece (format : Entity → String) (piece : Piece) (found : Option Entity) : Expansion where
  text := String.ofList (piece.replaced format found)
  entities := found.toList

/-- The expansion of pieces whose tokens have the given entities. -/
def naming (entity? : String → Option Entity) (format : Entity → String) (pieces : List Piece) :
    Expansion where
  text := String.ofList
    (pieces.flatMap fun piece => piece.replaced format (piece.token?.bind entity?))
  entities := pieces.filterMap fun piece => piece.token?.bind entity?

section Naming

variable (entity? : String → Option Entity) (format : Entity → String)

theorem naming_cons (piece : Piece) (rest : List Piece) :
    naming entity? format (piece :: rest) =
      ofPiece format piece (piece.token?.bind entity?) ++ naming entity? format rest := by
  apply Expansion.ext
  · rw [naming, List.flatMap_cons, String.ofList_append]
    rfl
  · cases found : piece.token?.bind entity? <;> simp [naming, ofPiece, found]

theorem naming_append (front back : List Piece) :
    naming entity? format (front ++ back) =
      naming entity? format front ++ naming entity? format back := by
  apply Expansion.ext
  · rw [naming, List.flatMap_append, String.ofList_append]
    rfl
  · exact List.filterMap_append

theorem naming_congr {entity? other? : String → Option Entity} {pieces : List Piece}
    (same : ∀ token ∈ pieces.filterMap Piece.token?, entity? token = other? token) :
    naming entity? format pieces = naming other? format pieces := by
  have each : ∀ piece ∈ pieces, piece.token?.bind entity? = piece.token?.bind other? := by
    intro piece member
    cases named : piece.token? with
    | none => rfl
    | some token => exact same token (List.mem_filterMap.mpr ⟨piece, member, named⟩)
  apply Expansion.ext
  · apply congrArg String.ofList
    exact List.flatMap_congr fun piece member => by rw [each piece member]
  · exact List.filterMap_congr each

/-- A glossary gives the entities of its tokens. -/
theorem ofPieces_eq_naming (glossary : Glossary) (pieces : List Piece) :
    ofPieces glossary format pieces =
      naming (fun token => glossary.lookup token) format pieces := rfl

end Naming

/-- What is written while pieces are replaced, from the characters and the entities in reverse. -/
def ofReversed (written : List Char) (entities : List Entity) : Expansion where
  text := String.ofList written.reverse
  entities := entities.reverse

theorem ofReversed_nil_append (expansion : Expansion) :
    ofReversed [] [] ++ expansion = expansion := by
  apply Expansion.ext
  · exact String.empty_append
  · exact List.nil_append _

/-- One more piece is written before the others are. -/
theorem ofReversed_append_naming (entity? : String → Option Entity) (format : Entity → String)
    (written : List Char) (entities : List Entity) {piece : Piece} {found : Option Entity}
    (named : piece.token?.bind entity? = found) (rest : List Piece) :
    ofReversed ((piece.replaced format found).reverseAux written) (found.toList ++ entities) ++
        naming entity? format rest =
      ofReversed written entities ++ naming entity? format (piece :: rest) := by
  have step : ofReversed ((piece.replaced format found).reverseAux written)
      (found.toList ++ entities) = ofReversed written entities ++ ofPiece format piece found := by
    apply Expansion.ext
    · simp [ofReversed, ofPiece, List.reverseAux_eq, String.ofList_append]
    · cases found <;> simp [ofReversed, ofPiece]
  rw [naming_cons, named, step, append_assoc]

end Expansion

/-! ## Replacing with a memo -/

/-- The entity of a token by a memo, or else by a glossary. -/
def Memo.entity? (memo : Memo) (glossary : Glossary) (token : String) : Option Entity :=
  (memo.lookup token).getD (glossary.lookup token)

namespace Memo

variable {memo : Memo} {token : String}

theorem entity?_of_known {known : Option Entity} (met : memo.lookup token = some known)
    (glossary : Glossary) : memo.entity? glossary token = known := by
  rw [entity?, met, Option.getD_some]

/-- An entity may be found in the memo as well as in the glossary. -/
theorem entity?_cons_some (new : memo.lookup token = none) (entity : Entity)
    (glossary : Glossary) :
    Memo.entity? ((token, some entity) :: memo) glossary =
      memo.entity? ((token, entity) :: glossary) := by
  funext other
  unfold entity?
  rw [List.lookup_cons, List.lookup_cons]
  by_cases same : other = token
  · rw [same, beq_self_eq_true, new]
    rfl
  · rw [beq_false_of_ne same]

/-- That a token did not resolve is known already if the glossary does not have it. -/
theorem entity?_cons_none (new : memo.lookup token = none) {glossary : Glossary}
    (absent : glossary.lookup token = none) :
    Memo.entity? ((token, none) :: memo) glossary = memo.entity? glossary := by
  funext other
  unfold entity?
  rw [List.lookup_cons]
  by_cases same : other = token
  · rw [same, beq_self_eq_true, new, absent]
    rfl
  · rw [beq_false_of_ne same]

end Memo

/-- Replacing piece by piece asks for the tokens that the memo does not know, each once, and gives
each piece the entity that its token has by then. -/
theorem expandPieces_eq (format : Entity → String) (memo : Memo) (written : List Char)
    (entities : List Entity) (pieces : List Piece) :
    expandPieces format memo written entities pieces = (do
      let glossary ← Glossary.ofTokens (memo.unknown pieces)
      pure (.ofReversed written entities ++
        .naming (memo.entity? glossary) format pieces)) := by
  induction pieces generalizing memo written entities with
  | nil =>
      show pure (Expansion.ofReversed written entities) =
        pure (Expansion.ofReversed written entities ++ ⟨"", []⟩)
      rw [Expansion.append_empty]
  | cons piece rest inductionHypothesis =>
      cases piece with
      | plain character =>
          rw [expandPieces, inductionHypothesis]
          apply bind_congr
          intro glossary
          apply congrArg pure
          have unnamed : (Piece.plain character).token?.bind (memo.entity? glossary) = none := rfl
          exact Expansion.ofReversed_append_naming _ format written entities unnamed rest
      | reference token =>
          cases met : memo.lookup token with
          | some known =>
              have resolved : memo.resolve token = pure (known, memo) := by
                rw [Memo.resolve, met]
              rw [expandPieces, resolved, pure_bind, Memo.unknown_cons_of_known met]
              dsimp only
              rw [inductionHypothesis]
              apply bind_congr
              intro glossary
              apply congrArg pure
              apply Expansion.ofReversed_append_naming
              exact Memo.entity?_of_known met glossary
          | none =>
              have resolved : memo.resolve token = (do
                  let found ← Entity.resolve token
                  pure (found.toOption, (token, found.toOption) :: memo)) := by
                rw [Memo.resolve, met]
              rw [expandPieces, resolved, Memo.unknown_cons_of_new met none, Glossary.ofTokens]
              simp only [bind_assoc, pure_bind]
              apply bind_congr
              rintro (refusal | entity)
              · -- The token comes up in no later question, so that it stays without an entity.
                rw [inductionHypothesis]
                apply (Glossary.always_ofTokens _).bind_congr
                intro glossary others
                have absent : glossary.lookup token = none :=
                  others token (Memo.not_mem_unknown List.lookup_cons_self rest)
                apply congrArg pure
                rw [← Memo.entity?_cons_none met absent]
                apply Expansion.ofReversed_append_naming
                exact Memo.entity?_of_known List.lookup_cons_self glossary
              · rw [inductionHypothesis, Memo.unknown_cons_congr _ none]
                simp only [bind_assoc, pure_bind]
                apply bind_congr
                intro glossary
                apply congrArg pure
                rw [← Memo.entity?_cons_some met entity glossary]
                apply Expansion.ofReversed_append_naming
                exact Memo.entity?_of_known List.lookup_cons_self glossary

/-- An expansion asks for the distinct tokens of its text, in the order of their first occurrences,
and replaces by what comes of that. -/
theorem expand_eq (format : Entity → String) (text : String) :
    expand format text = (do
      let glossary ← Glossary.ofTokens
        (distinctBy id ((Reference.piecesOf text).filterMap Piece.token?))
      pure (.ofPieces glossary format (Reference.piecesOf text))) := by
  have unknown : Memo.unknown [] (Reference.piecesOf text) =
      distinctBy id ((Reference.piecesOf text).filterMap Piece.token?) := by
    apply congrArg (distinctBy id)
    exact List.filter_eq_self.mpr fun _ _ => rfl
  rw [expand, expandPieces_eq, unknown]
  simp only [Expansion.ofReversed_nil_append]
  rfl

end NostrCapsule
