import NostrCapsule.Proofs.Lookup.Laws
import NostrCapsule.Proofs.Refusal
import NostrCapsule.Reference.Expansion

/-!
Contract: what a token resolves to, alone and in a glossary.

Whether a token resolves is decided by its spelling; the store has a say in the name only.

Owns:
- the result of resolving a token, field by field;
- `Glossary`, in which each token has what it resolved to when it was asked for;
- `Expansion.ofPieces`, the expansion of pieces by a glossary.

Does not own: names, and the number of questions.
-/

namespace NostrCapsule

variable {σ : Type}

/-! ## Entities of tokens -/

namespace Entity

variable {source : Source σ} {state : σ} {token : String}

theorem run_resolve_of_error {cause : TokenError} (unread : Pointer.ofToken token = .error cause) :
    (resolve token).run source state = (.error (.ofTokenError cause), state) := by
  unfold resolve
  rw [unread]
  rfl

theorem run_resolve_of_ok {pointer : Pointer} (read : Pointer.ofToken token = .ok pointer) :
    (resolve token).run source state =
      (.ok { kind := pointer.kind
             displayName := ((Naming.pointerName pointer).run source state).1
             linkPath := pointer.linkPath
             spelling := scheme ++ token },
        ((Naming.pointerName pointer).run source state).2) := by
  unfold resolve ofPointer
  simp only [read, Lookup.run_bind, Lookup.run_pure]

/-- Whether a token resolves is decided by the token alone. -/
theorem isOk_run_resolve (source : Source σ) (state : σ) (token : String) :
    ((resolve token).run source state).1.isOk = (Pointer.ofToken token).isOk := by
  cases read : Pointer.ofToken token with
  | error cause => rw [run_resolve_of_error read]; rfl
  | ok pointer => rw [run_resolve_of_ok read]; rfl

theorem of_run_resolve {entity : Entity}
    (resolved : ((resolve token).run source state).1 = .ok entity) :
    ∃ pointer, Pointer.ofToken token = .ok pointer ∧ entity.kind = pointer.kind ∧
      entity.linkPath = pointer.linkPath ∧ entity.spelling = scheme ++ token ∧
      entity.displayName = ((Naming.pointerName pointer).run source state).1 := by
  cases read : Pointer.ofToken token with
  | error cause =>
      rw [run_resolve_of_error read] at resolved
      cases resolved
  | ok pointer =>
      rw [run_resolve_of_ok read] at resolved
      cases resolved
      exact ⟨pointer, rfl, rfl, rfl, rfl, rfl⟩

theorem identifier_of_spelling {entity : Entity} (spelled : entity.spelling = scheme ++ token) :
    entity.identifier = token := by
  rw [identifier, spelled, dropScheme_scheme_append]

end Entity

/-- Whether the token of a reference resolves. -/
def Source.resolves (source : Source σ) (state : σ) (found : ReferenceMatch) : Bool :=
  ((Entity.resolve found.token).run source state).1.isOk

theorem Source.resolves_eq (source : Source σ) (state : σ) (found : ReferenceMatch) :
    source.resolves state found = (Pointer.ofToken found.token).isOk :=
  Entity.isOk_run_resolve source state found.token

/-! ## The glossary -/

abbrev Glossary := List (String × Entity)

/-- The references that a glossary has an entity for are those that resolve. -/
theorem Source.isSome_lookup_eq_resolves (source : Source σ) (state : σ) {glossary : Glossary}
    {found : ReferenceMatch} {asked : σ}
    (named : glossary.lookup found.token =
      ((Entity.resolve found.token).run source asked).1.toOption) :
    (glossary.lookup found.token).isSome = source.resolves state found := by
  rw [named, Refusal.isSome_toOption, source.resolves_eq, Entity.isOk_run_resolve]

namespace Glossary

/-- The entities of those tokens that resolve, asked for in order. -/
def ofTokens : List String → Lookup Glossary
  | [] => pure []
  | token :: rest => do
      match ← Entity.resolve token with
      | .ok entity => do pure ((token, entity) :: (← ofTokens rest))
      | .error _ => ofTokens rest

def replacement (glossary : Glossary) (format : Entity → String) (piece : Piece) : List Char :=
  match piece.token?.bind fun token => glossary.lookup token with
  | some entity => (format entity).toList
  | none => piece.chars

def entityOf? (glossary : Glossary) (piece : Piece) : Option Entity :=
  piece.token?.bind fun token => glossary.lookup token

/-- A glossary has no token that was not asked for. -/
theorem always_ofTokens (tokens : List String) :
    (ofTokens tokens).Always fun glossary => ∀ token ∉ tokens, glossary.lookup token = none := by
  induction tokens with
  | nil => exact .done fun _ _ => rfl
  | cons first rest inductionHypothesis =>
      apply Lookup.Always.bind (.of_forall (fun _ => trivial) (Entity.resolve first))
      rintro (refusal | entity) -
      · apply inductionHypothesis.imp
        intro glossary absent token other
        exact absent token fun listed => other (List.mem_cons_of_mem first listed)
      · apply inductionHypothesis.bind
        intro glossary absent
        apply Lookup.Always.done
        intro token other
        rw [List.mem_cons, not_or] at other
        rw [List.lookup_cons, beq_false_of_ne other.1]
        exact absent token other.2

theorem mem_of_lookup_run_ofTokens {source : Source σ} {state : σ} {tokens : List String}
    {token : String} {entity : Entity}
    (found : ((ofTokens tokens).run source state).1.lookup token = some entity) :
    token ∈ tokens := by
  by_cases listed : token ∈ tokens
  · exact listed
  · rw [(always_ofTokens tokens).run source state token listed] at found
    cases found

/-- Each token has the entity that it resolved to when it was asked for, if it did. -/
theorem lookup_run_ofTokens (source : Source σ) (state : σ) {tokens : List String}
    {token : String} (member : token ∈ tokens) :
    ∃ asked, ((ofTokens tokens).run source state).1.lookup token =
      ((Entity.resolve token).run source asked).1.toOption := by
  induction tokens generalizing state with
  | nil => cases member
  | cons first rest inductionHypothesis =>
      rw [ofTokens, Lookup.run_bind]
      cases resolved : ((Entity.resolve first).run source state).1 with
      | ok entity =>
          simp only [Lookup.run_bind, Lookup.run_pure, List.lookup_cons]
          by_cases same : token = first
          · refine ⟨state, ?_⟩
            subst same
            rw [beq_self_eq_true, resolved]
            rfl
          · rw [beq_false_of_ne same]
            exact inductionHypothesis _ ((List.mem_cons.mp member).resolve_left same)
      | error refusal =>
          by_cases later : token ∈ rest
          · exact inductionHypothesis _ later
          · -- The token is the first one, which does not resolve, and it does not come again.
            have same := (List.mem_cons.mp member).resolve_right later
            refine ⟨state, ?_⟩
            rw [same, resolved, ← same]
            apply Option.eq_none_iff_forall_ne_some.mpr
            intro entity found
            exact later (mem_of_lookup_run_ofTokens found)

end Glossary

/-- The expansion of pieces by a glossary. -/
def Expansion.ofPieces (glossary : Glossary) (format : Entity → String) (pieces : List Piece) :
    Expansion where
  text := String.ofList (pieces.flatMap (glossary.replacement format))
  entities := pieces.filterMap glossary.entityOf?

end NostrCapsule
