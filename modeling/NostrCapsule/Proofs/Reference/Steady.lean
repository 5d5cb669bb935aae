import NostrCapsule.Proofs.Reference.Consultation

/-!
Contract: a source that answers each filter alike gives each token one entity.

Over such a source it makes no difference when a token is resolved, so that an expansion is a
matter of the pieces of its text alone.

Owns:
- `Source.Steady`, and the values of questions and names over such sources;
- `Source.entity?`, and `Source.Steady.run_expand`.

Does not own: sources whose answers depend on what was asked before.
-/

namespace NostrCapsule

variable {σ : Type}

/-- A source whose answer to a filter does not depend on its state. -/
def Source.Steady (source : Source σ) : Prop :=
  ∀ filter state other, (source.query filter state).1 = (source.query filter other).1

theorem Answers.steady_source (answers : Answers) : answers.source.Steady :=
  fun _ _ _ => rfl

def Source.entity? (source : Source σ) (state : σ) (token : String) : Option Entity :=
  ((Entity.resolve token).run source state).1.toOption

namespace Source.Steady

variable {source : Source σ} (steady : source.Steady) (state other : σ)

include steady

theorem run_firstMatch (filter : Filter) :
    ((Lookup.firstMatch filter).run source state).1 =
      ((Lookup.firstMatch filter).run source other).1 := by
  rw [Lookup.run_firstMatch, Lookup.run_firstMatch]
  dsimp only
  rw [steady filter state other]

/-- A name takes at most one question, whose answer is the same in all states. -/
theorem run_pointerName (pointer : Pointer) :
    ((Naming.pointerName pointer).run source state).1 =
      ((Naming.pointerName pointer).run source other).1 := by
  rw [Naming.pointerName_eq]
  split
  · rfl
  · next filter _ =>
      rw [Lookup.run_bind, Lookup.run_bind]
      exact congrArg (Naming.nameFor pointer) (steady.run_firstMatch state other filter)

theorem run_resolve (token : String) :
    ((Entity.resolve token).run source state).1 = ((Entity.resolve token).run source other).1 := by
  cases read : Pointer.ofToken token with
  | error cause => rw [Entity.run_resolve_of_error read, Entity.run_resolve_of_error read]
  | ok pointer =>
      rw [Entity.run_resolve_of_ok read, Entity.run_resolve_of_ok read]
      dsimp only
      rw [steady.run_pointerName state other]

theorem entity?_eq (token : String) : source.entity? state token = source.entity? other token :=
  congrArg Except.toOption (steady.run_resolve state other token)

/-- The memo of an expansion agrees with what tokens resolve to by themselves. -/
theorem run_expand (format : Entity → String) (text : String) :
    ((expand format text).run source state).1 =
      .naming (source.entity? other) format (Reference.piecesOf text) := by
  obtain ⟨glossary, expansion, named⟩ := exists_glossary_expand format text source state
  rw [expansion, Expansion.ofPieces_eq_naming]
  apply Expansion.naming_congr
  intro token member
  obtain ⟨asked, resolved⟩ := named token member
  rw [resolved]
  exact steady.entity?_eq asked other token

end Source.Steady

end NostrCapsule
