import Mathlib.Data.List.Forall2
import NostrCapsule.Lookup.Meter

/-!
Contract: lookups obey the laws of a monad, and running a chain of them runs its parts in turn.

Owns:
- the monad laws, under which two equal lookups ask the same questions in the same order;
- `run` and `answer` of the parts of a chain, and `run` of a question;
- `Always`, for what a lookup comes to under all answers;
- `Answers.source`, the source that always answers alike.

Does not own: what is asked for.
-/

namespace NostrCapsule

/-- The events of an answer; none if it is a refusal. -/
def QueryAnswer.found (answer : QueryAnswer) : List Event :=
  answer.toOption.getD []

namespace Lookup

variable {α β γ σ : Type}

theorem bind_eq (lookup : Lookup α) (next : α → Lookup β) :
    (lookup >>= next) = lookup.bind next := rfl

theorem bind_done (lookup : Lookup α) : lookup.bind .done = lookup := by
  induction lookup with
  | done value => rfl
  | query filter next inductionHypothesis =>
      rw [bind]
      exact congrArg _ (funext inductionHypothesis)
  | readRelays pubkey next inductionHypothesis =>
      rw [bind]
      exact congrArg _ (funext inductionHypothesis)

theorem bind_bind (lookup : Lookup α) (next : α → Lookup β) (last : β → Lookup γ) :
    (lookup.bind next).bind last = lookup.bind fun value => (next value).bind last := by
  induction lookup with
  | done value => rfl
  | query filter next inductionHypothesis =>
      simp only [bind]
      exact congrArg _ (funext inductionHypothesis)
  | readRelays pubkey next inductionHypothesis =>
      simp only [bind]
      exact congrArg _ (funext inductionHypothesis)

instance : LawfulMonad Lookup :=
  LawfulMonad.mk' Lookup (fun lookup => bind_done lookup) (fun _ _ => rfl)
    (fun lookup next last => bind_bind lookup next last)

/-! ## Running a chain -/

variable (source : Source σ)

@[simp] theorem run_pure (value : α) (state : σ) :
    (pure value : Lookup α).run source state = (value, state) := rfl

@[simp] theorem run_bind (lookup : Lookup α) (next : α → Lookup β) (state : σ) :
    (lookup >>= next).run source state =
      (next (lookup.run source state).1).run source (lookup.run source state).2 := by
  rw [bind_eq]
  induction lookup generalizing state with
  | done value => rfl
  | query filter next inductionHypothesis =>
      rw [bind, run, run]
      exact inductionHypothesis _ _
  | readRelays pubkey next inductionHypothesis =>
      rw [bind, run, run]
      exact inductionHypothesis _ _

@[simp] theorem run_map (change : α → β) (lookup : Lookup α) (state : σ) :
    (change <$> lookup).run source state =
      (change (lookup.run source state).1, (lookup.run source state).2) := by
  rw [map_eq_pure_bind, run_bind, run_pure]

/-- Each value of a traversal is what its step comes to from some state. -/
theorem forall₂_run_mapM (step : α → Lookup β) (items : List α) (state : σ) :
    List.Forall₂ (fun item value => ∃ start, value = ((step item).run source start).1) items
      ((items.mapM step).run source state).1 := by
  induction items generalizing state with
  | nil => exact .nil
  | cons item rest inductionHypothesis =>
      rw [List.mapM_cons, run_bind, run_bind, run_pure]
      exact .cons ⟨state, rfl⟩ (inductionHypothesis _)

/-! ## What a lookup comes to -/

/-- Whatever the answers are, a lookup comes to a value with the property. -/
inductive Always (property : α → Prop) : Lookup α → Prop where
  | done {value : α} (holds : property value) : Always property (.done value)
  | query {filter : Filter} {next : QueryAnswer → Lookup α}
      (later : ∀ answer, Always property (next answer)) : Always property (.query filter next)
  | readRelays {pubkey : String} {next : List String → Lookup α}
      (later : ∀ relays, Always property (next relays)) :
      Always property (.readRelays pubkey next)

namespace Always

variable {property : α → Prop} {goal : β → Prop} {lookup : Lookup α} {next other : α → Lookup β}

theorem of_forall (holds : ∀ value, property value) (lookup : Lookup α) :
    Always property lookup := by
  induction lookup with
  | done value => exact .done (holds value)
  | query filter next inductionHypothesis => exact .query inductionHypothesis
  | readRelays pubkey next inductionHypothesis => exact .readRelays inductionHypothesis

theorem imp {weaker : α → Prop} (always : Always property lookup)
    (follows : ∀ value, property value → weaker value) : Always weaker lookup := by
  induction always with
  | done holds => exact .done (follows _ holds)
  | query later inductionHypothesis => exact .query inductionHypothesis
  | readRelays later inductionHypothesis => exact .readRelays inductionHypothesis

theorem bind (first : Always property lookup)
    (rest : ∀ value, property value → Always goal (next value)) :
    Always goal (lookup >>= next) := by
  rw [bind_eq]
  induction first with
  | done holds => exact rest _ holds
  | query later inductionHypothesis => exact .query inductionHypothesis
  | readRelays later inductionHypothesis => exact .readRelays inductionHypothesis

/-- How a lookup goes on matters only for the values that it comes to. -/
theorem bind_congr (first : Always property lookup)
    (same : ∀ value, property value → next value = other value) :
    (lookup >>= next) = (lookup >>= other) := by
  rw [bind_eq, bind_eq]
  induction first with
  | done holds => exact same _ holds
  | query later inductionHypothesis =>
      rw [Lookup.bind, Lookup.bind]
      exact congrArg _ (funext inductionHypothesis)
  | readRelays later inductionHypothesis =>
      rw [Lookup.bind, Lookup.bind]
      exact congrArg _ (funext inductionHypothesis)

theorem run (always : Always property lookup) (state : σ) :
    property (lookup.run source state).1 := by
  induction always generalizing state with
  | done holds => exact holds
  | query later inductionHypothesis => exact inductionHypothesis _ _
  | readRelays later inductionHypothesis => exact inductionHypothesis _ _

end Always

/-! ## Questions -/

theorem run_eventsOrNone (filter : Filter) (state : σ) :
    (eventsOrNone filter).run source state =
      (QueryAnswer.found (source.query filter state).1, (source.query filter state).2) := by
  have asked : (events filter).run source state = source.query filter state := rfl
  rw [eventsOrNone, run_bind, asked]
  cases (source.query filter state).1 <;> rfl

theorem run_firstMatch (filter : Filter) (state : σ) :
    (firstMatch filter).run source state =
      ((QueryAnswer.found (source.query filter state).1).head?,
        (source.query filter state).2) := by
  rw [firstMatch, run_bind, run_eventsOrNone, run_pure]

end Lookup

/-- A store that always answers alike, as a source that has no state. -/
def Answers.source (answers : Answers) : Source Unit where
  query filter _ := (answers.query filter, ())
  readRelays pubkey _ := (answers.readRelays pubkey, ())

theorem Lookup.run_answersSource {α : Type} (answers : Answers) (lookup : Lookup α) (state : Unit) :
    lookup.run answers.source state = (lookup.answer answers, ()) := by
  induction lookup generalizing state with
  | done value => rfl
  | query filter next inductionHypothesis => exact inductionHypothesis _ _
  | readRelays pubkey next inductionHypothesis => exact inductionHypothesis _ _

namespace Lookup

variable {α β : Type} (answers : Answers)

@[simp] theorem answer_pure (value : α) : (pure value : Lookup α).answer answers = value := rfl

@[simp] theorem answer_bind (lookup : Lookup α) (next : α → Lookup β) :
    (lookup >>= next).answer answers = (next (lookup.answer answers)).answer answers := by
  have inTurn := run_bind answers.source lookup next ()
  simp only [run_answersSource] at inTurn
  exact congrArg Prod.fst inTurn

end Lookup

end NostrCapsule
