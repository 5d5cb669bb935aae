import NostrCapsule.Lookup.Meter
import NostrCapsule.Proofs.Lookup.Laws

/-!
Contract: what is said between a lookup and its source.

Owns:
- `Exchange`, and the transcript of a run: for a chain that of its parts in turn, for a first match
  one question;
- `Lookup.filters`, the filters asked for, which are as many as a meter counts.

Does not own: the value of a run.
-/

namespace NostrCapsule

variable {α β σ : Type}

inductive Exchange where
  | query (filter : Filter) (answer : QueryAnswer)
  | readRelays (pubkey : String) (relays : List String)

def Exchange.filter? : Exchange → Option Filter
  | .query filter _ => some filter
  | .readRelays _ _ => none

namespace Lookup

/-- The questions of a run with their answers, in order. -/
def transcript (source : Source σ) : Lookup α → σ → List Exchange
  | .done _, _ => []
  | .query filter next, state =>
      let (answer, later) := source.query filter state
      .query filter answer :: (next answer).transcript source later
  | .readRelays pubkey next, state =>
      let (relays, later) := source.readRelays pubkey state
      .readRelays pubkey relays :: (next relays).transcript source later

variable (source : Source σ)

@[simp] theorem transcript_pure (value : α) (state : σ) :
    (pure value : Lookup α).transcript source state = [] := rfl

@[simp] theorem transcript_bind (lookup : Lookup α) (next : α → Lookup β) (state : σ) :
    (lookup >>= next).transcript source state =
      lookup.transcript source state
        ++ (next (lookup.run source state).1).transcript source (lookup.run source state).2 := by
  rw [bind_eq]
  induction lookup generalizing state with
  | done value => rfl
  | query filter next inductionHypothesis =>
      rw [bind, transcript, transcript, run]
      exact congrArg _ (inductionHypothesis _ _)
  | readRelays pubkey next inductionHypothesis =>
      rw [bind, transcript, transcript, run]
      exact congrArg _ (inductionHypothesis _ _)

theorem transcript_firstMatch (filter : Filter) (state : σ) :
    (firstMatch filter).transcript source state =
      [.query filter (source.query filter state).1] := by
  have asked : (events filter).transcript source state =
      [.query filter (source.query filter state).1] := rfl
  have answered : ((events filter).run source state).1 = (source.query filter state).1 := rfl
  rw [firstMatch, eventsOrNone, transcript_bind, transcript_bind, asked, answered]
  cases (source.query filter state).1 <;> rfl

/-! ## Filters asked for -/

def filters (lookup : Lookup α) (state : σ) : List Filter :=
  (lookup.transcript source state).filterMap Exchange.filter?

end Lookup

section Metered

variable (answers : Answers) (failure : StoreError)

theorem Answers.asked_query_metered (filter : Filter) (meter : Meter) :
    ((answers.metered failure).query filter meter).2.asked = meter.asked + 1 := by
  unfold metered
  dsimp only
  split <;> rfl

theorem Answers.asked_readRelays_metered (pubkey : String) (meter : Meter) :
    ((answers.metered failure).readRelays pubkey meter).2.asked = meter.asked := by
  unfold metered
  dsimp only
  split <;> rfl

/-- A meter goes up by one for each filter, whether the store still answers or refuses already. -/
theorem Lookup.asked_run_metered (lookup : Lookup α) (meter : Meter) :
    (lookup.run (answers.metered failure) meter).2.asked =
      meter.asked + (lookup.filters (answers.metered failure) meter).length := by
  induction lookup generalizing meter with
  | done value => rfl
  | query filter next inductionHypothesis =>
      have rest := inductionHypothesis ((answers.metered failure).query filter meter).1
        ((answers.metered failure).query filter meter).2
      rw [Answers.asked_query_metered, Nat.add_right_comm] at rest
      exact rest
  | readRelays pubkey next inductionHypothesis =>
      have rest := inductionHypothesis ((answers.metered failure).readRelays pubkey meter).1
        ((answers.metered failure).readRelays pubkey meter).2
      rw [Answers.asked_readRelays_metered] at rest
      exact rest

end Metered

end NostrCapsule
