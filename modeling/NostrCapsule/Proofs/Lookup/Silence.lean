import NostrCapsule.Proofs.Lookup.Laws
import NostrCapsule.Store.Loading

/-!
Contract: lookups that learn as little from a refusal as from an answer without events.

Owns:
- `Lookup.Tolerant`, for lookups that go on alike after both, and its passage along a chain;
- `Source.Silent`, for sources that have neither events nor relays to offer;
- `Tolerant.run_eq`, by which a tolerant lookup has one value over all silent sources;
- the stores that are silent: one without events, and any in a context that is over.

Does not own: what is looked up.
-/

namespace NostrCapsule

variable {α β σ τ : Type}

namespace Lookup

/-- A lookup that goes on after a refusal as it does after an answer without events. -/
inductive Tolerant {α : Type} : Lookup α → Prop where
  | done (value : α) : Tolerant (.done value)
  | query {filter : Filter} {next : QueryAnswer → Lookup α}
      (alike : ∀ refusal, next (.error refusal) = next (.ok []))
      (later : ∀ answer, Tolerant (next answer)) : Tolerant (.query filter next)
  | readRelays {pubkey : String} {next : List String → Lookup α}
      (later : ∀ relays, Tolerant (next relays)) : Tolerant (.readRelays pubkey next)

namespace Tolerant

theorem pure (value : α) : Tolerant (Pure.pure value : Lookup α) :=
  .done value

theorem bind {lookup : Lookup α} {next : α → Lookup β} (first : Tolerant lookup)
    (rest : ∀ value, Tolerant (next value)) : Tolerant (lookup >>= next) := by
  rw [bind_eq]
  induction first with
  | done value => exact rest value
  | query alike later inductionHypothesis =>
      refine .query (fun refusal => ?_) inductionHypothesis
      rw [alike refusal]
  | readRelays later inductionHypothesis => exact .readRelays inductionHypothesis

/-- The questions themselves, of which only the one for events can be refused. -/
theorem eventsOrNone (filter : Filter) : Tolerant (Lookup.eventsOrNone filter) := by
  refine .query (fun _ => rfl) fun answer => ?_
  cases answer with
  | ok found => exact .done found
  | error refusal => exact .done []

theorem relaysOf (pubkey : String) : Tolerant (Lookup.relaysOf pubkey) :=
  .readRelays fun relays => .done relays

theorem firstMatch (filter : Filter) : Tolerant (Lookup.firstMatch filter) :=
  .bind (.eventsOrNone filter) fun found => .pure found.head?

theorem fetchEvent (id : String) : Tolerant (Lookup.fetchEvent id) :=
  .firstMatch (.byId id)

end Tolerant

end Lookup

/-! ## Silent sources -/

/-- A source that refuses a question for events or has none, and that knows no relays. -/
structure Source.Silent (source : Source σ) : Prop where
  query : ∀ filter state, (source.query filter state).1 = .ok [] ∨
    ∃ refusal, (source.query filter state).1 = .error refusal
  readRelays : ∀ pubkey state, (source.readRelays pubkey state).1 = []

/-- Over silent sources a tolerant lookup has one value, whatever refusals it meets and however the
sources change in between. -/
theorem Lookup.Tolerant.run_eq {lookup : Lookup α} (tolerant : lookup.Tolerant)
    {source : Source σ} (silent : source.Silent) {other : Source τ} (otherSilent : other.Silent)
    (state : σ) (otherState : τ) :
    (lookup.run source state).1 = (lookup.run other otherState).1 := by
  induction tolerant generalizing state otherState with
  | done value => rfl
  | @query filter next alike later inductionHypothesis =>
      -- Both sides go on as after an answer without events.
      have quiet {ρ : Type} {any : Source ρ} (silent : any.Silent) (current : ρ) :
          next (any.query filter current).1 = next (.ok []) := by
        rcases silent.query filter current with none | ⟨refusal, refused⟩
        · rw [none]
        · rw [refused, alike refusal]
      rw [run, run]
      dsimp only
      rw [quiet silent, quiet otherSilent]
      exact inductionHypothesis (.ok []) _ _
  | @readRelays pubkey next later inductionHypothesis =>
      rw [run, run]
      dsimp only
      rw [silent.readRelays, otherSilent.readRelays]
      exact inductionHypothesis [] _ _

namespace MemoryStore

@[simp] theorem select_empty (filter : Filter) : empty.select filter = [] := by
  unfold select empty
  cases filter.limit <;> simp

theorem silent_empty (context : LookupContext) : (empty.answers context).source.Silent where
  query filter _ := by
    simp only [Answers.source, answers, select_empty]
    split
    · exact .inr ⟨_, rfl⟩
    · exact .inl rfl
  readRelays pubkey _ := by
    simp only [Answers.source, answers]
    split <;> rfl

end MemoryStore

/-- A context in which every lookup is refused: it was cancelled, or its deadline is over. -/
def LookupContext.IsOver (context : LookupContext) : Prop :=
  context.cancelled = true ∨ context.deadline = some .passed

theorem LookupContext.IsOver.check_eq {context : LookupContext} (ended : context.IsOver) :
    ∃ refusal, context.check = .error refusal := by
  unfold check
  by_cases cancelled : context.cancelled = true
  · exact ⟨.cancelled, if_pos cancelled⟩
  · exact ⟨.deadlineExceeded, by rw [if_neg cancelled, if_pos (ended.resolve_left cancelled)]⟩

theorem MemoryStore.silent_of_isOver (store : MemoryStore) {context : LookupContext}
    (ended : context.IsOver) : (store.answers context).source.Silent := by
  obtain ⟨refusal, refused⟩ := ended.check_eq
  constructor
  · intro filter _
    simp only [Answers.source, answers, refused]
    exact .inr ⟨refusal, rfl⟩
  · intro pubkey _
    simp only [Answers.source, answers, refused]

end NostrCapsule
