import NostrCapsule.Lookup.Meter
import NostrCapsule.Proofs.Lookup.Laws
import NostrCapsule.Proofs.Store.Order

/-!
Contract: what a store hands out for a filter.

Owns:
- which events can answer, how many, and when none does;
- `MemoryStore.event?`, the event with an identifier, as the answer to the question for it;
- `Source.Serves` and `Source.Falters`, for sources that answer as a store does, always or unless
  they refuse.

Does not own: the order of answers.
-/

namespace NostrCapsule

variable {σ : Type}

namespace MemoryStore

variable {store : MemoryStore} {filter : Filter} {event : Event} {id : String}

/-! ## Answers -/

theorem mem_of_mem_select (member : event ∈ store.select filter) :
    event ∈ store.events ∧ filter.accepts event = true :=
  (store.mem_ranked_iff filter).mp (Filter.mem_of_mem_cut member)

theorem length_select_le {limit : Nat} (limited : filter.limit = some limit) :
    (store.select filter).length ≤ limit :=
  Filter.length_cut_le limited

/-- A filter that asks for at least one event has no answer only if it accepts no event. -/
theorem select_eq_nil_iff (asksForSome : filter.limit ≠ some 0) :
    store.select filter = [] ↔ ∀ event ∈ store.events, filter.accepts event = false := by
  rw [select_eq_cut_ranked, Filter.cut_eq_nil_iff asksForSome, ranked_eq_nil_iff]

/-! ## Identifiers -/

theorem eq_of_id_eq {left right : Event} (leftStored : left ∈ store.events)
    (rightStored : right ∈ store.events) (same : left.id = right.id) : left = right :=
  List.inj_on_of_nodup_map store.nodup_ids leftStored rightStored same

def event? (store : MemoryStore) (id : String) : Option Event :=
  store.events.find? fun event => event.id = id

theorem event?_eq_some_iff :
    store.event? id = some event ↔ event ∈ store.events ∧ event.id = id :=
  find?_key_eq_some_iff store.nodup_ids

theorem event?_eq_none_iff :
    store.event? id = none ↔ ∀ event ∈ store.events, event.id ≠ id := by
  rw [event?, List.find?_eq_none]
  simp only [decide_eq_true_eq]

theorem accepts_byId_iff : (Filter.byId id).accepts event = true ↔ event.id = id := by
  simp [Filter.accepts, Filter.byId]

/-- The question for an identifier finds the event that has it. -/
theorem head?_select_byId (store : MemoryStore) (id : String) :
    (store.select (.byId id)).head? = store.event? id := by
  cases found : (store.select (.byId id)).head? with
  | none =>
      have nothing := (select_eq_nil_iff (by simp [Filter.byId])).mp (List.head?_eq_none_iff.mp found)
      refine (event?_eq_none_iff.mpr fun event kept same => ?_).symm
      have accepted := accepts_byId_iff.mpr same
      rw [nothing event kept] at accepted
      cases accepted
  | some event =>
      obtain ⟨kept, accepted⟩ := mem_of_mem_select (List.mem_of_head? found)
      exact (event?_eq_some_iff.mpr ⟨kept, accepts_byId_iff.mp accepted⟩).symm

end MemoryStore

/-! ## Sources over a store -/

/-- A source that answers every filter as a store does. -/
def Source.Serves (source : Source σ) (store : MemoryStore) : Prop :=
  ∀ filter state, (source.query filter state).1 = .ok (store.select filter)

/-- A source that answers a filter as a store does, or refuses. -/
def Source.Falters (source : Source σ) (store : MemoryStore) : Prop :=
  ∀ filter state, (source.query filter state).1 = .ok (store.select filter) ∨
    ∃ refusal, (source.query filter state).1 = .error refusal

theorem MemoryStore.falters_answers (store : MemoryStore) (context : LookupContext) :
    (store.answers context).source.Falters store := by
  intro filter state
  simp only [Answers.source, answers]
  split
  · exact .inr ⟨_, rfl⟩
  · exact .inl rfl

theorem MemoryStore.serves_answers (store : MemoryStore) {context : LookupContext}
    (live : context.check = .ok ()) : (store.answers context).source.Serves store := by
  intro filter state
  simp only [Answers.source, answers, live]

section Answer

variable (store : MemoryStore) {context : LookupContext} (live : context.check = .ok ())

include live

theorem MemoryStore.answer_eventsOrNone (filter : Filter) :
    (Lookup.eventsOrNone filter).answer (store.answers context) = store.select filter := by
  have asked := Lookup.run_eventsOrNone (store.answers context).source filter ()
  rw [Lookup.run_answersSource, store.serves_answers live filter ()] at asked
  exact congrArg Prod.fst asked

theorem MemoryStore.answer_firstMatch (filter : Filter) :
    (Lookup.firstMatch filter).answer (store.answers context) = (store.select filter).head? := by
  rw [Lookup.firstMatch, Lookup.answer_bind, Lookup.answer_pure, store.answer_eventsOrNone live]

end Answer

/-- A store falters if it answers only so many questions. -/
theorem MemoryStore.falters_metered (store : MemoryStore) (context : LookupContext)
    (failure : StoreError) : ((store.answers context).metered failure).Falters store := by
  intro filter meter
  simp only [Answers.metered]
  split
  · exact store.falters_answers context filter ()
  · exact .inr ⟨failure, rfl⟩
  · exact store.falters_answers context filter ()

theorem Source.Serves.falters {source : Source σ} {store : MemoryStore}
    (serves : source.Serves store) : source.Falters store :=
  fun filter state => .inl (serves filter state)

/-- The question for an identifier, once it is answered, finds the event that has it. -/
theorem MemoryStore.run_fetchEvent_of_answered {store : MemoryStore} {source : Source σ}
    {state : σ} {id : String}
    (answered : (source.query (.byId id) state).1 = .ok (store.select (.byId id))) :
    ((Lookup.fetchEvent id).run source state).1 = store.event? id := by
  rw [Lookup.fetchEvent, Lookup.run_firstMatch, answered]
  exact store.head?_select_byId id

namespace Source.Falters

variable {source : Source σ} {store : MemoryStore} {filter : Filter} {state : σ} {event : Event}

theorem mem_of_mem_found (falters : source.Falters store)
    (member : event ∈ QueryAnswer.found (source.query filter state).1) :
    event ∈ store.select filter := by
  rcases falters filter state with answered | ⟨refusal, refused⟩
  · rw [answered] at member
    exact member
  · rw [refused] at member
    cases member

theorem length_found_le (falters : source.Falters store) {limit : Nat}
    (limited : filter.limit = some limit) :
    (QueryAnswer.found (source.query filter state).1).length ≤ limit := by
  rcases falters filter state with answered | ⟨refusal, refused⟩
  · rw [answered]
    exact MemoryStore.length_select_le limited
  · rw [refused]
    exact Nat.zero_le limit

end Source.Falters

end NostrCapsule
