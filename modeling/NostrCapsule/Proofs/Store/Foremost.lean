import NostrCapsule.Proofs.Store.Selection

/-!
Contract: the first event of an answer, and when a new event takes its place.

Most questions are for one event.  It is the stored event that comes before all others which the
filter accepts, so an event that arrives later can only change the answer by coming before all of
them itself; and that is decided by the events which were stored before, not by those which arrived
in between.

Owns:
- `MemoryStore.IsForemost`, and the first event of an answer in terms of it;
- `MemoryStore.Displaces`, and answers after insertions that displace nothing.

Does not own: what is made of an answer.
-/

namespace NostrCapsule

theorem Filter.head?_cut {filter : Filter} (asksForSome : filter.limit ≠ some 0)
    (events : List Event) : (filter.cut events).head? = events.head? := by
  unfold cut
  split
  · rfl
  · next limit limited =>
      have positive : limit ≠ 0 := fun zero => asksForSome (by rw [limited, zero])
      rw [List.head?_take, if_neg positive]

namespace MemoryStore

variable {store : MemoryStore} {filter : Filter} {event : Event}

/-! ## The first event -/

/-- A stored event that a filter accepts, and that comes before all others it accepts. -/
structure IsForemost (store : MemoryStore) (filter : Filter) (event : Event) : Prop where
  stored : event ∈ store.events
  accepted : filter.accepts event = true
  precedes : ∀ other ∈ store.events, filter.accepts other = true → other ≠ event →
    event.Precedes other

theorem isForemost_of_head?_ranked (first : (store.ranked filter).head? = some event) :
    store.IsForemost filter event := by
  obtain ⟨rest, ranked⟩ := List.head?_eq_some_iff.mp first
  have ordered := store.pairwise_ranked filter
  rw [ranked, List.pairwise_cons] at ordered
  obtain ⟨stored, accepted⟩ := (store.mem_ranked_iff filter).mp (List.mem_of_head? first)
  refine ⟨stored, accepted, fun other otherStored otherAccepted different => ?_⟩
  have listed := (store.mem_ranked_iff filter).mpr ⟨otherStored, otherAccepted⟩
  rw [ranked, List.mem_cons] at listed
  exact ordered.1 other (listed.resolve_left different)

theorem IsForemost.unique {other : Event} (left : store.IsForemost filter event)
    (right : store.IsForemost filter other) : event = other := by
  by_contra different
  have forward := left.precedes other right.stored right.accepted (Ne.symm different)
  exact forward.asymm (right.precedes event left.stored left.accepted different)

theorem head?_select_eq_some_iff (asksForSome : filter.limit ≠ some 0) :
    (store.select filter).head? = some event ↔ store.IsForemost filter event := by
  rw [select_eq_cut_ranked, Filter.head?_cut asksForSome]
  constructor
  · exact isForemost_of_head?_ranked
  · intro foremost
    cases first : (store.ranked filter).head? with
    | none =>
        have listed := (store.mem_ranked_iff filter).mpr ⟨foremost.stored, foremost.accepted⟩
        rw [List.head?_eq_none_iff.mp first] at listed
        cases listed
    | some other => rw [(isForemost_of_head?_ranked first).unique foremost]

theorem head?_select_eq_none_iff (asksForSome : filter.limit ≠ some 0) :
    (store.select filter).head? = none ↔
      ∀ event ∈ store.events, filter.accepts event = false := by
  rw [List.head?_eq_none_iff, select_eq_nil_iff asksForSome]

/-! ## Insertions -/

/-- An event that a filter accepts, and that comes before all stored events it accepts. -/
def Displaces (store : MemoryStore) (filter : Filter) (event : Event) : Prop :=
  filter.accepts event = true ∧
    ∀ stored ∈ store.events, filter.accepts stored = true → event.Precedes stored

theorem events_subset_insert (store : MemoryStore) (event : Event) :
    store.events ⊆ (store.insert event).events := by
  by_cases known : event.id ∈ store.events.map Event.id
  · rw [store.insert_of_known event known]
    exact List.Subset.refl _
  · rw [store.events_insert_of_new event known]
    exact List.subset_append_left _ _

/-- A store that has grown is harder to displace something from. -/
theorem displaces_of_insert {other : Event} (displaces : (store.insert other).Displaces filter event) :
    store.Displaces filter event :=
  ⟨displaces.1, fun stored member => displaces.2 stored (store.events_subset_insert other member)⟩

theorem head?_select_insert (asksForSome : filter.limit ≠ some 0)
    (behind : ¬ store.Displaces filter event) :
    ((store.insert event).select filter).head? = (store.select filter).head? := by
  by_cases known : event.id ∈ store.events.map Event.id
  · rw [store.insert_of_known event known]
  have events := store.events_insert_of_new event known
  cases first : (store.select filter).head? with
  | none =>
      have none := (head?_select_eq_none_iff asksForSome).mp first
      rw [head?_select_eq_none_iff asksForSome, events, List.forall_mem_append,
        List.forall_mem_singleton]
      refine ⟨none, Bool.eq_false_iff.mpr fun accepted => behind ⟨accepted, ?_⟩⟩
      intro stored member storedAccepted
      rw [none stored member] at storedAccepted
      cases storedAccepted
  | some foremost =>
      have isForemost := (head?_select_eq_some_iff asksForSome).mp first
      obtain ⟨stored, accepted, precedes⟩ := isForemost
      rw [head?_select_eq_some_iff asksForSome]
      constructor
      · exact store.events_subset_insert event stored
      · exact accepted
      rw [events, List.forall_mem_append, List.forall_mem_singleton]
      refine ⟨precedes, fun eventAccepted _ => ?_⟩
      -- Some stored event is not behind the new one; the foremost is not behind that one.
      have behind : ∃ other ∈ store.events, filter.accepts other = true ∧ ¬ event.Precedes other := by
        simpa [Displaces, eventAccepted] using behind
      obtain ⟨other, otherStored, otherAccepted, notBefore⟩ := behind
      have different : event.id ≠ other.id := fun same =>
        known (same ▸ List.mem_map_of_mem otherStored)
      have before := (Event.precedes_or_precedes different).resolve_left notBefore
      by_cases same : other = foremost
      · exact same ▸ before
      · exact (precedes other otherStored otherAccepted same).trans before

/-- Events that displace nothing may arrive in any order and number. -/
theorem head?_select_insertAll (asksForSome : filter.limit ≠ some 0) {events : List Event}
    (behind : ∀ event ∈ events, ¬ store.Displaces filter event) :
    ((store.insertAll events).select filter).head? = (store.select filter).head? := by
  induction events generalizing store with
  | nil => rfl
  | cons first rest inductionHypothesis =>
      obtain ⟨firstBehind, restBehind⟩ := List.forall_mem_cons.mp behind
      have inTurn : store.insertAll (first :: rest) = (store.insert first).insertAll rest := rfl
      rw [inTurn, inductionHypothesis, head?_select_insert asksForSome firstBehind]
      intro event later displaces
      exact restBehind event later (displaces_of_insert displaces)

end MemoryStore

end NostrCapsule
