import NostrCapsule.Proofs.FirstOccurrence
import NostrCapsule.Store.Loading

/-!
Contract: a store is a set of events keyed by identifier, and it answers in one order.

A row of insertions keeps the first event of each identifier.  The order of answers is strict on
events with distinct identifiers, so the events that a filter accepts have one arrangement, however
they came into the store.

Owns:
- `Event.Precedes`, the strict order of answers;
- `MemoryStore.ranked`, the events that a filter accepts in that order, and `Filter.cut`;
- the events of a store after an offer, and after a row of them;
- `MemoryStore.query_insertAll`.

Does not own: which event a particular question is about.
-/

namespace NostrCapsule

/-! ## The order of answers -/

/-- Newer events come first, then smaller identifiers. -/
def Event.Precedes (left right : Event) : Prop :=
  right.createdAt < left.createdAt ∨ left.createdAt = right.createdAt ∧ left.id < right.id

namespace Event

variable {left right : Event}

instance (left right : Event) : Decidable (left.Precedes right) := by
  unfold Precedes
  infer_instance

theorem newerFirst_iff :
    left.newerFirst right = true ↔
      right.createdAt < left.createdAt ∨ left.createdAt = right.createdAt ∧ left.id ≤ right.id := by
  simp [newerFirst]

theorem newerFirst_trans (left middle right : Event) (first : left.newerFirst middle = true)
    (second : middle.newerFirst right = true) : left.newerFirst right = true := by
  rw [newerFirst_iff] at first second ⊢
  rcases first with newer | ⟨sameTime, smaller⟩
  · exact .inl (by omega)
  · rcases second with newer | ⟨sameTimeToo, smallerToo⟩
    · exact .inl (by omega)
    · exact .inr ⟨by omega, String.le_trans smaller smallerToo⟩

theorem newerFirst_total (left right : Event) :
    (left.newerFirst right || right.newerFirst left) = true := by
  rw [Bool.or_eq_true, newerFirst_iff, newerFirst_iff]
  rcases Int.lt_trichotomy left.createdAt right.createdAt with older | sameTime | newer
  · exact .inr (.inl older)
  · rcases String.le_total left.id right.id with smaller | larger
    · exact .inl (.inr ⟨sameTime, smaller⟩)
    · exact .inr (.inr ⟨sameTime.symm, larger⟩)
  · exact .inl (.inl newer)

/-- Among events with distinct identifiers the order is strict. -/
theorem precedes_of_newerFirst (ordered : left.newerFirst right = true)
    (different : left.id ≠ right.id) : left.Precedes right := by
  rcases newerFirst_iff.mp ordered with newer | ⟨sameTime, smaller⟩
  · exact .inl newer
  · exact .inr ⟨sameTime, Std.lt_of_le_of_ne smaller different⟩

theorem Precedes.asymm (forward : left.Precedes right) : ¬ right.Precedes left := by
  intro backward
  rcases forward with newer | ⟨sameTime, smaller⟩
  · rcases backward with older | ⟨sameTime, _⟩ <;> omega
  · rcases backward with older | ⟨_, larger⟩
    · omega
    · exact String.lt_irrefl _ (String.lt_trans smaller larger)

theorem Precedes.trans {middle : Event} (first : left.Precedes middle)
    (second : middle.Precedes right) : left.Precedes right := by
  rcases first with newer | ⟨sameTime, smaller⟩
  · rcases second with newerToo | ⟨sameTime, _⟩
    · exact .inl (Int.lt_trans newerToo newer)
    · exact .inl (sameTime ▸ newer)
  · rcases second with newer | ⟨sameTimeToo, smallerToo⟩
    · exact .inl (sameTime ▸ newer)
    · exact .inr ⟨sameTime.trans sameTimeToo, String.lt_trans smaller smallerToo⟩

/-- Of two events with distinct identifiers one comes first. -/
theorem precedes_or_precedes (different : left.id ≠ right.id) :
    left.Precedes right ∨ right.Precedes left := by
  rcases Bool.or_eq_true _ _ |>.mp (newerFirst_total left right) with forward | backward
  · exact .inl (precedes_of_newerFirst forward different)
  · exact .inr (precedes_of_newerFirst backward different.symm)

instance : Std.Irrefl Precedes :=
  ⟨fun _ itself => itself.asymm itself⟩

end Event

/-- An event of a row whose identifier no earlier one has. -/
def Event.IsFirstIn (events : List Event) (event : Event) : Prop :=
  ∃ before after, events = before ++ event :: after ∧ ∀ earlier ∈ before, earlier.id ≠ event.id

namespace Filter

def cut (filter : Filter) (events : List Event) : List Event :=
  match filter.limit with
  | none => events
  | some limit => events.take limit

variable {filter : Filter} {events : List Event}

theorem mem_of_mem_cut {event : Event} (member : event ∈ filter.cut events) : event ∈ events := by
  unfold cut at member
  split at member
  · exact member
  · exact List.mem_of_mem_take member

theorem length_cut_le {limit : Nat} (limited : filter.limit = some limit) :
    (filter.cut events).length ≤ limit := by
  rw [cut, limited]
  exact List.length_take_le _ _

theorem cut_eq_nil_iff (asksForSome : filter.limit ≠ some 0) :
    filter.cut events = [] ↔ events = [] := by
  unfold cut
  split
  · exact Iff.rfl
  · next limit limited =>
      have positive : limit ≠ 0 := fun zero => asksForSome (by rw [limited, zero])
      rw [List.take_eq_nil_iff]
      exact or_iff_right positive

end Filter

namespace MemoryStore

/-- The events that a filter accepts, in the order of answers and without a limit. -/
def ranked (store : MemoryStore) (filter : Filter) : List Event :=
  (store.events.filter filter.accepts).mergeSort Event.newerFirst

section Ranked

variable (store : MemoryStore) (filter : Filter)

theorem select_eq_cut_ranked : store.select filter = filter.cut (store.ranked filter) := rfl

theorem ranked_perm : (store.ranked filter).Perm (store.events.filter filter.accepts) :=
  List.mergeSort_perm _ _

theorem mem_ranked_iff {event : Event} :
    event ∈ store.ranked filter ↔ event ∈ store.events ∧ filter.accepts event = true := by
  rw [(store.ranked_perm filter).mem_iff, List.mem_filter]

theorem ranked_eq_nil_iff :
    store.ranked filter = [] ↔ ∀ event ∈ store.events, filter.accepts event = false := by
  simp only [List.eq_nil_iff_forall_not_mem, mem_ranked_iff, not_and, Bool.not_eq_true]

theorem pairwise_ranked : (store.ranked filter).Pairwise Event.Precedes := by
  have ordered : (store.ranked filter).Pairwise fun left right => left.newerFirst right = true :=
    List.pairwise_mergeSort Event.newerFirst_trans Event.newerFirst_total _
  have distinct : ((store.ranked filter).map Event.id).Nodup := by
    rw [((store.ranked_perm filter).map Event.id).nodup_iff]
    exact store.nodup_ids.sublist (List.filter_sublist.map Event.id)
  exact (ordered.and (List.pairwise_map.mp distinct)).imp fun both =>
    Event.precedes_of_newerFirst both.1 both.2

end Ranked

/-- The order in which events came into a store does not show. -/
theorem ranked_eq_of_perm {left right : MemoryStore} (same : left.events.Perm right.events)
    (filter : Filter) : left.ranked filter = right.ranked filter := by
  have permuted : (left.ranked filter).Perm (right.ranked filter) :=
    calc (left.ranked filter).Perm (left.events.filter filter.accepts) := left.ranked_perm filter
      _ |>.Perm (right.events.filter filter.accepts) := same.filter _
      _ |>.Perm (right.ranked filter) := (right.ranked_perm filter).symm
  exact permuted.eq_of_pairwise (fun _ _ _ _ forward backward => absurd backward forward.asymm)
    (left.pairwise_ranked filter) (right.pairwise_ranked filter)

/-! ## Rows of insertions -/

section Insertion

variable (store : MemoryStore) (event : Event)

theorem offer_of_known (known : event.id ∈ store.events.map Event.id) :
    store.offer event = (false, store) :=
  dif_pos (store.mem_ids_iff.mpr known)

theorem offer_of_new (new : event.id ∉ store.events.map Event.id) :
    (store.offer event).1 = true ∧
      (store.offer event).2.events = store.events ++ [event] ∧
      (store.offer event).2.relayOverrides = store.relayOverrides := by
  rw [offer, dif_neg (mt store.mem_ids_iff.mp new)]
  exact ⟨rfl, rfl, rfl⟩

theorem insert_of_known (known : event.id ∈ store.events.map Event.id) :
    store.insert event = store := by
  rw [insert, store.offer_of_known event known]

theorem events_insert_of_new (new : event.id ∉ store.events.map Event.id) :
    (store.insert event).events = store.events ++ [event] :=
  (store.offer_of_new event new).2.1

theorem relayOverrides_insert : (store.insert event).relayOverrides = store.relayOverrides := by
  by_cases known : event.id ∈ store.events.map Event.id
  · rw [store.insert_of_known event known]
  · exact (store.offer_of_new event known).2.2

/-- Events say nothing about the relays that were set. -/
theorem relayOverrides_insertAll (events : List Event) :
    (store.insertAll events).relayOverrides = store.relayOverrides := by
  induction events generalizing store with
  | nil => rfl
  | cons first rest inductionHypothesis =>
      exact (inductionHypothesis (store.insert first)).trans (store.relayOverrides_insert first)

/-- An event is kept exactly if its identifier is new. -/
theorem offer_fst_iff : (store.offer event).1 = true ↔ event.id ∉ store.events.map Event.id := by
  by_cases known : event.id ∈ store.events.map Event.id
  · rw [store.offer_of_known event known]
    exact ⟨nofun, fun new => absurd known new⟩
  · exact ⟨fun _ => known, fun new => (store.offer_of_new event new).1⟩

theorem events_offer_of_kept (kept : (store.offer event).1 = true) :
    (store.offer event).2.events = store.events ++ [event] :=
  store.events_insert_of_new event ((store.offer_fst_iff event).mp kept)

theorem offer_snd_of_rejected (rejected : (store.offer event).1 = false) :
    (store.offer event).2 = store := by
  apply store.insert_of_known
  by_contra new
  rw [(store.offer_fst_iff event).mpr new] at rejected
  cases rejected

/-- Of a row of events, a store comes to keep the first with each identifier that is new to it. -/
theorem events_insertAll (events : List Event) :
    (store.insertAll events).events =
      store.events ++ (distinctBy Event.id events).filter
        fun event => event.id ∉ store.events.map Event.id := by
  induction events generalizing store with
  | nil => exact (List.append_nil _).symm
  | cons first rest inductionHypothesis =>
      have inTurn : store.insertAll (first :: rest) = (store.insert first).insertAll rest := rfl
      rw [inTurn, inductionHypothesis, distinctBy]
      by_cases known : first.id ∈ store.events.map Event.id
      · rw [store.insert_of_known first known, List.filter_cons_of_neg (by simpa using known),
          List.filter_filter]
        congr 1
        apply List.filter_congr
        intro other _
        by_cases same : other.id = first.id
        · simp [same, known]
        · simp [same]
      · rw [store.events_insert_of_new first known, List.filter_cons_of_pos (by simpa using known),
          List.filter_filter, List.append_assoc, List.singleton_append]
        congr 2
        apply List.filter_congr
        intro other _
        rw [List.map_append, List.map_singleton, Bool.eq_iff_iff]
        simp [and_comm]

end Insertion

theorem events_insertAll_empty (events : List Event) :
    (empty.insertAll events).events = distinctBy Event.id events := by
  rw [events_insertAll]
  exact List.filter_eq_self.mpr fun event _ => by simp [empty]

theorem ranked_insertAll_of_perm {events reordered : List Event}
    (distinct : (events.map Event.id).Nodup) (same : events.Perm reordered) (filter : Filter) :
    (empty.insertAll reordered).ranked filter = (empty.insertAll events).ranked filter := by
  have distinctToo : (reordered.map Event.id).Nodup := (same.map Event.id).nodup_iff.mp distinct
  apply ranked_eq_of_perm
  rw [events_insertAll_empty, events_insertAll_empty, distinctBy_eq_self distinct,
    distinctBy_eq_self distinctToo]
  exact same.symm

/-- After any row of offers a store has the first event of each identifier, and knows the identifiers
of these.  A filter is answered by those of them that it accepts, each once, in the strict order of
answers and up to its limit; so a limit takes the start of the unlimited answer.  Events with
distinct identifiers may come in any order.  A further event is kept, behind the others, exactly if
its identifier is new, and the store stays as it is if not. -/
theorem query_insertAll (events : List Event) (filter : Filter) {context : LookupContext}
    (live : context.check = .ok ()) :
    let filled := fun (row : List Event) =>
      row.foldl (fun store event => (store.offer event).2) empty
    let store := filled events
    let ask := fun (store : MemoryStore) (filter : Filter) => (store.answers context).query filter
    (∀ event, event ∈ store.events ↔ event.IsFirstIn events) ∧
    (store.events.map Event.id).Nodup ∧ store.ids.Perm (store.events.map Event.id) ∧
    (∃ all : List Event,
      (∀ event, event ∈ all ↔ event.IsFirstIn events ∧ filter.accepts event = true) ∧
      all.Nodup ∧ all.Pairwise Event.Precedes ∧
      ask store filter = .ok (filter.cut all) ∧
      ask store { filter with limit := none } = .ok all ∧
      ∀ limit, ask store { filter with limit := some limit } = .ok (all.take limit)) ∧
    (∀ reordered, (events.map Event.id).Nodup → events.Perm reordered →
      ask (filled reordered) filter = ask store filter) ∧
    ∀ event,
      ((store.offer event).1 = true ↔ event.id ∉ events.map Event.id) ∧
      ((store.offer event).1 = true →
        (store.offer event).2.events = store.events ++ [event] ∧
          (store.offer event).2.size = store.size + 1) ∧
      ((store.offer event).1 = false → (store.offer event).2 = store) := by
  intro filled store ask
  have kept : store.events = distinctBy Event.id events := events_insertAll_empty events
  have answered : ∀ (store : MemoryStore) (filter : Filter),
      ask store filter = .ok (filter.cut (store.ranked filter)) := by
    intro store filter
    simp only [ask, answers, live, select_eq_cut_ranked]
  have firsts : ∀ event, event ∈ store.events ↔ event.IsFirstIn events := by
    intro event
    rw [kept, mem_distinctBy_iff]
    rfl
  refine ⟨firsts, store.nodup_ids, store.ids_perm, ⟨store.ranked filter, ?_,
    (store.pairwise_ranked filter).nodup, store.pairwise_ranked filter, answered store filter,
    answered store _, fun limit => answered store _⟩, ?_, ?_⟩
  · intro event
    rw [mem_ranked_iff, firsts]
  · intro reordered distinct same
    have alike : (filled reordered).ranked filter = store.ranked filter :=
      ranked_insertAll_of_perm distinct same filter
    rw [answered, answered, alike]
  · intro event
    refine ⟨?_, fun accepted => ?_, store.offer_snd_of_rejected event⟩
    · rw [offer_fst_iff, kept, mem_map_distinctBy_iff]
    · have behind := store.events_offer_of_kept event accepted
      refine ⟨behind, ?_⟩
      rw [size, behind, List.length_append]
      rfl

/-- Two events of one time, one of them offered again with another time, and an event that the
filter does not accept. -/
theorem query_insertAll_repeated :
    let first : Event := { id := "b", pubkey := "p", kind := 1, createdAt := 5 }
    let tied : Event := { id := "a", pubkey := "q", kind := 1, createdAt := 5 }
    let reaction : Event := { id := "c", pubkey := "p", kind := 7, createdAt := 8 }
    let later : Event := { id := "d", pubkey := "p", kind := 1, createdAt := 9 }
    let events := [first, tied, { first with createdAt := 9 }, reaction]
    let filter : Filter := { kinds := some [1], limit := some 1 }
    let store := events.foldl (fun store event => (store.offer event).2) empty
    LookupContext.background.check = .ok () ∧
      (store.answers .background).query filter = .ok [tied] ∧
      (store.answers .background).query { filter with limit := some 9 } = .ok [tied, first] ∧
      (∀ event, event ∈ [tied, first] ↔
        event.IsFirstIn events ∧ filter.accepts event = true) ∧
      store.ids.Perm ["a", "b", "c"] ∧
      (store.offer reaction).2 = store ∧
      (store.offer later).2.events = [first, tied, reaction, later] := by
  intro first tied reaction later events filter store
  have live : LookupContext.background.check = .ok () := rfl
  have kept : store.events = [first, tied, reaction] := by
    decide +kernel
  have accepted : store.events.filter { filter with limit := none }.accepts = [first, tied] := by
    rw [kept]
    decide +kernel
  have behind : first.newerFirst tied = false := by
    decide +kernel
  have whole : (store.answers .background).query { filter with limit := none } =
      .ok [tied, first] := by
    simp [answers, live, select, accepted, behind, List.mergeSort,
      List.MergeSort.Internal.splitInTwo]
  obtain ⟨_, _, known, ⟨all, members, _, _, answered, unlimited, limited⟩, _, offered⟩ :=
    query_insertAll events filter live
  cases whole.symm.trans unlimited
  have added := ((offered later).2.1 (by decide +kernel)).1
  exact ⟨live, answered, limited 9, members, by decide +kernel,
    (offered reaction).2.2 (by decide +kernel), added.trans (by decide +kernel)⟩

end MemoryStore

end NostrCapsule
