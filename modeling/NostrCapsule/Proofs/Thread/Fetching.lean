import NostrCapsule.Proofs.Store.Selection
import NostrCapsule.Proofs.Thread.Census
import NostrCapsule.Thread.Fetch

/-!
Contract: the thread that is fetched around an event.

Three lookups make it: of the event, of its root, and of the replies.  Only the first can make it
fail.  The event is added to the replies unless it is the root, so neither the limit nor a refusal
can lose it, and as no two events of a store share an identifier, nothing else can take its place.

Owns:
- the events of a thread, from those it was assembled of;
- `Thread.IsAround`, which holds of a fetched thread whatever became of the later lookups;
- the root of a fetched thread, and `fetch_around`.

Does not own: where in the thread a reply stands.
-/

namespace NostrCapsule

variable {σ : Type}

namespace Thread

/-! ## The events of a thread -/

theorem mem_preorder_assemble_iff {root event : Event} {replies : List Event} :
    event ∈ (assemble root replies).preorder ↔ event = root ∨ event ∈ admitted root replies := by
  rw [preorder_eq_cons, List.mem_cons, (preorder_replies_assemble_perm root replies).mem_iff]
  exact Iff.rfl

theorem size_assemble_le (root : Event) (replies : List Event) :
    (assemble root replies).size ≤ 1 + replies.length := by
  rw [size_assemble]
  have fewer := Finset.card_erase_le (s := (replies.map Event.id).toFinset) (a := root.id)
  have distinct := List.toFinset_card_le (replies.map Event.id)
  rw [List.length_map] at distinct
  omega

/-- A reply is part of the thread if no other event shares its identifier. -/
theorem mem_preorder_assemble_of_unique {root event : Event} {replies : List Event}
    (listed : event = root ∨ event ∈ replies)
    (unique : ∀ other, other = root ∨ other ∈ replies → other.id = event.id → other = event) :
    event ∈ (assemble root replies).preorder := by
  -- Its identifier is placed in any case, be it on the first of several events that have it.
  have known : event.id ∈ (assemble root replies).preorder.map Event.id := by
    rw [(map_id_preorder_assemble_perm root replies).mem_iff, List.mem_cons,
      mem_ids_admitted_iff]
    by_cases rootId : event.id = root.id
    · exact .inl rootId
    · have reply := listed.resolve_left fun same => rootId (congrArg Event.id same)
      exact .inr ⟨rootId, List.mem_map_of_mem reply⟩
  obtain ⟨other, placed, same⟩ := List.mem_map.mp known
  have known := (mem_preorder_assemble_iff.mp placed).imp_right mem_of_mem_admitted
  rwa [unique other known same] at placed

/-! ## Threads around an event -/

/-- A thread with an event of a store in it.  Apart from root and event it has replies only: notes
of the store, at most as many as are asked for, that name the root. -/
structure IsAround (store : MemoryStore) (focus : Event) (thread : Thread) : Prop where
  mem_focus : focus ∈ thread.preorder
  root_stored : thread.root ∈ store.events
  nodup_ids : (thread.preorder.map Event.id).Nodup
  size_le : thread.size ≤ 502
  origin : ∀ event ∈ thread.preorder, event = thread.root ∨ event = focus ∨
    event ∈ store.events ∧ event.kind = 1 ∧ thread.root.id ∈ event.tagValues "e"

theorem accepts_replyFilter {root : String} {event : Event}
    (accepted : (replyFilter root).accepts event = true) :
    event.kind = 1 ∧ root ∈ event.tagValues "e" := by
  simpa [Filter.accepts, replyFilter, Filter.acceptsTag, KnownKind.code] using accepted

/-- What is assembled of two events of a store and of answers to the question for replies. -/
theorem isAround_assemble {store : MemoryStore} {focus root : Event} {replies : List Event}
    (focusStored : focus ∈ store.events) (rootStored : root ∈ store.events)
    (answers : ∀ reply ∈ replies, reply ∈ store.select (replyFilter root.id))
    (limited : replies.length ≤ 500) :
    (assemble root (replies ++ if focus.id = root.id then [] else [focus])).IsAround store
      focus := by
  let added : List Event := if focus.id = root.id then [] else [focus]
  have added_eq {event : Event} (member : event ∈ added) : event = focus := by
    by_cases rooted : focus.id = root.id
    · simp [added, rooted] at member
    · simpa [added, rooted] using member
  have stored {event : Event} (known : event = root ∨ event ∈ replies ++ added) :
      event ∈ store.events := by
    rcases known with rfl | listed
    · exact rootStored
    rcases List.mem_append.mp listed with reply | last
    · exact (MemoryStore.mem_of_mem_select (answers event reply)).1
    · exact added_eq last ▸ focusStored
  refine ⟨?_, rootStored, nodup_ids_assemble _ _, ?_, ?_⟩
  · apply mem_preorder_assemble_of_unique
    · by_cases rooted : focus.id = root.id
      · exact .inl (MemoryStore.eq_of_id_eq focusStored rootStored rooted)
      · refine .inr (List.mem_append_right replies ?_)
        rw [if_neg rooted]
        exact List.mem_singleton_self focus
    · intro other known equal
      exact MemoryStore.eq_of_id_eq (stored known) focusStored equal
  · have bound := size_assemble_le root (replies ++ added)
    have one : added.length ≤ 1 := by
      by_cases rooted : focus.id = root.id <;> simp [added, rooted]
    rw [List.length_append] at bound
    exact bound.trans (by omega)
  · intro event placed
    rcases mem_preorder_assemble_iff.mp placed with rfl | admitted
    · exact .inl rfl
    refine .inr ?_
    rcases List.mem_append.mp (mem_of_mem_admitted admitted) with reply | last
    · obtain ⟨kept, accepted⟩ := MemoryStore.mem_of_mem_select (answers event reply)
      exact .inr ⟨kept, accepts_replyFilter accepted⟩
    · exact .inl (added_eq last)

/-! ## Fetching -/

section Run

variable {store : MemoryStore} {source : Source σ} {state : σ} {focusId : String} {focus : Event}

/-- With the event found, the thread is assembled of the root that was found for it and of the
replies that were found for that root. -/
theorem run_fetch_of_found (found : ((Lookup.fetchEvent focusId).run source state).1 = some focus) :
    let root := (fetchRoot focus).run source ((Lookup.fetchEvent focusId).run source state).2
    let replies := QueryAnswer.found (source.query (replyFilter root.1.id) root.2).1
    ((fetch focusId).run source state).1 =
      some (assemble root.1 (replies ++ if focus.id = root.1.id then [] else [focus])) := by
  simp only [fetch, Lookup.run_bind, found, Lookup.run_eventsOrNone, Lookup.run_pure]

theorem run_fetch_of_not_found (missing : ((Lookup.fetchEvent focusId).run source state).1 = none) :
    ((fetch focusId).run source state).1 = none := by
  simp only [fetch, Lookup.run_bind, missing, Lookup.run_pure]

theorem root_stored (falters : source.Falters store) (stored : focus ∈ store.events) (state : σ) :
    ((fetchRoot focus).run source state).1 ∈ store.events := by
  unfold fetchRoot
  split
  · exact stored
  split
  · exact stored
  rw [Lookup.run_bind, Lookup.run_pure, Lookup.fetchEvent, Lookup.run_firstMatch]
  dsimp only
  cases found : (QueryAnswer.found (source.query _ state).1).head? with
  | none => exact stored
  | some root =>
      have answered := falters.mem_of_mem_found (List.mem_of_head? found)
      exact (MemoryStore.mem_of_mem_select answered).1

/-- Once the event is found, the later lookups may be refused or not. -/
theorem exists_isAround_of_found (falters : source.Falters store)
    (found : ((Lookup.fetchEvent focusId).run source state).1 = some focus) :
    ∃ thread, ((fetch focusId).run source state).1 = some thread ∧
      thread.IsAround store focus := by
  have stored : focus ∈ store.events := by
    rw [Lookup.fetchEvent, Lookup.run_firstMatch] at found
    have answered := falters.mem_of_mem_found (List.mem_of_head? found)
    exact (MemoryStore.mem_of_mem_select answered).1
  refine ⟨_, run_fetch_of_found found, ?_⟩
  apply isAround_assemble stored (root_stored falters stored _)
  · intro reply member
    exact falters.mem_of_mem_found member
  · exact falters.length_found_le rfl

end Run

def HasRoot (store : MemoryStore) (focus root : Event) : Prop :=
  root ∈ store.events ∧ focus.rootId? = some root.id ∧ root.id ≠ focus.id

theorem HasRoot.unique {store : MemoryStore} {focus root other : Event}
    (left : HasRoot store focus root) (right : HasRoot store focus other) : root = other := by
  have same := left.2.1.symm.trans right.2.1
  exact MemoryStore.eq_of_id_eq left.1 right.1 (Option.some.inj same)

/-- If no question is refused, the root is the event that is named, if it is another one that is
stored. -/
theorem hasRoot_or_eq_focus {store : MemoryStore} {source : Source σ} (serves : source.Serves store)
    (focus : Event) (state : σ) :
    let root := ((fetchRoot focus).run source state).1
    HasRoot store focus root ∨ root = focus ∧ ∀ other, ¬HasRoot store focus other := by
  unfold fetchRoot
  cases named : focus.rootId? with
  | none =>
      refine .inr ⟨rfl, fun other has => ?_⟩
      rw [HasRoot, named] at has
      cases has.2.1
  | some rootId =>
      dsimp only
      by_cases itself : rootId = focus.id
      · rw [if_pos itself]
        refine .inr ⟨rfl, fun other has => has.2.2 ?_⟩
        rw [HasRoot, named] at has
        rw [← Option.some.inj has.2.1, itself]
      · rw [if_neg itself, Lookup.run_bind, Lookup.run_pure,
          MemoryStore.run_fetchEvent_of_answered (serves _ _)]
        cases found : store.event? rootId with
        | none =>
            refine .inr ⟨rfl, fun other has => ?_⟩
            rw [HasRoot, named] at has
            exact MemoryStore.event?_eq_none_iff.mp found other has.1
              (Option.some.inj has.2.1).symm
        | some root =>
            obtain ⟨kept, same⟩ := MemoryStore.event?_eq_some_iff.mp found
            rw [← same] at named itself
            exact .inl ⟨kept, named, itself⟩

/-- The thread around an event is fetched exactly if the event is stored.  Its root is the event
that is named as such, if it is another one that is stored, and else the event itself; the event is
part of it, and all other events are notes that name the root, each once and at most 500 of them.
Lookups that are refused after the first one cost the root or replies, but neither the thread nor
the event. -/
theorem fetch_around (store : MemoryStore) (context : LookupContext)
    (live : context.check = .ok ()) (focusId : String) :
    let fetched := (fetch focusId).answer (store.answers context)
    (fetched = none ↔ ∀ event ∈ store.events, event.id ≠ focusId) ∧
    ∀ focus ∈ store.events, focus.id = focusId →
      (∃ thread, fetched = some thread ∧ thread.IsAround store focus ∧
        (HasRoot store focus thread.root ∨
          thread.root = focus ∧ ∀ other, ¬HasRoot store focus other)) ∧
      ∀ {σ : Type} (source : Source σ) (state : σ), source.Falters store →
        (source.query (.byId focusId) state).1 = .ok (store.select (.byId focusId)) →
        ∃ thread, ((fetch focusId).run source state).1 = some thread ∧
          thread.IsAround store focus := by
  intro fetched
  have serves := store.serves_answers live
  have asFetched : ((fetch focusId).run (store.answers context).source ()).1 = fetched := by
    rw [Lookup.run_answersSource]
  have found := MemoryStore.run_fetchEvent_of_answered (serves (.byId focusId) ())
  refine ⟨⟨fun nothing => ?_, fun absent => ?_⟩, fun focus stored same => ⟨?_, ?_⟩⟩
  · apply MemoryStore.event?_eq_none_iff.mp
    cases known : store.event? focusId with
    | none => rfl
    | some focus =>
        have some := run_fetch_of_found (found.trans known)
        rw [asFetched, nothing] at some
        cases some
  · rw [← asFetched]
    exact run_fetch_of_not_found (found.trans (MemoryStore.event?_eq_none_iff.mpr absent))
  · have known := found.trans (MemoryStore.event?_eq_some_iff.mpr ⟨stored, same⟩)
    obtain ⟨thread, fetchedThread, around⟩ := exists_isAround_of_found serves.falters known
    refine ⟨thread, asFetched.symm.trans fetchedThread, around, ?_⟩
    rw [run_fetch_of_found known] at fetchedThread
    cases fetchedThread
    exact hasRoot_or_eq_focus serves focus _
  · intro σ source state falters answered
    have known := MemoryStore.run_fetchEvent_of_answered answered
    rw [MemoryStore.event?_eq_some_iff.mpr ⟨stored, same⟩] at known
    exact exists_isAround_of_found falters known

/-- A reaction that names a root, which no question for replies finds.  It is part of the thread of
the root, and of the thread that is made of it once the store refuses all questions but the first. -/
theorem fetch_around_reaction :
    let root : Event := { id := "r", pubkey := "", kind := 1, createdAt := 0 }
    let focus : Event :=
      { id := "f", pubkey := "", kind := 7, createdAt := 60, tags := [["e", "r", "", "root"]] }
    let store := MemoryStore.empty.insertAll [focus, root]
    let answers := store.answers .background
    let failing := answers.metered (.backend "connection refused")
    (∃ thread, (fetch "f").answer answers = some thread ∧ focus ∈ thread.preorder ∧
        thread.root = root) ∧
      ∃ thread, ((fetch "f").run failing { remaining := some 1 }).1 = some thread ∧
        focus ∈ thread.preorder := by
  intro root focus store answers failing
  have stored : focus ∈ store.events := by decide +kernel
  have named : HasRoot store focus root := by
    refine ⟨?_, ?_, ?_⟩ <;> decide +kernel
  obtain ⟨_, around⟩ := fetch_around store .background rfl "f"
  obtain ⟨⟨thread, fetched, complete, rooted⟩, whenRefused⟩ := around focus stored rfl
  refine ⟨⟨thread, fetched, complete.mem_focus, ?_⟩, ?_⟩
  · rcases rooted with has | ⟨_, none⟩
    · exact has.unique named
    · exact absurd named (none root)
  · obtain ⟨thread, fetched, around⟩ := whenRefused failing { remaining := some 1 }
      (store.falters_metered .background _) rfl
    exact ⟨thread, fetched, around.mem_focus⟩

end Thread

end NostrCapsule
