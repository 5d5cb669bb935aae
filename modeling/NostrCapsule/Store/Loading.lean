import NostrCapsule.Event.Reading
import NostrCapsule.Lookup.Meter

/-!
Contract: a store that keeps events in memory.

Owns:
- `MemoryStore`, in which no two events share an identifier, and `offer`, which takes an event in if
  its identifier is not among those that the store knows;
- the answer to a filter: newest first, and by identifier among events of one time;
- the read relays of an author;
- `MemoryStore.ofLines`, which loads all of a file or nothing.

Does not own: the reading of one event.
-/

namespace NostrCapsule

/-- The order of answers: newer events first, then by identifier. -/
def Event.newerFirst (left right : Event) : Bool :=
  right.createdAt < left.createdAt
    || (left.createdAt == right.createdAt && decide (left.id ≤ right.id))

/-- Events in the order of their insertion, the set of their identifiers, and the read relays that
were set for authors. -/
structure MemoryStore where
  events : List Event := []
  ids : List String := []
  relayOverrides : List (String × List String) := []
  nodup_ids : (events.map Event.id).Nodup := by simp
  /-- The identifiers are those of the events, in whatever order. -/
  ids_perm : ids.Perm (events.map Event.id) := by simp

namespace MemoryStore

def empty : MemoryStore := {}

theorem mem_ids_iff (store : MemoryStore) {id : String} :
    id ∈ store.ids ↔ id ∈ store.events.map Event.id :=
  store.ids_perm.mem_iff

theorem nodup_ids_append (store : MemoryStore) {event : Event} (new : event.id ∉ store.ids) :
    ((store.events ++ [event]).map Event.id).Nodup := by
  rw [List.map_append, List.map_singleton, List.nodup_append]
  refine ⟨store.nodup_ids, by simp, ?_⟩
  intro id kept other added equal
  rw [List.mem_singleton.mp added] at equal
  exact new (store.mem_ids_iff.mpr (equal ▸ kept))

theorem ids_perm_append (store : MemoryStore) (event : Event) :
    (event.id :: store.ids).Perm ((store.events ++ [event]).map Event.id) := by
  rw [List.map_append, List.map_singleton]
  exact (store.ids_perm.cons event.id).trans (List.perm_append_singleton _ _).symm

/-- Offers an event to a store: whether it is kept, and the store after that.  An event with a known
identifier is not kept. -/
def offer (store : MemoryStore) (event : Event) : Bool × MemoryStore :=
  if known : event.id ∈ store.ids then (false, store)
  else
    (true,
      { store with
        events := store.events ++ [event]
        ids := event.id :: store.ids
        nodup_ids := store.nodup_ids_append known
        ids_perm := store.ids_perm_append event })

/-- Keeps one more event, unless one with its identifier is kept already. -/
def insert (store : MemoryStore) (event : Event) : MemoryStore :=
  (store.offer event).2

def insertAll (store : MemoryStore) (events : List Event) : MemoryStore :=
  events.foldl insert store

def size (store : MemoryStore) : Nat :=
  store.events.length

def setReadRelays (store : MemoryStore) (pubkey : String) (relays : List String) : MemoryStore :=
  { store with relayOverrides := (pubkey, relays) :: store.relayOverrides }

/-- The events that a filter accepts, in the order of answers and up to its limit. -/
def select (store : MemoryStore) (filter : Filter) : List Event :=
  let accepted := (store.events.filter filter.accepts).mergeSort Event.newerFirst
  match filter.limit with
  | none => accepted
  | some limit => accepted.take limit

/-- The latest relay list of an author; of several with one time, the one inserted last. -/
def relayList? (store : MemoryStore) (pubkey : String) : Option Event :=
  (store.events.filter fun event => event.isKind .relayList && event.pubkey == pubkey).foldl
    (fun latest event => match latest with
      | none => some event
      | some best => if best.createdAt ≤ event.createdAt then some event else some best)
    none

/-- The relays that a relay list names for reading: those marked so and those without a mark. -/
def readRelaysOf (list : Event) : List String :=
  ((list.tagsNamed "r").filter fun tag => tag[2]?.all (· == "read")).filterMap
    fun tag => tag[1]?

/-- The read relays of an author: those set, else those of the author's relay list. -/
def readRelays (store : MemoryStore) (pubkey : String) : List String :=
  match store.relayOverrides.lookup pubkey with
  | some relays => relays
  | none =>
      match store.relayList? pubkey with
      | some list => readRelaysOf list
      | none => []

def answers (store : MemoryStore) (context : LookupContext) : Answers where
  query filter :=
    match context.check with
    | .error refusal => .error refusal
    | .ok () => .ok (store.select filter)
  readRelays pubkey :=
    match context.check with
    | .error _ => []
    | .ok () => store.readRelays pubkey

def ofLines (octets : List UInt8) : Except LoadError MemoryStore :=
  (eventsOnLines (Text.byteLines octets) 1).map empty.insertAll

end MemoryStore

end NostrCapsule
