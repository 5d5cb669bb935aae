import NostrCapsule.Event.Basic

/-!
Contract: computations that ask a store.

A computation is a tree: it is done with a value, or it asks one question and goes on with the
answer.  So the questions, their order and their number are part of a computation, and two equal
computations ask the same of every store.

Owns:
- `LookupContext`, whether lookups may still be made, and the errors with which a store answers;
- `Filter`, which events a question is about;
- `Lookup` with its monad, and the questions that are asked.

Does not own: what a store answers, and the order and number of the events that answer.
-/

namespace NostrCapsule

/-! ## Contexts -/

inductive StoreError where
  | cancelled
  | deadlineExceeded
  | backend (detail : String)
deriving DecidableEq, Repr

def StoreError.message : StoreError → String
  | .cancelled => "lookup cancelled"
  | .deadlineExceeded => "lookup deadline exceeded"
  | .backend detail => "store error: " ++ detail

inductive Deadline where
  | passed
  | ahead
deriving DecidableEq, Repr

structure LookupContext where
  cancelled : Bool := false
  deadline : Option Deadline := none
deriving DecidableEq, Repr

namespace LookupContext

/-- The context in which lookups are never refused. -/
def background : LookupContext := {}

def cancel (context : LookupContext) : LookupContext :=
  { context with cancelled := true }

/-- Refuses a lookup that comes after a cancellation or, failing that, after the deadline. -/
def check (context : LookupContext) : Except StoreError Unit :=
  if context.cancelled then .error .cancelled
  else if context.deadline = some .passed then .error .deadlineExceeded
  else .ok ()

end LookupContext

/-! ## Filters -/

/-- Conditions on events.  What is `none` does not constrain; an empty list accepts nothing.  A
tag condition holds if a tag of that name has one of the values. -/
structure Filter where
  ids : Option (List String) := none
  authors : Option (List String) := none
  kinds : Option (List UInt16) := none
  tags : List (Char × List String) := []
  limit : Option Nat := none
deriving DecidableEq, Repr

namespace Filter

/-- Whether an event has a tag of the given name with one of the given values. -/
def acceptsTag (event : Event) (condition : Char × List String) : Bool :=
  (event.tagValues (String.singleton condition.1)).any condition.2.contains

/-- Whether an event meets all conditions.  The limit is none of them. -/
def accepts (filter : Filter) (event : Event) : Bool :=
  filter.ids.all (·.contains event.id) && filter.authors.all (·.contains event.pubkey)
    && filter.kinds.all (·.contains event.kind) && filter.tags.all (acceptsTag event)

def byId (id : String) : Filter :=
  { ids := some [id], limit := some 1 }

def byAuthor (author : String) (kind : KnownKind) (limit : Nat) : Filter :=
  { authors := some [author], kinds := some [kind.code], limit := some limit }

end Filter

/-! ## Computations -/

abbrev QueryAnswer := Except StoreError (List Event)

/-- A computation that asks for events and for relays. -/
inductive Lookup (α : Type) : Type where
  | done (value : α)
  | query (filter : Filter) (next : QueryAnswer → Lookup α)
  | readRelays (pubkey : String) (next : List String → Lookup α)

namespace Lookup

variable {α β : Type}

def bind (lookup : Lookup α) (continuation : α → Lookup β) : Lookup β :=
  match lookup with
  | .done value => continuation value
  | .query filter next => .query filter fun answer => (next answer).bind continuation
  | .readRelays pubkey next => .readRelays pubkey fun relays => (next relays).bind continuation

instance : Monad Lookup where
  pure := .done
  bind := Lookup.bind

def events (filter : Filter) : Lookup QueryAnswer :=
  .query filter .done

def relaysOf (pubkey : String) : Lookup (List String) :=
  .readRelays pubkey .done

/-- The events that answer; none if the store refuses. -/
def eventsOrNone (filter : Filter) : Lookup (List Event) := do
  match ← events filter with
  | .ok found => pure found
  | .error _ => pure []

/-- The first event that answers, if there is one. -/
def firstMatch (filter : Filter) : Lookup (Option Event) := do
  pure (← eventsOrNone filter).head?

def fetchEvent (id : String) : Lookup (Option Event) :=
  firstMatch (.byId id)

end Lookup

end NostrCapsule
