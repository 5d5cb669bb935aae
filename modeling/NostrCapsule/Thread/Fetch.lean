import NostrCapsule.Lookup.Basic
import NostrCapsule.Thread.Forest

/-!
Contract: a thread built from a root and replies in any order, and the thread around an event as a
store knows it.

A reply stands below the event that it answers if that is another of the replies, and below the
root otherwise.  Events that answer each other in a circle are reached by no path from the root;
they are put below the root afterwards, in the order of the list.

Owns:
- the placement of replies among each other, and the order of siblings;
- `takeForest`, which moves events from a pending list into a forest;
- `Thread.assemble` and `Thread.fetch`.

Does not own: the shape of a thread.
-/

namespace NostrCapsule

/-! ## Assembly -/

/-- The order of siblings: older events first, then by identifier. -/
def Event.olderFirst (left right : Event) : Bool :=
  left.createdAt < right.createdAt
    || (left.createdAt == right.createdAt && decide (left.id ≤ right.id))

namespace Thread

/-- A reply with the identifier of the event that it stands below; none for the root. -/
structure Placement where
  event : Event
  parent : Option String
deriving DecidableEq, Repr

/-- The identifier of the event that a reply answers, if that is another one with one of the given
identifiers. -/
def parentAmong (ids : List String) (event : Event) : Option String :=
  event.parentId?.filter fun parent => parent != event.id && ids.contains parent

/-- The placements of replies among themselves. -/
def placements (replies : List Event) : List Placement :=
  let ids := replies.map Event.id
  replies.map fun event => { event, parent := parentAmong ids event }

/-- The replies below a given parent, in the order of siblings. -/
def childrenOf (placed : List Placement) (parent : Option String) : List Event :=
  ((placed.filter fun placement => placement.parent == parent).map Placement.event).mergeSort
    Event.olderFirst

/-- A forest with the events that are still pending after it was built. -/
structure Harvest (pending : List Event) where
  forest : Forest
  rest : List Event
  length_rest : rest.length ≤ pending.length

/-- Builds the forest of those candidates that are pending, in order, each with those that answer
it and are pending.  What goes into the forest is pending no more. -/
def takeForest (answersTo : String → List Event) (pending candidates : List Event) :
    Harvest pending :=
  match candidates with
  | [] => ⟨.empty, pending, Nat.le_refl _⟩
  | event :: later =>
      if member : event ∈ pending then
        match takeForest answersTo (pending.erase event) (answersTo event.id) with
        | ⟨answers, unanswered, fewer⟩ =>
            match takeForest answersTo unanswered later with
            | ⟨siblings, rest, fewest⟩ =>
                ⟨.branch event answers siblings, rest, by
                  have := List.length_erase_of_mem member
                  omega⟩
      else takeForest answersTo pending later
termination_by (pending.length, candidates.length)
decreasing_by
  · have := List.length_erase_of_mem member
    have := List.length_pos_of_mem member
    exact Prod.Lex.left _ _ (by omega)
  · have := List.length_erase_of_mem member
    have := List.length_pos_of_mem member
    exact Prod.Lex.left _ _ (by omega)
  · exact Prod.Lex.right _ (by simp)

/-- The replies that a thread takes: the first of each identifier, and none with the root's. -/
def admitted (root : Event) (replies : List Event) : List Event :=
  (distinctBy Event.id replies).filter fun event => event.id ≠ root.id

def assemble (root : Event) (replies : List Event) : Thread :=
  let replies := admitted root replies
  let placed := placements replies
  let answersTo := fun id => childrenOf placed (some id)
  let reached := takeForest answersTo replies (childrenOf placed none)
  let stranded := takeForest answersTo reached.rest reached.rest
  ⟨root, reached.forest ++ stranded.forest⟩

end Thread

/-! ## Fetching -/

namespace Thread

def replyLimit : Nat := 500

def replyFilter (root : String) : Filter :=
  { kinds := some [KnownKind.textNote.code], tags := [('e', [root])], limit := some replyLimit }

/-- The root of the thread of an event: the one that it names if a store has it, else itself. -/
def fetchRoot (focus : Event) : Lookup Event := do
  match focus.rootId? with
  | none => pure focus
  | some root =>
      if root = focus.id then pure focus
      else pure ((← Lookup.fetchEvent root).getD focus)

/-- The thread around an event, unless the event itself is unknown.  The event is part of the
thread even if it is not among the replies that were found. -/
def fetch (focusId : String) : Lookup (Option Thread) := do
  match ← Lookup.fetchEvent focusId with
  | none => pure none
  | some focus =>
      let root ← fetchRoot focus
      let replies ← Lookup.eventsOrNone (replyFilter root.id)
      let focusReply := if focus.id = root.id then [] else [focus]
      pure (some (assemble root (replies ++ focusReply)))

end Thread

end NostrCapsule
