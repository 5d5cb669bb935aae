import NostrCapsule.Event.Basic

/-!
Contract: the shape of a conversation.

A forest is a list of events, each with the forest of its replies.  It is kept as a first event,
its replies, and the forest of the events beside it, so that every operation is one recursion.

Owns:
- `Forest` and `Thread`, a root with its replies;
- their views: `preorder`, `outline` with depths, and `threads`, the list of top trees;
- `find?`, which goes by identifier and in preorder.

Does not own: which event answers which.
-/

namespace NostrCapsule

/-- Events side by side, each with its replies. -/
inductive Forest where
  | empty
  | branch (event : Event) (replies siblings : Forest)
deriving DecidableEq, Repr

structure Thread where
  root : Event
  replies : Forest
deriving DecidableEq, Repr

namespace Forest

def append : Forest → Forest → Forest
  | .empty, other => other
  | .branch event replies siblings, other => .branch event replies (siblings.append other)

instance : Append Forest := ⟨append⟩

def ofThreads : List Thread → Forest
  | [] => .empty
  | thread :: rest => .branch thread.root thread.replies (ofThreads rest)

def threads : Forest → List Thread
  | .empty => []
  | .branch event replies siblings => ⟨event, replies⟩ :: siblings.threads

def size : Forest → Nat
  | .empty => 0
  | .branch _ replies siblings => 1 + replies.size + siblings.size

/-- All events, each before its replies and these before the events beside it. -/
def preorder : Forest → List Event
  | .empty => []
  | .branch event replies siblings => event :: (replies.preorder ++ siblings.preorder)

/-- All events in preorder, each with its depth; the top has the given one. -/
def outline (depth : Nat) : Forest → List (Nat × Event)
  | .empty => []
  | .branch event replies siblings =>
      (depth, event) :: (replies.outline (depth + 1) ++ siblings.outline depth)

/-- The tree below the first event in preorder with an identifier. -/
def find? (id : String) : Forest → Option Thread
  | .empty => none
  | .branch event replies siblings =>
      if event.id = id then some ⟨event, replies⟩
      else (replies.find? id).orElse fun _ => siblings.find? id

end Forest

namespace Thread

def toForest (thread : Thread) : Forest :=
  .branch thread.root thread.replies .empty

def size (thread : Thread) : Nat :=
  thread.toForest.size

def preorder (thread : Thread) : List Event :=
  thread.toForest.preorder

/-- All events in preorder with their depths; the root has depth zero. -/
def outline (thread : Thread) : List (Nat × Event) :=
  thread.toForest.outline 0

def find? (id : String) (thread : Thread) : Option Thread :=
  thread.toForest.find? id

end Thread

end NostrCapsule
