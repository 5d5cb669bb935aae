import NostrCapsule.Text.Basic

/-!
Contract: events as a store hands them over.

Identifiers are kept as the text they came as: an event is made elsewhere and may be malformed.

Owns:
- `Event`, the kinds that pages tell apart, and the lookup of tags;
- the events that an event names as root and as parent of its thread;
- `distinctBy`, the first occurrences of a list by a key, such as the identifiers of events.

Does not own: where events are kept.
-/

namespace NostrCapsule

/-- Event kinds with a meaning of their own. -/
inductive KnownKind where
  | metadata
  | textNote
  | reaction
  | zapReceipt
  | relayList
  | longForm
deriving DecidableEq, Repr

def KnownKind.code : KnownKind → UInt16
  | .metadata => 0
  | .textNote => 1
  | .reaction => 7
  | .zapReceipt => 9735
  | .relayList => 10002
  | .longForm => 30023

/-- An event: who wrote it, what kind it is of, when it was made (in seconds), its content and
its tags.  A tag is a name followed by values. -/
structure Event where
  id : String
  pubkey : String
  kind : UInt16
  createdAt : Int
  content : String := ""
  tags : List (List String) := []
deriving DecidableEq, Repr

namespace Event

def withTag (event : Event) (tag : List String) : Event :=
  { event with tags := event.tags ++ [tag] }

def tagsNamed (event : Event) (name : String) : List (List String) :=
  event.tags.filter fun tag => tag.head? == some name

/-- The values of the tags with a name, without the tags that have none. -/
def tagValues (event : Event) (name : String) : List String :=
  (event.tagsNamed name).filterMap fun tag => tag[1]?

def tagValue? (event : Event) (name : String) : Option String :=
  (event.tagValues name).head?

def title? (event : Event) : Option String :=
  event.tagValue? "title"

/-- The identifier of a replaceable event among those of its author and kind. -/
def identifier? (event : Event) : Option String :=
  event.tagValue? "d"

def isKind (event : Event) (kind : KnownKind) : Bool :=
  event.kind == kind.code

/-! ## Threads -/

/-- How a tag says what the event it names is to the thread. -/
inductive ThreadMarker where
  | root
  | reply
  | mention
  | unmarked
  | unknown
deriving DecidableEq, Repr

/-- The marker of a tag, from its fourth element. -/
def ThreadMarker.ofTag (tag : List String) : ThreadMarker :=
  match tag[3]? with
  | none => .unmarked
  | some "" => .unmarked
  | some "root" => .root
  | some "reply" => .reply
  | some "mention" => .mention
  | some _ => .unknown

/-- An event that another names in a thread. -/
structure ThreadReference where
  target : String
  marker : ThreadMarker
deriving DecidableEq, Repr

/-- The events that an event names, in order, with their markers. -/
def threadReferences (event : Event) : List ThreadReference :=
  (event.tagsNamed "e").filterMap fun tag =>
    tag[1]?.map fun target => { target, marker := .ofTag tag }

/-- Looks for the root among references, given the first unmarked one in front of them.  The first
reference that is marked as root ends the search. -/
def searchRoot (unmarked : Option String) : List ThreadReference → Option String
  | [] => unmarked
  | reference :: later =>
      match reference.marker with
      | .root => some reference.target
      | .unmarked => searchRoot (unmarked <|> some reference.target) later
      | .reply | .mention | .unknown => searchRoot unmarked later

/-- The event at the root of the thread. -/
def rootId? (event : Event) : Option String :=
  searchRoot none event.threadReferences

/-- Looks for the parent among references, given the last one marked as root and the last one of no
known marker in front of them.  The first reference that is marked as reply ends the search. -/
def searchParent (root loose : Option String) : List ThreadReference → Option String
  | [] => root <|> loose
  | reference :: later =>
      match reference.marker with
      | .reply => some reference.target
      | .root => searchParent (some reference.target) loose later
      | .mention => searchParent root loose later
      | .unmarked | .unknown => searchParent root (some reference.target) later

/-- The event that this one answers. -/
def parentId? (event : Event) : Option String :=
  searchParent none none event.threadReferences

end Event

/-! ## First occurrences -/

section FirstOccurrences

variable {α κ : Type} [DecidableEq κ]

/-- The items whose key no earlier item has, in order. -/
def distinctBy (key : α → κ) : List α → List α
  | [] => []
  | item :: rest => item :: (distinctBy key rest).filter fun other => key other ≠ key item

theorem mem_of_mem_distinctBy {key : α → κ} {item : α} {items : List α}
    (member : item ∈ distinctBy key items) : item ∈ items := by
  induction items with
  | nil => exact member
  | cons head rest inductionHypothesis =>
      rcases List.mem_cons.mp member with equal | later
      · exact equal ▸ List.mem_cons_self
      · exact List.mem_cons_of_mem _ (inductionHypothesis (List.mem_filter.mp later).1)

/-- No two first occurrences share a key. -/
theorem nodup_distinctBy (key : α → κ) (items : List α) :
    ((distinctBy key items).map key).Nodup := by
  induction items with
  | nil => exact List.nodup_nil
  | cons head rest inductionHypothesis =>
      simp only [distinctBy, List.map_cons, List.nodup_cons]
      constructor
      · simp
      · exact inductionHypothesis.sublist (List.filter_sublist.map key)

end FirstOccurrences

end NostrCapsule
