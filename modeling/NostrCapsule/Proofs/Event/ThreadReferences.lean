import Mathlib.Data.List.Basic
import NostrCapsule.Event.Basic

/-!
Contract: which of the events that an event names are its root and its parent.

Both are looked for in one pass.  The root goes by marked and unmarked references alone; the parent
also takes a reference whose marker is unknown for an unmarked one.

Owns:
- `searchRoot_eq` and `searchParent_eq`, what a search finds behind what it has found before;
- `Event.targetsWhere`, the targets of tags by their fourth element;
- `Event.priorityParent?`, the parent by known markers, and how far the parent agrees with it.

Does not own: the thread that is built from parents.
-/

namespace NostrCapsule.Event

/-! ## What a search finds -/

/-- The targets of the references whose marker is wanted, in order. -/
def targetsOf (wanted : ThreadMarker → Bool) (references : List ThreadReference) : List String :=
  (references.filter fun reference => wanted reference.marker).map ThreadReference.target

theorem targetsOf_cons (wanted : ThreadMarker → Bool) (reference : ThreadReference)
    (later : List ThreadReference) :
    targetsOf wanted (reference :: later) =
      if wanted reference.marker then reference.target :: targetsOf wanted later
      else targetsOf wanted later := by
  unfold targetsOf
  rw [List.filter_cons]
  split <;> rfl

/-- A search for the root finds the first marked reference, else what was found before, else the
first unmarked reference. -/
theorem searchRoot_eq (unmarked : Option String) (references : List ThreadReference) :
    searchRoot unmarked references =
      ((targetsOf (· == .root) references).head? <|> unmarked
        <|> (targetsOf (· == .unmarked) references).head?) := by
  induction references generalizing unmarked with
  | nil => cases unmarked <;> rfl
  | cons reference later inductionHypothesis =>
      obtain ⟨target, marker⟩ := reference
      rw [targetsOf_cons, targetsOf_cons]
      cases marker with
      | root => rfl
      | unmarked =>
          show searchRoot (unmarked <|> some target) later =
            ((targetsOf (· == .root) later).head? <|> unmarked <|> some target)
          rw [inductionHypothesis]
          cases unmarked <;> rfl
      | reply => exact inductionHypothesis unmarked
      | mention => exact inductionHypothesis unmarked
      | unknown => exact inductionHypothesis unmarked

/-- Whether a search for the parent takes a reference for an unmarked one. -/
def isLooseMarker (marker : ThreadMarker) : Bool :=
  marker == .unmarked || marker == .unknown

/-- A later find takes the place of what was found before it. -/
theorem getLast?_cons_orElse (target : String) (later : List String) (before : Option String) :
    ((target :: later).getLast? <|> before) = (later.getLast? <|> some target) := by
  rw [List.getLast?_cons]
  cases later.getLast? <;> rfl

/-- A search for the parent finds the first reply, else the last root, else the last reference of no
known marker; roots and others that were found before stand in front of the rest. -/
theorem searchParent_eq (root loose : Option String) (references : List ThreadReference) :
    searchParent root loose references =
      ((targetsOf (· == .reply) references).head?
        <|> ((targetsOf (· == .root) references).getLast? <|> root)
        <|> ((targetsOf isLooseMarker references).getLast? <|> loose)) := by
  induction references generalizing root loose with
  | nil => rfl
  | cons reference later inductionHypothesis =>
      obtain ⟨target, marker⟩ := reference
      rw [targetsOf_cons, targetsOf_cons, targetsOf_cons]
      cases marker with
      | reply => rfl
      | root =>
          show searchParent (some target) loose later =
            ((targetsOf (· == .reply) later).head?
              <|> ((target :: targetsOf (· == .root) later).getLast? <|> root)
              <|> ((targetsOf isLooseMarker later).getLast? <|> loose))
          rw [inductionHypothesis, getLast?_cons_orElse]
      | mention => exact inductionHypothesis root loose
      | unmarked | unknown =>
          show searchParent root (some target) later =
            ((targetsOf (· == .reply) later).head?
              <|> ((targetsOf (· == .root) later).getLast? <|> root)
              <|> ((target :: targetsOf isLooseMarker later).getLast? <|> loose))
          rw [inductionHypothesis, getLast?_cons_orElse]

/-! ## Tags by their fourth element -/

/-- The targets of those `e` tags that carry one and are wanted, in order. -/
def targetsWhere (event : Event) (wanted : List String → Bool) : List String :=
  event.tags.filterMap fun tag =>
    match tag with
    | "e" :: target :: _ => if wanted tag then some target else none
    | _ => none

def isMarked (marker : String) (tag : List String) : Bool :=
  tag[3]? == some marker

def isUnmarked (tag : List String) : Bool :=
  tag[3]? == none || tag[3]? == some ""

/-- The fourth element is none of the three known markers. -/
def isLoose (tag : List String) : Bool :=
  !(isMarked "reply" tag || isMarked "root" tag || isMarked "mention" tag)

theorem targetsOf_threadReferences (event : Event) (wanted : ThreadMarker → Bool) :
    targetsOf wanted event.threadReferences =
      event.targetsWhere fun tag => wanted (.ofTag tag) := by
  unfold targetsOf threadReferences tagsNamed targetsWhere
  rw [List.filterMap_filter, List.filter_filterMap, List.map_filterMap]
  refine List.filterMap_congr fun tag _ => ?_
  match tag with
  | [] => rfl
  | [name] => simp
  | name :: target :: more =>
      by_cases named : name = "e"
      · subst named
        cases accepted : wanted (.ofTag ("e" :: target :: more)) <;> simp [accepted]
      · simp [named]

theorem ofTag_eq_root (tag : List String) :
    (ThreadMarker.ofTag tag == .root) = isMarked "root" tag := by
  unfold ThreadMarker.ofTag isMarked
  split <;> simp_all

theorem ofTag_eq_reply (tag : List String) :
    (ThreadMarker.ofTag tag == .reply) = isMarked "reply" tag := by
  unfold ThreadMarker.ofTag isMarked
  split <;> simp_all

theorem ofTag_eq_unmarked (tag : List String) :
    (ThreadMarker.ofTag tag == .unmarked) = isUnmarked tag := by
  unfold ThreadMarker.ofTag isUnmarked
  split <;> simp_all

theorem ofTag_isLoose (tag : List String) :
    isLooseMarker (ThreadMarker.ofTag tag) = isLoose tag := by
  unfold ThreadMarker.ofTag isLoose isLooseMarker isMarked
  split <;> simp_all

/-! ## Root and parent -/

theorem rootId?_eq (event : Event) :
    event.rootId? =
      ((event.targetsWhere (isMarked "root")).head?
        <|> (event.targetsWhere isUnmarked).head?) := by
  rw [rootId?, searchRoot_eq, targetsOf_threadReferences, targetsOf_threadReferences]
  simp only [ofTag_eq_root, ofTag_eq_unmarked]
  rfl

theorem parentId?_eq (event : Event) :
    event.parentId? =
      ((event.targetsWhere (isMarked "reply")).head?
        <|> (event.targetsWhere (isMarked "root")).getLast?
        <|> (event.targetsWhere isLoose).getLast?) := by
  rw [parentId?, searchParent_eq, targetsOf_threadReferences, targetsOf_threadReferences,
    targetsOf_threadReferences]
  simp only [ofTag_eq_reply, ofTag_eq_root, ofTag_isLoose, Option.orElse_eq_orElse,
    Option.orElse_eq_or, Option.or_none]

/-- The parent by known markers: the first reply, else the last root, else the last unmarked one. -/
def priorityParent? (event : Event) : Option String :=
  (event.targetsWhere (isMarked "reply")).head?
    <|> (event.targetsWhere (isMarked "root")).getLast?
    <|> (event.targetsWhere isUnmarked).getLast?

/-- Of the tags that carry a target, the first root is the root of the thread, else the first
unmarked one.  The first reply is the parent, else the last root, else the last one that is neither
of these nor a mention.  So the parent is the one by known markers exactly if some tag is marked as
reply or root, or unknown markers do not change which target is last. -/
theorem parentId?_eq_priorityParent?_iff (event : Event) :
    event.rootId? =
      ((event.targetsWhere (isMarked "root")).head?
        <|> (event.targetsWhere isUnmarked).head?) ∧
    event.parentId? =
      ((event.targetsWhere (isMarked "reply")).head?
        <|> (event.targetsWhere (isMarked "root")).getLast?
        <|> (event.targetsWhere isLoose).getLast?) ∧
    (event.parentId? = event.priorityParent? ↔
      event.targetsWhere (isMarked "reply") ≠ [] ∨ event.targetsWhere (isMarked "root") ≠ [] ∨
        (event.targetsWhere isLoose).getLast? = (event.targetsWhere isUnmarked).getLast?) := by
  refine ⟨event.rootId?_eq, event.parentId?_eq, ?_⟩
  rw [parentId?_eq, priorityParent?]
  cases event.targetsWhere (isMarked "reply") with
  | cons reply laterReplies => simp
  | nil =>
      cases event.targetsWhere (isMarked "root") with
      | cons root laterRoots => simp [List.getLast?_cons]
      | nil => simp

/-- A quotation behind the event that is answered: its marker is unknown, and it is the parent. -/
theorem not_parentId?_eq_priorityParent? :
    let event : Event :=
      { id := "c", pubkey := "p", kind := 1, createdAt := 5,
        tags := [["e", "first"], ["e", "quoted", "", "quote"]] }
    event.parentId? = some "quoted" ∧ event.priorityParent? = some "first" ∧
      event.rootId? = some "first" := by
  decide

end NostrCapsule.Event
