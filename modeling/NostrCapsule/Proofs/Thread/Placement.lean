import Mathlib.Data.List.Permutation
import NostrCapsule.Proofs.Thread.Parentage

/-!
Contract: below which event a reply stands, for replies with distinct identifiers.

A reply with no cycle above it is reached from the root, and stands below the parent that it names.
The other replies are stranded, those on a cycle and those that only descend from one alike.  The
second pass takes the stranded replies in the order of the list.  What it takes moves together with
its descendants, so a stranded reply stays below its parent exactly if an ancestor is listed before
it; otherwise it is put below the root.

Owns:
- which replies are stranded (`mem_rest_reached_iff`);
- `PlacedAsNamed`, and when it holds (`placedAsNamed_iff`).

Does not own: the order of siblings.
-/

namespace NostrCapsule.Thread

variable {root event : Event} {replies : List Event}

/-! ## The first pass -/

theorem mem_passes_iff :
    event ∈ replies ↔
      event ∈ (reached replies).forest.preorder ∨ event ∈ (reached replies).rest :=
  mem_pending_iff _ _

theorem rest_reached_sublist : (reached replies).rest.Sublist replies :=
  (exhausted_takeForest _ _).sublist

/-- A stranded reply has a parent, and its parent is stranded. -/
theorem exists_parent_stranded (once : replies.Nodup) (left : event ∈ (reached replies).rest) :
    ∃ parent ∈ (reached replies).rest, HasParent replies event parent := by
  have first : Exhausted (answersAmong replies) replies (childrenOf (placements replies) none)
      (reached replies).forest (reached replies).rest := exhausted_takeForest _ _
  by_contra missing
  refine first.candidate_gone once event ?_ left
  refine mem_childrenOf_none_iff.mpr ⟨rest_reached_sublist.subset left, fun parent named => ?_⟩
  rcases mem_passes_iff.mp named.2.1 with moved | kept
  · exact first.answer_gone once parent moved event
      ((answers_iff_hasParent named.2.1).mpr named) left
  · exact missing ⟨parent, kept, named⟩

theorem ancestor_stranded (distinct : (replies.map Event.id).Nodup)
    (left : event ∈ (reached replies).rest) {ancestor : Event}
    (above : HasAncestor replies event ancestor) : ancestor ∈ (reached replies).rest := by
  have unique := hasParent_rightUnique distinct
  have parentLeft : ∀ {event parent}, event ∈ (reached replies).rest →
      HasParent replies event parent → parent ∈ (reached replies).rest := by
    intro event parent left named
    obtain ⟨other, otherLeft, otherNamed⟩ := exists_parent_stranded distinct.of_map left
    rwa [unique named otherNamed]
  induction above with
  | single named => exact parentLeft left named
  | tail _ named inductionHypothesis => exact parentLeft inductionHypothesis named

theorem not_onCycle_of_reached (distinct : (replies.map Event.id).Nodup)
    (moved : event ∈ (reached replies).forest.preorder) {ancestor : Event}
    (above : HasAncestor replies event ancestor) : ¬OnCycle replies ancestor := by
  obtain ⟨candidate, top, path⟩ := descends_of_mem_preorder _ _ event moved
  obtain ⟨candidateMember, orphan⟩ := mem_childrenOf_none_iff.mp top
  have chain := (reflTransGen_hasParent candidateMember path).2
  exact not_cycle_of_chain_end (hasParent_rightUnique distinct) orphan chain above.to_reflTransGen

theorem exists_cycle_of_stranded (once : replies.Nodup)
    (left : event ∈ (reached replies).rest) :
    ∃ ancestor, HasAncestor replies event ancestor ∧ OnCycle replies ancestor := by
  refine exists_cycle_ahead (reached replies).rest.toFinset ?_ event (List.mem_toFinset.mpr left)
  intro member kept
  obtain ⟨parent, parentLeft, named⟩ :=
    exists_parent_stranded once (List.mem_toFinset.mp kept)
  exact ⟨parent, List.mem_toFinset.mpr parentLeft, named⟩

/-- The stranded replies are those with a cycle above them. -/
theorem mem_rest_reached_iff (distinct : (replies.map Event.id).Nodup) (member : event ∈ replies) :
    event ∈ (reached replies).rest ↔
      ∃ ancestor, HasAncestor replies event ancestor ∧ OnCycle replies ancestor := by
  constructor
  · exact exists_cycle_of_stranded distinct.of_map
  · intro cyclic
    rcases cyclic with ⟨ancestor, above, cycle⟩
    rcases mem_passes_iff.mp member with moved | left
    · exact absurd cycle (not_onCycle_of_reached distinct moved above)
    · exact left

/-! ## Links of a pass -/

/-- What is moved stands at the top as a candidate, or below the parent that it names. -/
theorem link_of_mem_preorder {pending candidates : List Event} (known : pending ⊆ replies)
    (moved : event ∈ (takeForest (answersAmong replies) pending candidates).forest.preorder) :
    (event ∈ candidates ∧
        (root, event) ∈
          (takeForest (answersAmong replies) pending candidates).forest.links root) ∨
      ∃ parent, HasParent replies event parent ∧
        (parent, event) ∈
          (takeForest (answersAmong replies) pending candidates).forest.links root := by
  have linked := moved
  rw [← Forest.map_snd_links root, List.mem_map] at linked
  rcases linked with ⟨⟨above, _⟩, link, rfl⟩
  rcases origin_of_mem_links _ _ root _ link with ⟨rfl, candidate⟩ | ⟨aboveMoved, answered⟩
  · exact Or.inl ⟨candidate, link⟩
  · have aboveMember := known ((mem_pending_iff _ _).mpr (Or.inl aboveMoved))
    exact Or.inr ⟨above, (answers_iff_hasParent aboveMember).mp answered, link⟩

/-! ## The second pass -/

section Second

variable {before after : List Event}

/-- The second pass over the candidates in `before` alone. -/
def earlierStranded (replies before : List Event) : Harvest (reached replies).rest :=
  takeForest (answersAmong replies) (reached replies).rest before

theorem stranded_forest_eq (split : (reached replies).rest = before ++ event :: after) :
    (stranded replies).forest =
      (earlierStranded replies before).forest ++
        (takeForest (answersAmong replies) (earlierStranded replies before).rest
          (event :: after)).forest := by
  have parts := (@takeForest_append (answersAmong replies) (reached replies).rest before
    (event :: after)).1
  rw [← split] at parts
  exact parts

/-- A candidate that is still pending when its turn comes is put below the root. -/
theorem root_link_of_pending (split : (reached replies).rest = before ++ event :: after)
    (pending : event ∈ (earlierStranded replies before).rest) :
    (root, event) ∈ (stranded replies).forest.links root := by
  rw [stranded_forest_eq split, Forest.links_append, (takeForest_pending pending).1, Forest.links]
  exact List.mem_append_right _ List.mem_cons_self

theorem mem_earlierStranded_iff :
    event ∈ (reached replies).rest ↔
      event ∈ (earlierStranded replies before).forest.preorder ∨
        event ∈ (earlierStranded replies before).rest :=
  mem_pending_iff _ _

/-- What descends from an earlier candidate is moved with it. -/
theorem not_pending_of_ancestor (distinct : (replies.map Event.id).Nodup)
    (left : event ∈ (reached replies).rest) {ancestor : Event} (listed : ancestor ∈ before)
    (above : HasAncestor replies event ancestor) :
    event ∉ (earlierStranded replies before).rest := by
  have once : (reached replies).rest.Nodup := distinct.of_map.sublist rest_reached_sublist
  have earlier : Exhausted (answersAmong replies) (reached replies).rest before
      (earlierStranded replies before).forest (earlierStranded replies before).rest :=
    exhausted_takeForest _ _
  have step : ∀ {answer parent}, HasParent replies answer parent →
      parent ∈ (reached replies).rest → parent ∉ (earlierStranded replies before).rest →
      answer ∉ (earlierStranded replies before).rest := by
    intro answer parent named parentLeft gone
    have moved := (mem_earlierStranded_iff.mp parentLeft).resolve_right gone
    exact earlier.answer_gone once parent moved answer
      ((answers_iff_hasParent named.2.1).mpr named)
  -- Along the chain, from the ancestor down: who is moved takes its answers along.
  induction above using Relation.TransGen.head_induction_on with
  | single named =>
      have ancestorLeft := ancestor_stranded distinct left (.single named)
      exact step named ancestorLeft (earlier.candidate_gone once ancestor listed)
  | head named _ inductionHypothesis =>
      have parentLeft := ancestor_stranded distinct left (.single named)
      exact step named parentLeft (inductionHypothesis parentLeft)

/-- What is moved before its turn descends from an earlier candidate, and stays below its parent. -/
theorem placement_of_moved (split : (reached replies).rest = before ++ event :: after)
    (unlisted : event ∉ before)
    (moved : event ∈ (earlierStranded replies before).forest.preorder) :
    (∃ ancestor ∈ before, HasAncestor replies event ancestor) ∧
      ∃ parent, HasParent replies event parent ∧
        (parent, event) ∈ (stranded replies).forest.links root := by
  constructor
  · obtain ⟨candidate, listed, path⟩ := descends_of_mem_preorder _ _ event moved
    have candidateLeft : candidate ∈ (reached replies).rest := by
      rw [split]
      exact List.mem_append_left _ listed
    have chain := (reflTransGen_hasParent (rest_reached_sublist.subset candidateLeft) path).2
    rcases Relation.reflTransGen_iff_eq_or_transGen.mp chain with rfl | above
    · exact absurd listed unlisted
    · exact ⟨candidate, listed, above⟩
  · rcases link_of_mem_preorder rest_reached_sublist.subset moved with
      ⟨listed, _⟩ | ⟨parent, named, link⟩
    · exact absurd listed unlisted
    · refine ⟨parent, named, ?_⟩
      rw [stranded_forest_eq split, Forest.links_append]
      exact List.mem_append_left _ link

/-- A stranded reply stays below its parent if an ancestor is a candidate before it, and is put
below the root otherwise. -/
theorem placement_of_stranded (root : Event) (distinct : (replies.map Event.id).Nodup)
    (split : (reached replies).rest = before ++ event :: after) :
    ((∃ ancestor ∈ before, HasAncestor replies event ancestor) ∧
      ∃ parent, HasParent replies event parent ∧
        (parent, event) ∈ (stranded replies).forest.links root) ∨
    ((¬∃ ancestor ∈ before, HasAncestor replies event ancestor) ∧
      (root, event) ∈ (stranded replies).forest.links root) := by
  have left : event ∈ (reached replies).rest := by
    rw [split]
    exact List.mem_append_right _ List.mem_cons_self
  have unlisted : event ∉ before := by
    have once : (reached replies).rest.Nodup := distinct.of_map.sublist rest_reached_sublist
    rw [split, List.nodup_append] at once
    exact fun listed => once.2.2 event listed event List.mem_cons_self rfl
  by_cases pending : event ∈ (earlierStranded replies before).rest
  · refine Or.inr ⟨?_, root_link_of_pending split pending⟩
    intro earlier
    rcases earlier with ⟨ancestor, listed, above⟩
    exact not_pending_of_ancestor distinct left listed above pending
  · have moved := (mem_earlierStranded_iff.mp left).resolve_right pending
    exact Or.inl (placement_of_moved split unlisted moved)

end Second

/-! ## The order of the list -/

/-- One event is listed before another. -/
def ListedBefore (replies : List Event) (earlier later : Event) : Prop :=
  [earlier, later].Sublist replies

instance (replies : List Event) (earlier later : Event) :
    Decidable (ListedBefore replies earlier later) :=
  inferInstanceAs (Decidable ([earlier, later].Sublist replies))

theorem listedBefore_asymm (once : replies.Nodup) {earlier later : Event}
    (listed : ListedBefore replies earlier later) : ¬ListedBefore replies later earlier := by
  intro swapped
  obtain ⟨front, back, rfl, inFront, inBack⟩ := List.cons_sublist_iff.mp listed
  rw [List.singleton_sublist] at inBack
  have disjoint := List.disjoint_of_nodup_append once
  -- The later one stands in the back only, so all of the swapped pair would have to.
  rcases List.sublist_append_iff.mp swapped with ⟨first, second, pair, inFirst, inSecond⟩
  cases first with
  | nil =>
      have earlierBack : earlier ∈ back := by
        rw [List.nil_append] at pair
        exact inSecond.subset (by rw [← pair]; simp)
      exact disjoint inFront earlierBack
  | cons head others =>
      obtain ⟨rfl, -⟩ := List.cons_eq_cons.mp pair
      exact disjoint (inFirst.subset List.mem_cons_self) inBack

theorem mem_before_iff_listedBefore (once : replies.Nodup) {before after : List Event}
    (within : (before ++ event :: after).Sublist replies) {ancestor : Event}
    (member : ancestor ∈ before ++ event :: after) :
    ancestor ∈ before ↔ ListedBefore replies ancestor event := by
  constructor
  · intro listed
    have pair : [ancestor, event].Sublist (before ++ event :: after) :=
      (List.singleton_sublist.mpr listed).append (List.singleton_sublist.mpr List.mem_cons_self)
    exact pair.trans within
  · intro listed
    rw [List.mem_append, List.mem_cons] at member
    rcases member with inBefore | rfl | inAfter
    · exact inBefore
    · exact absurd listed (listedBefore_asymm once listed)
    · have pair : [event, ancestor].Sublist (before ++ event :: after) :=
        ((List.singleton_sublist.mpr inAfter).cons_cons event).trans (List.sublist_append_right _ _)
      exact absurd (pair.trans within) (listedBefore_asymm once listed)

/-- For a stranded reply, the earlier candidates above it are its ancestors that are listed before
it. -/
theorem exists_candidate_iff_listedBefore (distinct : (replies.map Event.id).Nodup)
    {before after : List Event} (split : (reached replies).rest = before ++ event :: after) :
    (∃ ancestor ∈ before, HasAncestor replies event ancestor) ↔
      ∃ ancestor, HasAncestor replies event ancestor ∧ ListedBefore replies ancestor event := by
  have within : (before ++ event :: after).Sublist replies := split ▸ rest_reached_sublist
  have left : event ∈ (reached replies).rest := by
    rw [split]
    exact List.mem_append_right _ List.mem_cons_self
  have once : replies.Nodup := distinct.of_map
  constructor
  · intro earlier
    rcases earlier with ⟨ancestor, listed, above⟩
    have ancestorLeft := List.mem_append_left (event :: after) listed
    exact ⟨ancestor, above, (mem_before_iff_listedBefore once within ancestorLeft).mp listed⟩
  · intro earlier
    rcases earlier with ⟨ancestor, above, listed⟩
    have ancestorLeft := ancestor_stranded distinct left above
    rw [split] at ancestorLeft
    exact ⟨ancestor, (mem_before_iff_listedBefore once within ancestorLeft).mpr listed, above⟩

/-! ## Placement -/

/-- A reply stands directly below the parent that it names, or below the root if it has none. -/
def PlacedAsNamed (root : Event) (replies : List Event) (event : Event) : Prop :=
  (∀ parent, HasParent replies event parent → (parent, event) ∈ (assemble root replies).links) ∧
    ((∀ parent, ¬HasParent replies event parent) → (root, event) ∈ (assemble root replies).links)

theorem mem_links_assemble_iff (distinct : (replies.map Event.id).Nodup)
    (fresh : root.id ∉ replies.map Event.id) {link : Event × Event} :
    link ∈ (assemble root replies).links ↔
      link ∈ (reached replies).forest.links root ∨ link ∈ (stranded replies).forest.links root := by
  rw [assemble_eq, admitted_eq_self distinct fresh, links, Forest.links_append, List.mem_append]

theorem placedAsNamed_of_parent (distinct : (replies.map Event.id).Nodup) {parent : Event}
    (named : HasParent replies event parent)
    (link : (parent, event) ∈ (assemble root replies).links) :
    PlacedAsNamed root replies event := by
  constructor
  · intro other otherNamed
    rwa [hasParent_rightUnique distinct otherNamed named]
  · intro orphan
    exact absurd named (orphan parent)

theorem placedAsNamed_of_reached (distinct : (replies.map Event.id).Nodup)
    (fresh : root.id ∉ replies.map Event.id)
    (moved : event ∈ (reached replies).forest.preorder) :
    PlacedAsNamed root replies event := by
  rcases link_of_mem_preorder (List.Subset.refl _) moved with ⟨top, link⟩ | ⟨parent, named, link⟩
  · have orphan := (mem_childrenOf_none_iff.mp top).2
    have linked := (mem_links_assemble_iff distinct fresh).mpr (Or.inl link)
    exact ⟨fun parent named => absurd named (orphan parent), fun _ => linked⟩
  · have linked := (mem_links_assemble_iff distinct fresh).mpr (Or.inl link)
    exact placedAsNamed_of_parent distinct named linked

/-- A reply with a parent is not placed as named below the root. -/
theorem not_placedAsNamed_of_root_link (fresh : root.id ∉ replies.map Event.id) {parent : Event}
    (named : HasParent replies event parent)
    (link : (root, event) ∈ (assemble root replies).links) :
    ¬PlacedAsNamed root replies event := by
  intro placed
  have once : (assemble root replies).replies.preorder.Nodup :=
    (preorder_replies_assemble_perm root replies).nodup_iff.mpr (nodup_ids_admitted _ _).of_map
  have same := parent_unique once link (placed.1 parent named)
  exact fresh (same ▸ List.mem_map_of_mem named.2.1)

/-- With distinct identifiers, a reply is placed as named exactly if no cycle lies above it or one
of its ancestors is listed before it; all other replies are put below the root. -/
theorem placedAsNamed_iff (distinct : (replies.map Event.id).Nodup)
    (fresh : root.id ∉ replies.map Event.id) (member : event ∈ replies) :
    (PlacedAsNamed root replies event ↔
      (∀ ancestor, HasAncestor replies event ancestor → ¬OnCycle replies ancestor) ∨
        ∃ ancestor, HasAncestor replies event ancestor ∧ ListedBefore replies ancestor event) ∧
    (¬PlacedAsNamed root replies event → (root, event) ∈ (assemble root replies).links) := by
  rcases mem_passes_iff.mp member with moved | left
  · have placed := placedAsNamed_of_reached distinct fresh moved
    have acyclic := fun ancestor => @not_onCycle_of_reached event replies distinct moved ancestor
    exact ⟨iff_of_true placed (Or.inl acyclic), fun displaced => absurd placed displaced⟩
  · obtain ⟨cyclic, cycleAbove, cycle⟩ := (mem_rest_reached_iff distinct member).mp left
    obtain ⟨before, after, split⟩ := List.append_of_mem left
    rw [or_iff_right fun acyclic => acyclic cyclic cycleAbove cycle,
      ← exists_candidate_iff_listedBefore distinct split]
    rcases placement_of_stranded root distinct split with
      ⟨listed, parent, named, link⟩ | ⟨unlisted, link⟩
    · have linked := (mem_links_assemble_iff distinct fresh).mpr (Or.inr link)
      have placed := placedAsNamed_of_parent distinct named linked
      exact ⟨iff_of_true placed listed, fun displaced => absurd placed displaced⟩
    · have linked := (mem_links_assemble_iff distinct fresh).mpr (Or.inr link)
      obtain ⟨parent, _, named⟩ := exists_parent_stranded distinct.of_map left
      have displaced := not_placedAsNamed_of_root_link fresh named linked
      exact ⟨iff_of_false displaced unlisted, fun _ => linked⟩

/-! ## A straggler of two replies that name each other -/

def noteBelow (parent : Option String) (id : String) : Event where
  id
  pubkey := ""
  kind := KnownKind.textNote.code
  createdAt := 0
  tags := parent.toList.map fun target => ["e", target, "", "reply"]

def straggler : Event := noteBelow (some "p") "d"

def mutualNotes : List Event := [noteBelow (some "q") "p", noteBelow (some "p") "q"]

theorem straggler_hasParent {replies : List Event} (member : straggler ∈ replies)
    (parentMember : noteBelow (some "q") "p" ∈ replies) :
    HasParent replies straggler (noteBelow (some "q") "p") :=
  ⟨member, parentMember, by decide, by decide⟩

/-- Listed after its parent, the straggler stays below it. -/
theorem placedAsNamed_straggler_last :
    ((mutualNotes ++ [straggler]).map Event.id).Nodup ∧
      "r" ∉ (mutualNotes ++ [straggler]).map Event.id ∧
      straggler ∈ mutualNotes ++ [straggler] ∧
      PlacedAsNamed (noteBelow none "r") (mutualNotes ++ [straggler]) straggler := by
  refine ⟨by decide, by decide, by decide, ?_⟩
  have named : HasParent (mutualNotes ++ [straggler]) straggler (noteBelow (some "q") "p") :=
    straggler_hasParent (by decide) (by decide)
  have placement := @placedAsNamed_iff (noteBelow none "r") straggler (mutualNotes ++ [straggler])
    (by decide) (by decide) (by decide)
  exact placement.1.mpr (Or.inr ⟨_, .single named, by decide⟩)

/-- Listed before its ancestors, the straggler is moved below the root, on no cycle itself. -/
theorem not_placedAsNamed_straggler_first :
    ¬∀ (root : Event) (replies : List Event), (replies.map Event.id).Nodup →
      root.id ∉ replies.map Event.id → ∀ event ∈ replies, ¬OnCycle replies event →
        PlacedAsNamed root replies event := by
  intro claimed
  have offCycle : ¬OnCycle (straggler :: mutualNotes) straggler := by
    intro cycle
    obtain ⟨child, _, named⟩ := Relation.TransGen.tail'_iff.mp cycle
    have childless : ∀ event ∈ straggler :: mutualNotes, event.parentId? ≠ some straggler.id := by
      decide
    exact childless child named.1 named.2.2.2
  have placed := claimed (noteBelow none "r") (straggler :: mutualNotes) (by decide) (by decide)
    straggler (by decide) offCycle
  have link := placed.1 _ (straggler_hasParent (by decide) (by decide))
  exact absurd link (by decide_cbv)

end NostrCapsule.Thread
