import Mathlib.Data.Prod.Lex
import Mathlib.Data.String.Basic
import NostrCapsule.Proofs.Thread.Placement

/-!
Contract: in which order events stand side by side in a thread.

What answers an event is sorted before it is moved, and moving only leaves events out; so the
children of every node but the root are oldest first.  Below the root come the replies without a
parent, sorted too, and after them the heads of the stranded replies in the order of the list, which
nothing sorts.

Owns:
- `Event.moment` and `OldestFirst`;
- `DrawnFrom`, which says where siblings come from;
- the children of the root, and `oldestFirst_assemble_iff`.

Does not own: which replies are stranded.
-/

namespace NostrCapsule

/-- When an event was made; among events of one time the identifier decides. -/
def Event.moment (event : Event) : Int ×ₗ String :=
  toLex (event.createdAt, event.id)

def OldestFirst (siblings : List Event) : Prop :=
  siblings.Pairwise fun left right => left.moment ≤ right.moment

instance (siblings : List Event) : Decidable (OldestFirst siblings) :=
  inferInstanceAs (Decidable (siblings.Pairwise fun left right => left.moment ≤ right.moment))

theorem Event.olderFirst_iff {left right : Event} :
    left.olderFirst right = true ↔ left.moment ≤ right.moment := by
  rw [moment, moment, Prod.Lex.toLex_le_toLex]
  simp [olderFirst]

namespace Thread

variable {replies : List Event}

/-! ## Sorted answers -/

theorem oldestFirst_childrenOf (placed : List Placement) (parent : Option String) :
    OldestFirst (childrenOf placed parent) := by
  have sorted : (childrenOf placed parent).Pairwise fun left right =>
      left.olderFirst right = true := by
    refine List.pairwise_mergeSort ?_ ?_ _
    · intro left middle right first second
      rw [Event.olderFirst_iff] at first second ⊢
      exact first.trans second
    · intro left right
      rw [Bool.or_eq_true, Event.olderFirst_iff, Event.olderFirst_iff]
      exact le_total _ _
  exact sorted.imp Event.olderFirst_iff.mp

theorem childrenOf_placements_perm (replies : List Event) (parent : Option String) :
    (childrenOf (placements replies) parent).Perm
      (replies.filter fun event => parentAmong (replies.map Event.id) event == parent) := by
  refine (List.mergeSort_perm _ _).trans (List.Perm.of_eq ?_)
  rw [placements, List.filter_map, List.map_map]
  exact List.map_id _

/-! ## Where siblings come from -/

/-- The top of a forest comes from the candidates, and the children of a node from what answers it,
both without a change of order. -/
structure DrawnFrom (answersTo : String → List Event) (candidates : List Event)
    (forest : Forest) : Prop where
  tops : forest.tops.Sublist candidates
  children : ∀ node ∈ forest.nodes, node.children.Sublist (answersTo node.root.id)

theorem drawnFrom_takeForest (answersTo : String → List Event) (pending candidates : List Event) :
    DrawnFrom answersTo candidates (takeForest answersTo pending candidates).forest := by
  refine takeForest_induction (motive := fun _ candidates forest _ =>
    DrawnFrom answersTo candidates forest) ?none ?absent ?moved pending candidates
  case none =>
    intro pending
    exact ⟨List.Sublist.refl _, by simp [Forest.nodes]⟩
  case absent =>
    intro pending event later forest rest _ drawn
    exact ⟨drawn.tops.cons event, drawn.children⟩
  case moved =>
    intro pending event later answers unanswered siblings rest _ below beside
    refine ⟨?_, ?_⟩
    · rw [Forest.tops_branch]
      exact beside.tops.cons_cons event
    · rw [Forest.nodes, List.forall_mem_cons, List.forall_mem_append]
      exact ⟨below.tops, below.children, beside.children⟩

theorem oldestFirst_of_mem_nodes {pending candidates : List Event} {node : Thread}
    (member : node ∈ (takeForest (answersAmong replies) pending candidates).forest.nodes) :
    OldestFirst node.children :=
  (oldestFirst_childrenOf _ _).sublist ((drawnFrom_takeForest _ _ _).children node member)

/-! ## Below the root -/

/-- What is moved stands at the top, or answers an event that is moved too. -/
theorem mem_tops_or_hasParent {pending candidates : List Event} (known : pending ⊆ replies)
    {event : Event}
    (moved : event ∈ (takeForest (answersAmong replies) pending candidates).forest.preorder) :
    event ∈ (takeForest (answersAmong replies) pending candidates).forest.tops ∨
      ∃ parent, HasParent replies event parent := by
  rcases Forest.mem_preorder_iff.mp moved with top | ⟨node, member, child⟩
  · exact Or.inl top
  · have answered := ((drawnFrom_takeForest _ _ _).children node member).subset child
    have nodeMoved := Forest.root_mem_preorder member
    have nodeMember := known ((mem_pending_iff _ _).mpr (Or.inl nodeMoved))
    exact Or.inr ⟨node.root, (answers_iff_hasParent nodeMember).mp answered⟩

/-- The first pass puts all that it begins with below the root, the replies without a parent. -/
theorem tops_reached (once : replies.Nodup) :
    (reached replies).forest.tops = childrenOf (placements replies) none := by
  have drawn : DrawnFrom (answersAmong replies) (childrenOf (placements replies) none)
      (reached replies).forest := drawnFrom_takeForest _ _ _
  have exhausted : Exhausted (answersAmong replies) replies (childrenOf (placements replies) none)
      (reached replies).forest (reached replies).rest := exhausted_takeForest _ _
  have complete : childrenOf (placements replies) none ⊆ (reached replies).forest.tops := by
    intro event candidate
    obtain ⟨member, orphan⟩ := mem_childrenOf_none_iff.mp candidate
    have moved := (mem_passes_iff.mp member).resolve_right
      (exhausted.candidate_gone once event candidate)
    refine (mem_tops_or_hasParent (List.Subset.refl _) moved).resolve_right ?_
    rintro ⟨parent, named⟩
    exact orphan parent named
  have distinct : (childrenOf (placements replies) none).Nodup :=
    (childrenOf_placements_perm replies none).nodup_iff.mpr (once.filter _)
  exact drawn.tops.eq_of_length_le (List.subperm_of_subset distinct complete).length_le

/-- A stranded reply with no ancestor before it in the list. -/
structure IsHead (replies : List Event) (event : Event) : Prop where
  member : event ∈ replies
  stranded : ∃ ancestor, HasAncestor replies event ancestor ∧ OnCycle replies ancestor
  first : ¬∃ ancestor, HasAncestor replies event ancestor ∧ ListedBefore replies ancestor event

/-- The second pass puts below the root the stranded replies that come before their ancestors. -/
theorem mem_tops_stranded_iff {root event : Event} (distinct : (replies.map Event.id).Nodup)
    (fresh : root ∉ replies) :
    event ∈ (stranded replies).forest.tops ↔ IsHead replies event := by
  have passed := preorder_passes_perm distinct.of_map
  have known : (stranded replies).forest.preorder ⊆ replies := fun _ moved =>
    passed.subset (List.mem_append_right _ moved)
  have once : (stranded replies).forest.preorder.Nodup :=
    ((passed.nodup_iff.mpr distinct.of_map).sublist (List.sublist_append_right _ _))
  have topLink : event ∈ (stranded replies).forest.tops ↔
      (root, event) ∈ (stranded replies).forest.links root :=
    Forest.mem_tops_iff fun moved => fresh (known moved)
  by_cases left : event ∈ (reached replies).rest
  · obtain ⟨before, after, split⟩ := List.append_of_mem left
    have member := rest_reached_sublist.subset left
    have earlier := exists_candidate_iff_listedBefore distinct split
    rcases placement_of_stranded root distinct split with
      ⟨listed, parent, named, link⟩ | ⟨unlisted, link⟩
    · have below : event ∉ (stranded replies).forest.tops := by
        intro top
        have same := @parent_unique ⟨root, (stranded replies).forest⟩ once _ _ _ link
          (topLink.mp top)
        exact fresh (same ▸ named.2.1)
      exact iff_of_false below fun head => head.first (earlier.mp listed)
    · exact iff_of_true (topLink.mpr link)
        ⟨member, (mem_rest_reached_iff distinct member).mp left, fun listed =>
          unlisted (earlier.mpr listed)⟩
  · refine iff_of_false (fun top => ?_) fun head => ?_
    · exact left ((mem_pending_iff _ _).mpr (Or.inl (Forest.mem_preorder_iff.mpr (Or.inl top))))
    · exact left ((mem_rest_reached_iff distinct head.member).mpr head.stranded)

/-- In a thread the children of every event but the root are oldest first.  Those of the root are
the replies without a parent, oldest first, and then the stranded replies that come before their
ancestors, in the order of the list; so all siblings are oldest first exactly if these are, and none
of them is older than a reply without a parent. -/
theorem oldestFirst_assemble_iff (root : Event) (replies : List Event) :
    let thread := assemble root replies
    let placed := admitted root replies
    (∀ node ∈ thread.replies.nodes, OldestFirst node.children) ∧
    ∃ orphans heads, thread.children = orphans ++ heads ∧
      OldestFirst orphans ∧
      (∀ event, event ∈ orphans ↔ event ∈ placed ∧ ∀ parent, ¬HasParent placed event parent) ∧
      heads.Sublist placed ∧
      (∀ event, event ∈ heads ↔ IsHead placed event) ∧
      ((∀ node ∈ thread.nodes, OldestFirst node.children) ↔
        OldestFirst heads ∧ ∀ orphan ∈ orphans, ∀ head ∈ heads, orphan.moment ≤ head.moment) := by
  intro thread placed
  have distinct : (placed.map Event.id).Nodup := nodup_ids_admitted root replies
  have fresh : root ∉ placed := fun member => (mem_admitted_iff.mp member).1 rfl
  have made : thread.replies = (reached placed).forest ++ (stranded placed).forest :=
    congrArg Thread.replies (assemble_eq root replies)
  have inner : ∀ node ∈ thread.replies.nodes, OldestFirst node.children := by
    rw [made, Forest.nodes_append, List.forall_mem_append]
    exact ⟨fun _ member => oldestFirst_of_mem_nodes member,
      fun _ member => oldestFirst_of_mem_nodes member⟩
  have sorted : OldestFirst (childrenOf (placements placed) none) := oldestFirst_childrenOf _ _
  have drawn : DrawnFrom (answersAmong placed) (reached placed).rest (stranded placed).forest :=
    drawnFrom_takeForest _ _ _
  have children : thread.children =
      childrenOf (placements placed) none ++ (stranded placed).forest.tops := by
    rw [Thread.children, made, Forest.tops_append, tops_reached distinct.of_map]
  refine ⟨inner, _, _, children, sorted, fun _ => mem_childrenOf_none_iff,
    drawn.tops.trans rest_reached_sublist, fun _ => mem_tops_stranded_iff distinct fresh, ?_⟩
  rw [nodes_eq_cons, List.forall_mem_cons, and_iff_left inner, children, OldestFirst,
    List.pairwise_append]
  exact and_iff_right sorted

/-- A late note without a parent comes before two older notes that name each other. -/
theorem not_oldestFirst_assemble :
    ¬∀ (root : Event) (replies : List Event),
      ∀ node ∈ (assemble root replies).nodes, OldestFirst node.children := by
  intro claimed
  let late : Event := { noteBelow none "late" with createdAt := 9 }
  let first : Event := { noteBelow (some "q") "p" with createdAt := 1 }
  let second : Event := { noteBelow (some "p") "q" with createdAt := 2 }
  have ordered := claimed (noteBelow none "r") [late, first, second]
  rw [nodes_eq_cons, List.forall_mem_cons] at ordered
  have children : (assemble (noteBelow none "r") [late, first, second]).children =
      [late, first] := by
    decide_cbv
  have topOrdered := ordered.1
  rw [children] at topOrdered
  exact absurd topOrdered (by decide)

end Thread

end NostrCapsule
