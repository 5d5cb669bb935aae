import Mathlib.Data.Finset.Card
import NostrCapsule.Proofs.Thread.TakeForest

/-!
Contract: a thread holds its root and every admitted reply, each exactly once.

The first pass may leave events pending, those that no path from the root reaches.  The second
pass takes what is left as its candidates, and candidates never stay pending; so nothing is left.

Owns:
- which replies are admitted, by identifier;
- `assemble_census`, with the size of a thread and the search in it.

Does not own: below which event a reply stands.
-/

namespace NostrCapsule.Thread

/-! ## Admission -/

/-- The first reply of each identifier is admitted, unless the identifier is the root's. -/
theorem mem_admitted_iff {root event : Event} {replies : List Event} :
    event ∈ admitted root replies ↔
      event.id ≠ root.id ∧
        ∃ before after, replies = before ++ event :: after ∧
          ∀ earlier ∈ before, earlier.id ≠ event.id := by
  rw [admitted, List.mem_filter, mem_distinctBy_iff, decide_eq_true_eq]
  exact and_comm

theorem mem_of_mem_admitted {root event : Event} {replies : List Event}
    (member : event ∈ admitted root replies) : event ∈ replies :=
  mem_of_mem_distinctBy (List.mem_filter.mp member).1

theorem nodup_ids_admitted (root : Event) (replies : List Event) :
    ((admitted root replies).map Event.id).Nodup :=
  (nodup_distinctBy Event.id replies).sublist (List.filter_sublist.map Event.id)

theorem mem_ids_admitted_iff {root : Event} {replies : List Event} {id : String} :
    id ∈ (admitted root replies).map Event.id ↔ id ≠ root.id ∧ id ∈ replies.map Event.id := by
  rw [← mem_map_distinctBy_iff Event.id replies]
  simp only [admitted, List.mem_map, List.mem_filter, decide_eq_true_eq]
  constructor
  · intro found
    rcases found with ⟨event, ⟨member, other⟩, rfl⟩
    exact ⟨other, event, member, rfl⟩
  · intro found
    rcases found with ⟨other, event, member, rfl⟩
    exact ⟨event, ⟨member, other⟩, rfl⟩

theorem admitted_eq_self {root : Event} {replies : List Event}
    (distinct : (replies.map Event.id).Nodup) (fresh : root.id ∉ replies.map Event.id) :
    admitted root replies = replies := by
  rw [admitted, distinctBy_eq_self distinct, List.filter_eq_self]
  intro event member
  exact decide_eq_true fun equal => fresh (equal ▸ List.mem_map_of_mem member)

/-! ## The two passes -/

/-- The replies that answer the reply with an identifier. -/
def answersAmong (replies : List Event) (id : String) : List Event :=
  childrenOf (placements replies) (some id)

/-- What reaches the root through the events that it answers, and what is left. -/
def reached (replies : List Event) : Harvest replies :=
  takeForest (answersAmong replies) replies (childrenOf (placements replies) none)

def stranded (replies : List Event) : Harvest (reached replies).rest :=
  takeForest (answersAmong replies) (reached replies).rest (reached replies).rest

theorem assemble_eq (root : Event) (replies : List Event) :
    assemble root replies =
      ⟨root, (reached (admitted root replies)).forest
        ++ (stranded (admitted root replies)).forest⟩ := rfl

theorem rest_stranded {replies : List Event} (once : replies.Nodup) :
    (stranded replies).rest = [] := by
  have firstLeft : (reached replies).rest.Sublist replies := (exhausted_takeForest _ _).sublist
  have second : Exhausted (answersAmong replies) (reached replies).rest (reached replies).rest
      (stranded replies).forest (stranded replies).rest := exhausted_takeForest _ _
  apply List.eq_nil_iff_forall_not_mem.mpr
  intro event left
  exact second.candidate_gone (once.sublist firstLeft) event (second.sublist.subset left) left

theorem preorder_passes_perm {replies : List Event} (once : replies.Nodup) :
    ((reached replies).forest.preorder ++ (stranded replies).forest.preorder).Perm replies := by
  have first : ((reached replies).forest.preorder ++ (reached replies).rest).Perm replies :=
    preorder_append_rest_perm _ _
  have second : ((stranded replies).forest.preorder ++ (stranded replies).rest).Perm
      (reached replies).rest := preorder_append_rest_perm _ _
  rw [rest_stranded once, List.append_nil] at second
  exact (second.append_left _).trans first

/-- The replies of a thread are the admitted ones. -/
theorem preorder_replies_assemble_perm (root : Event) (replies : List Event) :
    (assemble root replies).replies.preorder.Perm (admitted root replies) := by
  rw [assemble_eq, Forest.preorder_append]
  exact preorder_passes_perm (nodup_ids_admitted root replies).of_map

theorem map_id_preorder_assemble_perm (root : Event) (replies : List Event) :
    ((assemble root replies).preorder.map Event.id).Perm
      (root.id :: (admitted root replies).map Event.id) := by
  rw [preorder_eq_cons, List.map_cons]
  exact ((preorder_replies_assemble_perm root replies).map Event.id).cons root.id

theorem nodup_ids_assemble (root : Event) (replies : List Event) :
    ((assemble root replies).preorder.map Event.id).Nodup := by
  rw [(map_id_preorder_assemble_perm root replies).nodup_iff, List.nodup_cons]
  exact ⟨fun present => (mem_ids_admitted_iff.mp present).1 rfl, nodup_ids_admitted root replies⟩

theorem size_assemble (root : Event) (replies : List Event) :
    (assemble root replies).size =
      1 + ((replies.map Event.id).toFinset.erase root.id).card := by
  have sameIds : ((admitted root replies).map Event.id).toFinset =
      (replies.map Event.id).toFinset.erase root.id := by
    ext id
    rw [List.mem_toFinset, mem_ids_admitted_iff, Finset.mem_erase, List.mem_toFinset]
  have counted := (map_id_preorder_assemble_perm root replies).length_eq
  rw [List.length_map, List.length_cons] at counted
  rw [← sameIds, List.toFinset_card_of_nodup (nodup_ids_admitted root replies), size,
    Forest.size_eq_length_preorder, ← preorder, counted, Nat.add_comm]

/-- The thread of a root and any replies lists the root and then the first replies of each other
identifier, in some order; so identifiers are distinct, the size counts the distinct identifiers,
and the search finds one node for each of them. -/
theorem assemble_census (root : Event) (replies : List Event) :
    (∃ placed, (assemble root replies).preorder = root :: placed ∧
      placed.Perm (admitted root replies)) ∧
    (∀ event, event ∈ admitted root replies ↔
      event.id ≠ root.id ∧
        ∃ before after, replies = before ++ event :: after ∧
          ∀ earlier ∈ before, earlier.id ≠ event.id) ∧
    ((assemble root replies).preorder.map Event.id).Nodup ∧
    (assemble root replies).size =
      1 + ((replies.map Event.id).toFinset.erase root.id).card ∧
    (∀ id, ((assemble root replies).find? id).isSome ↔
      id = root.id ∨ id ∈ replies.map Event.id) ∧
    ∀ id node, (assemble root replies).find? id = some node ↔
      node ∈ (assemble root replies).nodes ∧ node.root.id = id := by
  refine ⟨⟨_, preorder_eq_cons _, preorder_replies_assemble_perm root replies⟩,
    fun _ => mem_admitted_iff, nodup_ids_assemble root replies, size_assemble root replies, ?_,
    fun _ _ => find?_eq_some_iff (nodup_ids_assemble root replies)⟩
  intro id
  rw [find?_isSome_iff, (map_id_preorder_assemble_perm root replies).mem_iff, List.mem_cons,
    mem_ids_admitted_iff]
  by_cases rootId : id = root.id
  · simp [rootId]
  · simp [rootId]

end NostrCapsule.Thread
