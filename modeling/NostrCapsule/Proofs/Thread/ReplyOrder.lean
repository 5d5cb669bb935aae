import NostrCapsule.Proofs.Thread.SiblingOrder

/-!
Contract: without cycles of parents, a thread does not depend on the order of its replies.

The order of the list shows in one place alone, the second pass, which takes the stranded replies as
they come.  Everything else is sorted, or asks only which events are pending.  So if nothing is
stranded, the order is lost.

Owns:
- `takeForest_of_perm`, for pending events in another order;
- the candidates of both passes for replies in another order;
- `assemble_of_perm`.

Does not own: threads in which replies are stranded.
-/

namespace NostrCapsule.Thread

variable {replies reordered : List Event}

/-! ## Pending events in another order -/

/-- Moving asks of the pending events only whether one is among them. -/
theorem takeForest_of_perm {answersTo : String → List Event} {pending other : List Event}
    (candidates : List Event) (same : pending.Perm other) :
    (takeForest answersTo other candidates).forest =
        (takeForest answersTo pending candidates).forest ∧
      (takeForest answersTo other candidates).rest.Perm
        (takeForest answersTo pending candidates).rest := by
  refine takeForest_induction (motive := fun pending candidates forest rest =>
    ∀ other, pending.Perm other →
      (takeForest answersTo other candidates).forest = forest ∧
        (takeForest answersTo other candidates).rest.Perm rest)
    ?none ?absent ?moved pending candidates other same
  case none =>
    intro pending other same
    rw [takeForest]
    exact ⟨rfl, same.symm⟩
  case absent =>
    intro pending event later forest rest missing others other same
    rw [takeForest_absent fun present => missing (same.mem_iff.mpr present)]
    exact others other same
  case moved =>
    intro pending event later answers unanswered siblings rest member below beside other same
    obtain ⟨forestTaken, restTaken⟩ :=
      @takeForest_pending answersTo other event later (same.mem_iff.mp member)
    obtain ⟨sameAnswers, sameUnanswered⟩ := below (other.erase event) (same.erase event)
    obtain ⟨sameSiblings, sameRest⟩ := beside _ sameUnanswered.symm
    rw [forestTaken, restTaken, sameAnswers, sameSiblings]
    exact ⟨rfl, sameRest⟩

/-! ## Replies in another order -/

theorem parentAmong_of_perm (same : replies.Perm reordered) (event : Event) :
    parentAmong (reordered.map Event.id) event = parentAmong (replies.map Event.id) event := by
  simp only [parentAmong, (same.symm.map Event.id).contains_eq]

/-- Distinct identifiers leave one order of siblings. -/
theorem childrenOf_of_perm (distinct : (replies.map Event.id).Nodup)
    (same : replies.Perm reordered) (parent : Option String) :
    childrenOf (placements reordered) parent = childrenOf (placements replies) parent := by
  have permuted : (childrenOf (placements reordered) parent).Perm
      (childrenOf (placements replies) parent) := by
    refine (childrenOf_placements_perm reordered parent).trans
      (.trans ?_ (childrenOf_placements_perm replies parent).symm)
    simp only [parentAmong_of_perm same]
    exact same.symm.filter _
  refine permuted.eq_of_pairwise ?_ (oldestFirst_childrenOf _ _) (oldestFirst_childrenOf _ _)
  intro left right leftListed rightListed forward backward
  have leftMember := same.mem_iff.mpr (mem_childrenOf_placements_iff.mp leftListed).1
  have rightMember := (mem_childrenOf_placements_iff.mp rightListed).1
  have sameMoment : left.moment = right.moment := le_antisymm forward backward
  exact List.inj_on_of_nodup_map distinct leftMember rightMember (congrArg (·.2) sameMoment)

theorem answersAmong_of_perm (distinct : (replies.map Event.id).Nodup)
    (same : replies.Perm reordered) : answersAmong reordered = answersAmong replies :=
  funext fun id => childrenOf_of_perm distinct same (some id)

theorem reached_of_perm (distinct : (replies.map Event.id).Nodup) (same : replies.Perm reordered) :
    (reached reordered).forest = (reached replies).forest ∧
      (reached reordered).rest.Perm (reached replies).rest := by
  rw [reached, answersAmong_of_perm distinct same, childrenOf_of_perm distinct same]
  exact takeForest_of_perm _ same

theorem admitted_of_perm (root : Event) (distinct : (replies.map Event.id).Nodup)
    (same : replies.Perm reordered) : (admitted root replies).Perm (admitted root reordered) := by
  have distinctToo : (reordered.map Event.id).Nodup := (same.map Event.id).nodup_iff.mp distinct
  rw [admitted, admitted, distinctBy_eq_self distinct, distinctBy_eq_self distinctToo]
  exact same.filter _

/-! ## Without cycles -/

theorem OnCycle.of_subset {some all : List Event} (known : some ⊆ all) {event : Event}
    (cycle : OnCycle some event) : OnCycle all event := by
  have named : ∀ event parent, HasParent some event parent → HasParent all event parent :=
    fun _ _ named => ⟨known named.1, known named.2.1, named.2.2⟩
  exact Relation.TransGen.mono named _ _ cycle

/-- Replies that are younger than what they answer form no cycle. -/
theorem not_onCycle_of_younger
    (younger : ∀ event parent, HasParent replies event parent → parent.createdAt < event.createdAt)
    (event : Event) : ¬OnCycle replies event := by
  have above : ∀ {event ancestor}, HasAncestor replies event ancestor →
      ancestor.createdAt < event.createdAt := by
    intro event ancestor chain
    induction chain with
    | single named => exact younger _ _ named
    | tail _ named inductionHypothesis => exact (younger _ _ named).trans inductionHypothesis
  exact fun cycle => lt_irrefl _ (above cycle)

theorem rest_reached_of_acyclic (once : replies.Nodup) (acyclic : ∀ event, ¬OnCycle replies event) :
    (reached replies).rest = [] := by
  apply List.eq_nil_iff_forall_not_mem.mpr
  intro event left
  obtain ⟨ancestor, _, cycle⟩ := exists_cycle_of_stranded once left
  exact acyclic ancestor cycle

theorem stranded_of_rest_nil (none : (reached replies).rest = []) :
    (stranded replies).forest = .empty := by
  rw [stranded, none, takeForest]

/-- Replies with distinct identifiers and without a cycle of parents make the same thread in any
order. -/
theorem assemble_of_perm (root : Event) (distinct : (replies.map Event.id).Nodup)
    (acyclic : ∀ event, ¬OnCycle replies event) (same : replies.Perm reordered) :
    assemble root reordered = assemble root replies := by
  have placedDistinct := nodup_ids_admitted root replies
  have placedAcyclic : ∀ event, ¬OnCycle (admitted root replies) event := fun event cycle =>
    acyclic event (cycle.of_subset fun _ => mem_of_mem_admitted)
  obtain ⟨sameForest, sameRest⟩ :=
    reached_of_perm placedDistinct (admitted_of_perm root distinct same)
  have none := rest_reached_of_acyclic placedDistinct.of_map placedAcyclic
  rw [none, List.perm_nil] at sameRest
  rw [assemble_eq, assemble_eq, sameForest, stranded_of_rest_nil none,
    stranded_of_rest_nil sameRest]

/-- Two answers of one time to a note, a note that names itself, and one with the root's
identifier. -/
theorem assemble_of_perm_reversed :
    let root := noteBelow none "r"
    let replies :=
      [{ noteBelow (some "a") "c" with createdAt := 2 },
        { noteBelow (some "a") "b" with createdAt := 2 },
        noteBelow (some "s") "s", noteBelow none "a", noteBelow none "r"]
    (replies.map Event.id).Nodup ∧ (∀ event, ¬OnCycle replies event) ∧
      replies.Perm replies.reverse ∧ assemble root replies.reverse = assemble root replies := by
  intro root replies
  have distinct : (replies.map Event.id).Nodup := by
    decide
  have acyclic : ∀ event, ¬OnCycle replies event := by
    have each : ∀ event ∈ replies, ∀ parent ∈ replies, parent.id ≠ event.id →
        event.parentId? = some parent.id → parent.createdAt < event.createdAt := by
      decide
    exact not_onCycle_of_younger fun event parent named =>
      each event named.1 parent named.2.1 named.2.2.1 named.2.2.2
  have same := (List.reverse_perm replies).symm
  exact ⟨distinct, acyclic, same, assemble_of_perm root distinct acyclic same⟩

end NostrCapsule.Thread
