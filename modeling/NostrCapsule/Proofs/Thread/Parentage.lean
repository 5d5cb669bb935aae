import Mathlib.Data.Finset.Filter
import NostrCapsule.Proofs.Thread.Census

/-!
Contract: which reply answers which, as a relation on the replies of a thread.

The relation is read off the replies alone: the identifier that a reply names as its parent, if
that is the identifier of another reply.  With distinct identifiers a reply has one parent at most,
so what lies above a reply is a single chain, which may run into a cycle.

Owns:
- `HasParent`, `HasAncestor` and `OnCycle`;
- the candidates of both passes in terms of these relations.

Does not own: where a reply ends up in the thread.
-/

namespace NostrCapsule.Thread

/-! ## Chains that may run into a cycle -/

section Chains

variable {α : Type} {step : α → α → Prop}

/-- If every member of a finite set has a successor in the set, a cycle lies ahead of each. -/
theorem exists_cycle_ahead (members : Finset α)
    (succeeded : ∀ member ∈ members, ∃ next ∈ members, step member next) :
    ∀ member ∈ members, ∃ ahead, Relation.TransGen step member ahead ∧
      Relation.TransGen step ahead ahead := by
  classical
  induction members using Finset.strongInduction with
  | H members inductionHypothesis =>
      intro member present
      by_cases cyclic : Relation.TransGen step member member
      · exact ⟨member, cyclic, cyclic⟩
      · -- What lies ahead of the member is closed under successors, and lacks the member.
        let later := members.filter (Relation.TransGen step member)
        have fewer : later ⊂ members :=
          Finset.filter_ssubset.mpr ⟨member, present, cyclic⟩
        have closed : ∀ other ∈ later, ∃ next ∈ later, step other next := by
          intro other isLater
          obtain ⟨isMember, reached⟩ := Finset.mem_filter.mp isLater
          obtain ⟨next, nextMember, taken⟩ := succeeded other isMember
          exact ⟨next, Finset.mem_filter.mpr ⟨nextMember, reached.tail taken⟩, taken⟩
        obtain ⟨next, nextMember, taken⟩ := succeeded member present
        have nextLater : next ∈ later := Finset.mem_filter.mpr ⟨nextMember, .single taken⟩
        obtain ⟨ahead, path, cycle⟩ := inductionHypothesis later fewer closed next nextLater
        exact ⟨ahead, .head taken path, cycle⟩

theorem cycle_of_reflTransGen (unique : Relator.RightUnique step) {start finish : α}
    (cycle : Relation.TransGen step start start)
    (path : Relation.ReflTransGen step start finish) :
    Relation.TransGen step finish finish := by
  induction path with
  | refl => exact cycle
  | tail _ taken inductionHypothesis =>
      obtain ⟨next, first, back⟩ := Relation.TransGen.head'_iff.mp inductionHypothesis
      obtain rfl := unique taken first
      exact Relation.TransGen.tail' back taken

/-- Above the end of a chain there is no cycle, and so none above its start. -/
theorem not_cycle_of_chain_end (unique : Relator.RightUnique step) {start finish ahead : α}
    (ended : ∀ next, ¬step finish next) (chain : Relation.ReflTransGen step start finish)
    (path : Relation.ReflTransGen step start ahead) :
    ¬Relation.TransGen step ahead ahead := by
  intro cycle
  have finishCycle : Relation.TransGen step finish finish := by
    rcases Relation.ReflTransGen.total_of_right_unique unique path chain with onward | back
    · exact cycle_of_reflTransGen unique cycle onward
    · rcases back.cases_head with rfl | ⟨next, taken, _⟩
      · exact cycle
      · exact absurd taken (ended next)
  obtain ⟨next, taken, _⟩ := Relation.TransGen.head'_iff.mp finishCycle
  exact ended next taken

end Chains

/-! ## Parents among the replies -/

def HasParent (replies : List Event) (event parent : Event) : Prop :=
  event ∈ replies ∧ parent ∈ replies ∧ parent.id ≠ event.id ∧ event.parentId? = some parent.id

/-- The parent of a reply, the parent's parent, and so on. -/
def HasAncestor (replies : List Event) : Event → Event → Prop :=
  Relation.TransGen (HasParent replies)

def OnCycle (replies : List Event) (event : Event) : Prop :=
  HasAncestor replies event event

theorem hasParent_rightUnique {replies : List Event} (distinct : (replies.map Event.id).Nodup) :
    Relator.RightUnique (HasParent replies) := by
  intro event first second firstParent secondParent
  rcases firstParent with ⟨_, firstMember, _, firstNamed⟩
  rcases secondParent with ⟨_, secondMember, _, secondNamed⟩
  have sameId : first.id = second.id := Option.some.inj (firstNamed.symm.trans secondNamed)
  exact List.inj_on_of_nodup_map distinct firstMember secondMember sameId

/-! ## Candidates -/

theorem parentAmong_eq_some_iff {ids : List String} {event : Event} {id : String} :
    parentAmong ids event = some id ↔ event.parentId? = some id ∧ id ≠ event.id ∧ id ∈ ids := by
  rw [parentAmong, Option.filter_eq_some_iff, Bool.and_eq_true, bne_iff_ne, List.contains_iff_mem]

theorem mem_childrenOf_placements_iff {replies : List Event} {event : Event}
    {parent : Option String} :
    event ∈ childrenOf (placements replies) parent ↔
      event ∈ replies ∧ parentAmong (replies.map Event.id) event = parent := by
  rw [childrenOf, List.mem_mergeSort]
  simp only [placements, List.mem_map, List.mem_filter, beq_iff_eq]
  constructor
  · intro listed
    rcases listed with ⟨_, ⟨⟨other, member, rfl⟩, same⟩, rfl⟩
    exact ⟨member, same⟩
  · intro placed
    exact ⟨_, ⟨⟨event, placed.1, rfl⟩, placed.2⟩, rfl⟩

theorem answers_iff_hasParent {replies : List Event} {answer event : Event}
    (member : event ∈ replies) :
    Answers (answersAmong replies) answer event ↔ HasParent replies answer event := by
  rw [Answers, answersAmong, mem_childrenOf_placements_iff, parentAmong_eq_some_iff]
  have known : event.id ∈ replies.map Event.id := List.mem_map_of_mem member
  constructor
  · intro answered
    rcases answered with ⟨answerMember, named, other, _⟩
    exact ⟨answerMember, member, other, named⟩
  · intro parent
    rcases parent with ⟨answerMember, _, other, named⟩
    exact ⟨answerMember, named, other, known⟩

/-- The first pass begins with the replies without a parent. -/
theorem mem_childrenOf_none_iff {replies : List Event} {event : Event} :
    event ∈ childrenOf (placements replies) none ↔
      event ∈ replies ∧ ∀ parent, ¬HasParent replies event parent := by
  rw [mem_childrenOf_placements_iff]
  refine and_congr_right fun member => ?_
  rw [Option.eq_none_iff_forall_ne_some]
  constructor
  · intro orphan parent hasParent
    rcases hasParent with ⟨_, parentMember, other, named⟩
    have known : parent.id ∈ replies.map Event.id := List.mem_map_of_mem parentMember
    exact orphan parent.id (parentAmong_eq_some_iff.mpr ⟨named, other, known⟩)
  · intro orphan id among
    obtain ⟨named, other, known⟩ := parentAmong_eq_some_iff.mp among
    obtain ⟨parent, parentMember, rfl⟩ := List.mem_map.mp known
    exact orphan parent ⟨member, parentMember, other, named⟩

/-- A path of answers up to a reply is a chain of parents. -/
theorem reflTransGen_hasParent {replies : List Event} {event candidate : Event}
    (member : candidate ∈ replies)
    (path : Relation.ReflTransGen (Answers (answersAmong replies)) event candidate) :
    event ∈ replies ∧ Relation.ReflTransGen (HasParent replies) event candidate := by
  induction path using Relation.ReflTransGen.head_induction_on with
  | refl => exact ⟨member, .refl⟩
  | head answered _ inductionHypothesis =>
      rcases inductionHypothesis with ⟨nextMember, chain⟩
      have parent := (answers_iff_hasParent nextMember).mp answered
      exact ⟨parent.1, .head parent chain⟩

end NostrCapsule.Thread
