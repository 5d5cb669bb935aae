import Mathlib.Data.List.Perm.Basic
import Mathlib.Logic.Relation
import NostrCapsule.Proofs.Thread.ForestViews
import NostrCapsule.Thread.Fetch

/-!
Contract: what moving events from a pending list into a forest does.

Every law is one induction along the recursion of `takeForest`: a candidate that is pending is
moved first, then what answers it, then the candidates after it.

Owns:
- conservation: forest and rest together are the pending events (`preorder_append_rest_perm`);
- exhaustion: no candidate and no answer to a moved event stays pending;
- provenance: what is moved descends from a candidate, and stands below what it answers.

Does not own: which candidates a thread begins with.
-/

namespace NostrCapsule.Thread

variable {answersTo : String → List Event} {pending candidates : List Event}

/-! ## One candidate -/

theorem takeForest_absent {event : Event} {later : List Event} (absent : event ∉ pending) :
    takeForest answersTo pending (event :: later) = takeForest answersTo pending later := by
  rw [takeForest, dif_neg absent]

theorem takeForest_pending {event : Event} {later : List Event} (member : event ∈ pending) :
    let answers := takeForest answersTo (pending.erase event) (answersTo event.id)
    let siblings := takeForest answersTo answers.rest later
    (takeForest answersTo pending (event :: later)).forest =
        .branch event answers.forest siblings.forest ∧
      (takeForest answersTo pending (event :: later)).rest = siblings.rest := by
  rw [takeForest, dif_pos member]
  exact ⟨rfl, rfl⟩

/-! ## Induction along the recursion -/

/-- A property of pending events, candidates, forest and rest holds of what is taken if it holds
without candidates, passes over an absent candidate, and passes a pending one from its answers and
the later candidates on. -/
theorem takeForest_induction
    {motive : List Event → List Event → Forest → List Event → Prop}
    (none : ∀ pending, motive pending [] .empty pending)
    (absent : ∀ pending event later forest rest, event ∉ pending →
      motive pending later forest rest → motive pending (event :: later) forest rest)
    (moved : ∀ pending event later answers unanswered siblings rest, event ∈ pending →
      motive (pending.erase event) (answersTo event.id) answers unanswered →
      motive unanswered later siblings rest →
      motive pending (event :: later) (.branch event answers siblings) rest)
    (pending candidates : List Event) :
    motive pending candidates (takeForest answersTo pending candidates).forest
      (takeForest answersTo pending candidates).rest := by
  fun_induction takeForest answersTo pending candidates with
  | case1 pending => exact none pending
  | case2 pending event later member answers unanswered fewer answersTaken siblings rest fewest
      siblingsTaken answersHypothesis siblingsHypothesis =>
      rw [answersTaken] at answersHypothesis
      rw [siblingsTaken] at siblingsHypothesis
      exact moved pending event later answers unanswered siblings rest member answersHypothesis
        siblingsHypothesis
  | case3 pending event later member inductionHypothesis =>
      exact absent pending event later _ _ member inductionHypothesis

/-! ## Conservation -/

/-- Forest and rest together are the events that were pending. -/
theorem preorder_append_rest_perm (pending candidates : List Event) :
    ((takeForest answersTo pending candidates).forest.preorder
      ++ (takeForest answersTo pending candidates).rest).Perm pending := by
  refine takeForest_induction
    (motive := fun pending _ forest rest => (forest.preorder ++ rest).Perm pending)
    ?none ?absent ?moved pending candidates
  case none =>
    intro pending
    exact List.Perm.refl _
  case absent =>
    intro pending event later forest rest _ conserved
    exact conserved
  case moved =>
    intro pending event later answers unanswered siblings rest member below beside
    have split : (answers.preorder ++ siblings.preorder ++ rest).Perm (pending.erase event) := by
      rw [List.append_assoc]
      exact (beside.append_left _).trans below
    rw [Forest.preorder, List.cons_append]
    exact (split.cons event).trans (List.perm_cons_erase member).symm

theorem mem_pending_iff (pending candidates : List Event) {event : Event} :
    event ∈ pending ↔
      event ∈ (takeForest answersTo pending candidates).forest.preorder ∨
        event ∈ (takeForest answersTo pending candidates).rest := by
  rw [← (preorder_append_rest_perm pending candidates).mem_iff, List.mem_append]

/-! ## Exhaustion -/

/-- What stays pending keeps its order, and has nothing to do with what was asked for. -/
structure Exhausted (answersTo : String → List Event) (pending candidates : List Event)
    (forest : Forest) (rest : List Event) : Prop where
  sublist : rest.Sublist pending
  candidate_gone : pending.Nodup → ∀ candidate ∈ candidates, candidate ∉ rest
  answer_gone : pending.Nodup →
    ∀ event ∈ forest.preorder, ∀ answer ∈ answersTo event.id, answer ∉ rest

theorem exhausted_takeForest (pending candidates : List Event) :
    Exhausted answersTo pending candidates (takeForest answersTo pending candidates).forest
      (takeForest answersTo pending candidates).rest := by
  refine takeForest_induction (motive := Exhausted answersTo) ?none ?absent ?moved pending
    candidates
  case none =>
    intro pending
    exact ⟨List.Sublist.refl _, by simp, by simp [Forest.preorder]⟩
  case absent =>
    intro pending event later forest rest missing others
    refine ⟨others.sublist, fun once => ?_, others.answer_gone⟩
    rw [List.forall_mem_cons]
    exact ⟨fun kept => missing (others.sublist.subset kept), others.candidate_gone once⟩
  case moved =>
    intro pending event later answers unanswered siblings rest member below beside
    have kept : rest.Sublist (pending.erase event) := beside.sublist.trans below.sublist
    refine ⟨kept.trans List.erase_sublist, fun once => ?_, fun once => ?_⟩
    · have belowOnce := once.erase event
      rw [List.forall_mem_cons]
      refine ⟨fun left => once.not_mem_erase (kept.subset left), ?_⟩
      exact beside.candidate_gone (belowOnce.sublist below.sublist)
    · have belowOnce := once.erase event
      have besideOnce := belowOnce.sublist below.sublist
      rw [Forest.preorder, List.forall_mem_cons, List.forall_mem_append]
      refine ⟨?_, ?_, beside.answer_gone besideOnce⟩
      · intro answer answered left
        exact below.candidate_gone belowOnce answer answered (beside.sublist.subset left)
      · intro other moved answer answered left
        exact below.answer_gone belowOnce other moved answer answered (beside.sublist.subset left)

/-! ## Provenance -/

/-- One event answers another. -/
def Answers (answersTo : String → List Event) (answer event : Event) : Prop :=
  answer ∈ answersTo event.id

theorem descends_of_mem_preorder (pending candidates : List Event) :
    ∀ event ∈ (takeForest answersTo pending candidates).forest.preorder,
      ∃ candidate ∈ candidates, Relation.ReflTransGen (Answers answersTo) event candidate := by
  refine takeForest_induction
    (motive := fun _ candidates forest _ => ∀ event ∈ forest.preorder,
      ∃ candidate ∈ candidates, Relation.ReflTransGen (Answers answersTo) event candidate)
    ?none ?absent ?moved pending candidates
  case none =>
    intro pending
    simp [Forest.preorder]
  case absent =>
    intro pending event later forest rest _ descends other moved
    obtain ⟨candidate, member, path⟩ := descends other moved
    exact ⟨candidate, List.mem_cons_of_mem _ member, path⟩
  case moved =>
    intro pending event later answers unanswered siblings rest _ below beside
    rw [Forest.preorder, List.forall_mem_cons, List.forall_mem_append]
    refine ⟨⟨event, List.mem_cons_self, .refl⟩, ?_, ?_⟩
    · intro other moved
      obtain ⟨answer, answered, path⟩ := below other moved
      exact ⟨event, List.mem_cons_self, path.tail answered⟩
    · intro other moved
      obtain ⟨candidate, member, path⟩ := beside other moved
      exact ⟨candidate, List.mem_cons_of_mem _ member, path⟩

/-- An event stands at the top as a candidate, or below a moved event that it answers. -/
theorem origin_of_mem_links (pending candidates : List Event) :
    ∀ parent, ∀ link ∈ (takeForest answersTo pending candidates).forest.links parent,
      (link.1 = parent ∧ link.2 ∈ candidates) ∨
        (link.1 ∈ (takeForest answersTo pending candidates).forest.preorder ∧
          Answers answersTo link.2 link.1) := by
  refine takeForest_induction
    (motive := fun _ candidates forest _ => ∀ parent, ∀ link ∈ forest.links parent,
      (link.1 = parent ∧ link.2 ∈ candidates) ∨
        (link.1 ∈ forest.preorder ∧ Answers answersTo link.2 link.1))
    ?none ?absent ?moved pending candidates
  case none =>
    intro pending parent
    simp [Forest.links]
  case absent =>
    intro pending event later forest rest _ origin parent link member
    rcases origin parent link member with ⟨atTop, candidate⟩ | answered
    · exact Or.inl ⟨atTop, List.mem_cons_of_mem _ candidate⟩
    · exact Or.inr answered
  case moved =>
    intro pending event later answers unanswered siblings rest _ below beside parent
    rw [Forest.links, List.forall_mem_cons, List.forall_mem_append]
    rw [Forest.preorder]
    simp only [List.mem_cons, List.mem_append]
    refine ⟨Or.inl (by simp), ?_, ?_⟩
    · intro link member
      rcases below event link member with ⟨same, answered⟩ | ⟨moved, answered⟩
      · exact Or.inr ⟨Or.inl same, same ▸ answered⟩
      · exact Or.inr ⟨Or.inr (Or.inl moved), answered⟩
    · intro link member
      rcases beside parent link member with ⟨atTop, candidate⟩ | ⟨moved, answered⟩
      · exact Or.inl ⟨atTop, Or.inr candidate⟩
      · exact Or.inr ⟨Or.inr (Or.inr moved), answered⟩

/-! ## Candidates in two parts -/

theorem takeForest_append (pending before after : List Event) :
    (takeForest answersTo pending (before ++ after)).forest =
        (takeForest answersTo pending before).forest
          ++ (takeForest answersTo (takeForest answersTo pending before).rest after).forest ∧
      (takeForest answersTo pending (before ++ after)).rest =
        (takeForest answersTo (takeForest answersTo pending before).rest after).rest := by
  fun_induction takeForest answersTo pending before with
  | case1 pending => exact ⟨rfl, rfl⟩
  | case2 pending event later member answers unanswered fewer answersTaken siblings rest fewest
      siblingsTaken _ siblingsHypothesis =>
      have sameAnswers := congrArg Harvest.forest answersTaken
      obtain rfl := congrArg Harvest.rest answersTaken
      obtain ⟨forestTaken, restTaken⟩ :=
        @takeForest_pending answersTo pending event (later ++ after) member
      rw [siblingsTaken] at siblingsHypothesis
      rw [List.cons_append, forestTaken, restTaken, siblingsHypothesis.1, siblingsHypothesis.2,
        sameAnswers]
      exact ⟨rfl, rfl⟩
  | case3 pending event later member inductionHypothesis =>
      rw [List.cons_append, takeForest_absent member]
      exact inductionHypothesis

end NostrCapsule.Thread
