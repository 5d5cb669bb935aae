import NostrCapsule.Proofs.FirstOccurrence
import NostrCapsule.Thread.Forest

/-!
Contract: what the operations on forests do to the lists that forests are seen as.

Owns:
- `nodes`, the trees below all events, and `links`, each event with the one it stands below;
- `tops` and `children`, the events that stand side by side;
- size, search and concatenation in terms of these lists and of `preorder`.

Does not own: which event answers which.
-/

namespace NostrCapsule

namespace Forest

/-- The trees below all events, in preorder. -/
def nodes : Forest → List Thread
  | .empty => []
  | .branch event replies siblings => ⟨event, replies⟩ :: (replies.nodes ++ siblings.nodes)

/-- Each event after the one that it stands directly below, which is `parent` at the top. -/
def links (parent : Event) : Forest → List (Event × Event)
  | .empty => []
  | .branch event replies siblings =>
      (parent, event) :: (replies.links event ++ siblings.links parent)

def tops (forest : Forest) : List Event :=
  forest.threads.map Thread.root

theorem append_eq (left right : Forest) : left ++ right = left.append right := rfl

@[simp] theorem preorder_append (left right : Forest) :
    (left ++ right).preorder = left.preorder ++ right.preorder := by
  rw [append_eq]
  induction left with
  | empty => rfl
  | branch event replies siblings _ siblingsHypothesis =>
      rw [append, preorder, preorder, siblingsHypothesis, List.cons_append, List.append_assoc]

@[simp] theorem links_append (parent : Event) (left right : Forest) :
    (left ++ right).links parent = left.links parent ++ right.links parent := by
  rw [append_eq]
  induction left with
  | empty => rfl
  | branch event replies siblings _ siblingsHypothesis =>
      rw [append, links, links, siblingsHypothesis, List.cons_append, List.append_assoc]

@[simp] theorem tops_empty : Forest.empty.tops = [] := rfl

@[simp] theorem tops_branch (event : Event) (replies siblings : Forest) :
    (branch event replies siblings).tops = event :: siblings.tops := rfl

@[simp] theorem tops_append (left right : Forest) :
    (left ++ right).tops = left.tops ++ right.tops := by
  rw [append_eq]
  induction left with
  | empty => rfl
  | branch event replies siblings _ siblingsHypothesis =>
      rw [append, tops_branch, tops_branch, siblingsHypothesis, List.cons_append]

@[simp] theorem nodes_append (left right : Forest) :
    (left ++ right).nodes = left.nodes ++ right.nodes := by
  rw [append_eq]
  induction left with
  | empty => rfl
  | branch event replies siblings _ siblingsHypothesis =>
      rw [append, nodes, nodes, siblingsHypothesis, List.cons_append, List.append_assoc]

theorem size_eq_length_preorder (forest : Forest) : forest.size = forest.preorder.length := by
  induction forest with
  | empty => rfl
  | branch event replies siblings repliesHypothesis siblingsHypothesis =>
      rw [size, preorder, List.length_cons, List.length_append, repliesHypothesis,
        siblingsHypothesis]
      omega

theorem map_root_nodes (forest : Forest) : forest.nodes.map Thread.root = forest.preorder := by
  induction forest with
  | empty => rfl
  | branch event replies siblings repliesHypothesis siblingsHypothesis =>
      rw [nodes, preorder, List.map_cons, List.map_append, repliesHypothesis, siblingsHypothesis]

theorem map_snd_links (parent : Event) (forest : Forest) :
    (forest.links parent).map Prod.snd = forest.preorder := by
  induction forest generalizing parent with
  | empty => rfl
  | branch event replies siblings repliesHypothesis siblingsHypothesis =>
      rw [links, preorder, List.map_cons, List.map_append, repliesHypothesis, siblingsHypothesis]

theorem find?_eq_find?_nodes (id : String) (forest : Forest) :
    forest.find? id = forest.nodes.find? fun node => node.root.id = id := by
  induction forest with
  | empty => rfl
  | branch event replies siblings repliesHypothesis siblingsHypothesis =>
      rw [find?, nodes, List.find?_cons, List.find?_append, repliesHypothesis, siblingsHypothesis]
      by_cases same : event.id = id
      · rw [if_pos same, decide_eq_true same]
      · rw [if_neg same, decide_eq_false same]
        cases replies.nodes.find? fun node => node.root.id = id <;> rfl

end Forest

namespace Thread

def nodes (thread : Thread) : List Thread :=
  thread.toForest.nodes

def links (thread : Thread) : List (Event × Event) :=
  thread.replies.links thread.root

def children (thread : Thread) : List Event :=
  thread.replies.tops

theorem nodes_eq_cons (thread : Thread) : thread.nodes = thread :: thread.replies.nodes := by
  rw [nodes, toForest, Forest.nodes, Forest.nodes, List.append_nil]

theorem preorder_eq_cons (thread : Thread) :
    thread.preorder = thread.root :: thread.replies.preorder := by
  rw [preorder, toForest, Forest.preorder, Forest.preorder, List.append_nil]

/-- An event that stands in a thread once is the child of one event only. -/
theorem parent_unique {thread : Thread} (once : thread.replies.preorder.Nodup)
    {first second event : Event} (left : (first, event) ∈ thread.links)
    (right : (second, event) ∈ thread.links) : first = second := by
  rw [← Forest.map_snd_links thread.root] at once
  have equal := List.inj_on_of_nodup_map once left right rfl
  exact congrArg Prod.fst equal

/-- With distinct identifiers, the search finds exactly the node with the identifier. -/
theorem find?_eq_some_iff {thread : Thread} (distinct : (thread.preorder.map Event.id).Nodup)
    {id : String} {node : Thread} :
    thread.find? id = some node ↔ node ∈ thread.nodes ∧ node.root.id = id := by
  rw [preorder, ← Forest.map_root_nodes, List.map_map] at distinct
  rw [find?, Forest.find?_eq_find?_nodes]
  exact find?_key_eq_some_iff distinct

theorem find?_isSome_iff {thread : Thread} {id : String} :
    (thread.find? id).isSome ↔ id ∈ thread.preorder.map Event.id := by
  rw [find?, Forest.find?_eq_find?_nodes, preorder, ← Forest.map_root_nodes, List.map_map,
    List.find?_isSome, List.mem_map]
  simp

end Thread

namespace Forest

/-- A link leads from above to the top, or from a node to one of its children. -/
theorem mem_links_iff {forest : Forest} {parent : Event} {link : Event × Event} :
    link ∈ forest.links parent ↔
      (link.1 = parent ∧ link.2 ∈ forest.tops) ∨
        ∃ node ∈ forest.nodes, link.1 = node.root ∧ link.2 ∈ node.children := by
  induction forest generalizing parent with
  | empty => simp [links, nodes]
  | branch event replies siblings repliesHypothesis siblingsHypothesis =>
      have below (node : Thread) : node ∈ (branch event replies siblings).nodes ↔
          node = ⟨event, replies⟩ ∨ node ∈ replies.nodes ∨ node ∈ siblings.nodes := by
        rw [nodes, List.mem_cons, List.mem_append]
      simp only [links, List.mem_cons, List.mem_append, repliesHypothesis, siblingsHypothesis,
        below, tops_branch, Thread.children, or_and_right, exists_or, exists_eq_left, Prod.ext_iff]
      grind

/-- An event stands at the top or is a child of another one. -/
theorem mem_preorder_iff {forest : Forest} {event : Event} :
    event ∈ forest.preorder ↔
      event ∈ forest.tops ∨ ∃ node ∈ forest.nodes, event ∈ node.children := by
  rw [← map_snd_links event forest, List.mem_map]
  constructor
  · intro linked
    rcases linked with ⟨link, member, rfl⟩
    rcases mem_links_iff.mp member with ⟨_, top⟩ | ⟨node, present, _, child⟩
    · exact Or.inl top
    · exact Or.inr ⟨node, present, child⟩
  · intro placed
    rcases placed with top | ⟨node, present, child⟩
    · exact ⟨(event, event), mem_links_iff.mpr (Or.inl ⟨rfl, top⟩), rfl⟩
    · exact ⟨(node.root, event), mem_links_iff.mpr (Or.inr ⟨node, present, rfl, child⟩), rfl⟩

theorem root_mem_preorder {forest : Forest} {node : Thread} (member : node ∈ forest.nodes) :
    node.root ∈ forest.preorder :=
  map_root_nodes forest ▸ List.mem_map_of_mem member

/-- If the event above stands nowhere in the forest, its links are those to the top. -/
theorem mem_tops_iff {forest : Forest} {parent event : Event} (fresh : parent ∉ forest.preorder) :
    event ∈ forest.tops ↔ (parent, event) ∈ forest.links parent := by
  rw [mem_links_iff]
  constructor
  · exact fun top => Or.inl ⟨rfl, top⟩
  · intro link
    rcases link with ⟨_, top⟩ | ⟨node, member, rfl, _⟩
    · exact top
    · exact absurd (root_mem_preorder member) fresh

end Forest

end NostrCapsule
