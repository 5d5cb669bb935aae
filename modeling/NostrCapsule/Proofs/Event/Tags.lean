import NostrCapsule.Event.Basic

/-!
Contract: what the tags of an event say under a name.

Owns:
- `Event.HasTag`, and the values of a name in terms of it;
- `Event.HasFirstValue`, by which the value of a name is found among the tags.

Does not own: the meaning of a name.
-/

namespace NostrCapsule.Event

/-- Some tag has the given name and value. -/
def HasTag (event : Event) (name value : String) : Prop :=
  ∃ more, name :: value :: more ∈ event.tags

/-- Under a name, the first tag that has a value has the given one. -/
def HasFirstValue (event : Event) (name value : String) : Prop :=
  ∃ before more after, event.tags = before ++ (name :: value :: more) :: after ∧
    ∀ tag ∈ before, ∀ other rest, tag ≠ name :: other :: rest

variable {event : Event} {name value : String}

theorem value_of_tag_iff {tag : List String} :
    (if tag.head? == some name then tag[1]? else none) = some value ↔
      ∃ more, tag = name :: value :: more := by
  match tag with
  | [] => simp
  | [single] => simp
  | first :: second :: more => simp

theorem mem_tagValues_iff : value ∈ event.tagValues name ↔ event.HasTag name value := by
  unfold tagValues tagsNamed HasTag
  simp only [List.filterMap_filter, List.mem_filterMap, value_of_tag_iff]
  constructor
  · intro found
    rcases found with ⟨_, listed, more, rfl⟩
    exact ⟨more, listed⟩
  · intro found
    rcases found with ⟨more, listed⟩
    exact ⟨_, listed, more, rfl⟩

instance : Decidable (event.HasTag name value) :=
  decidable_of_iff _ mem_tagValues_iff

theorem tagValue?_eq_some_iff :
    event.tagValue? name = some value ↔ event.HasFirstValue name value := by
  have without (tag : List String) : (if tag.head? == some name then tag[1]? else none) = none ↔
      ∀ other rest, tag ≠ name :: other :: rest := by
    rw [Option.eq_none_iff_forall_ne_some]
    simp only [ne_eq, value_of_tag_iff, not_exists]
  unfold tagValue? tagValues tagsNamed HasFirstValue
  simp only [List.filterMap_filter, List.head?_filterMap, List.findSome?_eq_some_iff,
    value_of_tag_iff, without]
  constructor
  · intro found
    rcases found with ⟨before, _, after, split, ⟨more, rfl⟩, earlier⟩
    exact ⟨before, more, after, split, earlier⟩
  · intro found
    rcases found with ⟨before, more, after, split, earlier⟩
    exact ⟨before, _, after, split, ⟨more, rfl⟩, earlier⟩

end NostrCapsule.Event
