import Mathlib.Data.Finset.Card
import Mathlib.Data.List.Induction
import Mathlib.Data.List.Nodup
import NostrCapsule.Event.Basic

/-!
Contract: which items are first occurrences, and how items are found by their keys.

Owns:
- membership in `distinctBy`, its keys and their number, and conditions on them;
- the first occurrences of two lists, one behind the other;
- `atFirstPlaces`, the first occurrences by their places;
- the search by a key that no two items share.

Does not own: the keys of events, tokens and references.
-/

namespace NostrCapsule

variable {α κ : Type} [DecidableEq κ]

/-- An item is a first occurrence exactly if it stands somewhere with no equal key before it. -/
theorem mem_distinctBy_iff {key : α → κ} {item : α} {items : List α} :
    item ∈ distinctBy key items ↔
      ∃ before after, items = before ++ item :: after ∧
        ∀ earlier ∈ before, key earlier ≠ key item := by
  induction items with
  | nil => simp [distinctBy]
  | cons head rest inductionHypothesis =>
      rw [distinctBy, List.mem_cons, List.mem_filter, inductionHypothesis]
      constructor
      · intro found
        rcases found with rfl | ⟨⟨before, after, rfl, fresh⟩, other⟩
        · exact ⟨[], rest, rfl, by simp⟩
        · refine ⟨head :: before, after, rfl, ?_⟩
          rw [List.forall_mem_cons]
          exact ⟨fun equal => of_decide_eq_true other equal.symm, fresh⟩
      · intro found
        rcases found with ⟨before, after, split, fresh⟩
        cases before with
        | nil =>
            cases split
            exact Or.inl rfl
        | cons first others =>
            cases split
            rw [List.forall_mem_cons] at fresh
            exact Or.inr ⟨⟨others, after, rfl, fresh.2⟩,
              decide_eq_true fun equal => fresh.1 equal.symm⟩

/-- No key is lost. -/
theorem mem_map_distinctBy_iff (key : α → κ) (items : List α) {value : κ} :
    value ∈ (distinctBy key items).map key ↔ value ∈ items.map key := by
  induction items with
  | nil => rfl
  | cons head rest inductionHypothesis =>
      rw [distinctBy, List.map_cons, List.map_cons, List.mem_cons, List.mem_cons,
        ← inductionHypothesis]
      refine or_congr_right' fun other => ?_
      simp only [List.mem_map, List.mem_filter, decide_eq_true_eq]
      constructor
      · intro found
        rcases found with ⟨item, ⟨member, _⟩, same⟩
        exact ⟨item, member, same⟩
      · intro found
        rcases found with ⟨item, member, rfl⟩
        exact ⟨item, ⟨member, other⟩, rfl⟩

theorem mem_distinctBy_id_iff {items : List κ} {item : κ} :
    item ∈ distinctBy id items ↔ item ∈ items := by
  have keys : item ∈ (distinctBy id items).map id ↔ item ∈ items.map id :=
    mem_map_distinctBy_iff id items
  rwa [List.map_id, List.map_id] at keys

/-- There are as many first occurrences as there are items apart from repetitions. -/
theorem length_distinctBy_id (items : List κ) :
    (distinctBy id items).length = items.toFinset.card := by
  have distinct : (distinctBy id items).Nodup := by
    have keys := nodup_distinctBy id items
    rwa [List.map_id] at keys
  have same : items.toFinset = (distinctBy id items).toFinset := by
    apply List.toFinset.ext
    intro item
    exact mem_distinctBy_id_iff.symm
  rw [same, List.toFinset_card_of_nodup distinct]

theorem distinctBy_eq_self {key : α → κ} {items : List α} (distinct : (items.map key).Nodup) :
    distinctBy key items = items := by
  induction items with
  | nil => rfl
  | cons head rest inductionHypothesis =>
      rw [List.map_cons, List.nodup_cons] at distinct
      rw [distinctBy, inductionHypothesis distinct.2, List.filter_eq_self.mpr]
      intro other member
      exact decide_eq_true fun equal => distinct.1 (equal ▸ List.mem_map_of_mem member)

/-- A condition on keys may be checked before or after the first occurrences are taken. -/
theorem filter_distinctBy (key : α → κ) (condition : κ → Bool) (items : List α) :
    (distinctBy key items).filter (condition ∘ key) =
      distinctBy key (items.filter (condition ∘ key)) := by
  induction items with
  | nil => rfl
  | cons head rest inductionHypothesis =>
      rw [distinctBy, List.filter_cons, List.filter_cons, List.filter_comm, inductionHypothesis]
      by_cases holds : (condition ∘ key) head
      · rw [if_pos holds, if_pos holds, distinctBy]
      · -- Whatever meets the condition has another key than an item that does not.
        rw [if_neg holds, if_neg holds, ← inductionHypothesis, List.filter_filter]
        apply List.filter_congr
        intro other _
        by_cases same : key other = key head
        · have fails : (condition ∘ key) other = false := by simpa [same] using holds
          rw [fails, Bool.and_false]
        · simp [same]

theorem distinctBy_sublist (key : α → κ) (items : List α) :
    (distinctBy key items).Sublist items := by
  induction items with
  | nil => exact List.Sublist.slnil
  | cons head rest inductionHypothesis =>
      exact (List.filter_sublist.trans inductionHypothesis).cons_cons head

/-! ## Two lists -/

/-- Of further items those are kept that are first occurrences among themselves and whose keys are
new. -/
theorem distinctBy_append (key : α → κ) (items more : List α) :
    distinctBy key (items ++ more) =
      distinctBy key items ++
        (distinctBy key more).filter fun item => key item ∉ items.map key := by
  induction items with
  | nil => simp [distinctBy]
  | cons head rest inductionHypothesis =>
      have new : ∀ item ∈ distinctBy key more,
          decide (key item ∉ (head :: rest).map key) =
            (decide (key item ≠ key head) && decide (key item ∉ rest.map key)) := by
        intro item _
        simp only [List.map_cons, List.mem_cons, not_or, Bool.decide_and, ne_eq]
      rw [List.filter_congr new, List.cons_append, distinctBy, distinctBy, inductionHypothesis,
        List.filter_append, List.filter_filter, List.cons_append]

theorem distinctBy_distinctBy (key : α → κ) (items : List α) :
    distinctBy key (distinctBy key items) = distinctBy key items :=
  distinctBy_eq_self (nodup_distinctBy key items)

/-- Repetitions may be dropped from the first items before the others are looked at. -/
theorem distinctBy_distinctBy_append (key : α → κ) (items more : List α) :
    distinctBy key (distinctBy key items ++ more) = distinctBy key (items ++ more) := by
  simp only [distinctBy_append, distinctBy_distinctBy, mem_map_distinctBy_iff]

/-! ## Places -/

/-- The items at those places before which no item has the same key, in order. -/
def atFirstPlaces (key : α → κ) (items : List α) : List α :=
  (items.zipIdx.filter fun placed => key placed.1 ∉ (items.take placed.2).map key).map Prod.fst

/-- One more item changes nothing at the places before it. -/
theorem atFirstPlaces_concat (key : α → κ) (front : List α) (last : α) :
    atFirstPlaces key (front ++ [last]) =
      atFirstPlaces key front ++ [last].filter fun item => key item ∉ front.map key := by
  have earlier : ∀ placed ∈ front.zipIdx,
      decide (key placed.1 ∉ ((front ++ [last]).take placed.2).map key) =
        decide (key placed.1 ∉ (front.take placed.2).map key) := by
    intro placed member
    rw [List.take_append_of_le_length (List.snd_lt_of_mem_zipIdx member).le]
  rw [atFirstPlaces, List.zipIdx_append, List.filter_append, List.map_append,
    List.filter_congr earlier, Nat.zero_add, List.zipIdx_singleton, atFirstPlaces]
  apply congrArg (_ ++ ·)
  by_cases known : key last ∈ front.map key
  · rw [List.filter_cons_of_neg (by simp [known]), List.filter_cons_of_neg (by simp [known])]
    rfl
  · rw [List.filter_cons_of_pos (by simp [known]), List.filter_cons_of_pos (by simp [known])]
    rfl

theorem distinctBy_eq_atFirstPlaces (key : α → κ) (items : List α) :
    distinctBy key items = atFirstPlaces key items := by
  induction items using List.reverseRecOn with
  | nil => rfl
  | append_singleton front last inductionHypothesis =>
      rw [distinctBy_append, atFirstPlaces_concat, inductionHypothesis]
      rfl

/-! ## Keys that no two items share -/

/-- If no two items share a key, the key of an item picks that item out. -/
theorem filter_key_eq_singleton {key : α → κ} {items : List α} (distinct : (items.map key).Nodup)
    {item : α} (member : item ∈ items) :
    items.filter (fun other => key other = key item) = [item] := by
  induction items with
  | nil => cases member
  | cons head rest inductionHypothesis =>
      rw [List.map_cons, List.nodup_cons] at distinct
      rcases List.mem_cons.mp member with rfl | later
      · have others : rest.filter (fun other => key other = key item) = [] := by
          rw [List.filter_eq_nil_iff]
          intro other listed same
          exact distinct.1 (of_decide_eq_true same ▸ List.mem_map_of_mem listed)
        rw [List.filter_cons_of_pos (by simp), others]
      · have different : key head ≠ key item := fun same =>
          distinct.1 (same ▸ List.mem_map_of_mem later)
        rw [List.filter_cons_of_neg (by simpa using different)]
        exact inductionHypothesis distinct.2 later

/-- If no two items share a key, the search for a key finds the item that has it. -/
theorem find?_key_eq_some_iff {key : α → κ} {items : List α} (distinct : (items.map key).Nodup)
    {value : κ} {item : α} :
    items.find? (fun other => key other = value) = some item ↔ item ∈ items ∧ key item = value := by
  constructor
  · intro found
    have same := List.find?_some found
    rw [decide_eq_true_eq] at same
    exact ⟨List.mem_of_find?_eq_some found, same⟩
  · intro present
    rcases present with ⟨member, rfl⟩
    cases found : items.find? (fun other => key other = key item) with
    | none =>
        have absent := List.find?_eq_none.mp found item member
        exact absurd (decide_eq_true rfl) absent
    | some other =>
        have same := List.find?_some found
        rw [decide_eq_true_eq] at same
        rw [List.inj_on_of_nodup_map distinct (List.mem_of_find?_eq_some found) member same]

end NostrCapsule
