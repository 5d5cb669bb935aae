import Mathlib.Algebra.BigOperators.Group.List.Basic
import Mathlib.Algebra.Ring.Nat
import Mathlib.Data.List.Induction
import NostrCapsule.Engagement.Tally
import NostrCapsule.Proofs.FirstOccurrence

/-!
Contract: counting one event after the other comes to numbers and sums over all of them.

Places come into being with their keys, and one sum stops at its ceiling; still, what stands there
in the end depends on which events were counted and not on their order.  The step says what one
more event adds to each part, and the parts determine the engagement.

Owns:
- `Counts.amountOf` and `Counts.total`, what stands under a key and under all keys;
- `Counts.IsProper`, by which these determine the counts;
- `Engagement.Tallies`, what an engagement says of the events that were counted, with
  `tallies_ofEvents` and `Tallies.unique`.

Does not own: the amount that one receipt shows, and which events a store has counted.
-/

namespace NostrCapsule

/-! ## Counts -/

namespace Counts

variable {key other : String} {amount : Nat} {counts : Counts}

theorem mem_keys_add :
    other ∈ (counts.add key amount).map Prod.fst ↔ other = key ∨ other ∈ counts.map Prod.fst := by
  induction counts with
  | nil => simp [add]
  | cons entry rest inductionHypothesis =>
      rcases entry with ⟨first, count⟩
      rw [add]
      by_cases same : key = first
      · rw [if_pos same]
        simp [same]
      rw [if_neg same]
      by_cases before : key < first
      · rw [if_pos before]
        simp
      · rw [if_neg before, List.map_cons, List.mem_cons, inductionHypothesis, List.map_cons,
          List.mem_cons]
        exact or_left_comm

/-- What is counted under a key. -/
def amountOf (counts : Counts) (key : String) : Nat :=
  ((counts.filter fun entry => entry.1 = key).map Prod.snd).sum

def total (counts : Counts) : Nat :=
  (counts.map Prod.snd).sum

theorem amountOf_cons (first : String) (count : Nat) (rest : Counts) (key : String) :
    amountOf ((first, count) :: rest) key = (if first = key then count else 0) + rest.amountOf key := by
  unfold amountOf
  by_cases same : first = key
  · rw [List.filter_cons_of_pos (by simpa using same), if_pos same, List.map_cons, List.sum_cons]
  · rw [List.filter_cons_of_neg (by simpa using same), if_neg same, Nat.zero_add]

theorem total_cons (first : String) (count : Nat) (rest : Counts) :
    total ((first, count) :: rest) = count + rest.total := by
  rw [total, List.map_cons, List.sum_cons]
  rfl

/-- Only the key that was added to counts for more, also where the keys are in no order. -/
theorem amountOf_add (key : String) (amount : Nat) (counts : Counts) (other : String) :
    (counts.add key amount).amountOf other =
      counts.amountOf other + if key = other then amount else 0 := by
  induction counts with
  | nil => rw [add, amountOf_cons, Nat.add_comm]
  | cons entry rest inductionHypothesis =>
      rcases entry with ⟨first, count⟩
      rw [add]
      by_cases same : key = first
      · subst same
        rw [if_pos rfl, amountOf_cons, amountOf_cons]
        split_ifs <;> omega
      rw [if_neg same]
      by_cases before : key < first
      · rw [if_pos before, amountOf_cons, Nat.add_comm]
      · rw [if_neg before, amountOf_cons, amountOf_cons, inductionHypothesis, Nat.add_assoc]

theorem total_add (key : String) (amount : Nat) (counts : Counts) :
    (counts.add key amount).total = counts.total + amount := by
  induction counts with
  | nil => rw [add, total_cons, Nat.add_comm]
  | cons entry rest inductionHypothesis =>
      rcases entry with ⟨first, count⟩
      rw [add]
      by_cases same : key = first
      · rw [if_pos same, total_cons, total_cons]
        omega
      rw [if_neg same]
      by_cases before : key < first
      · rw [if_pos before, total_cons, Nat.add_comm]
      · rw [if_neg before, total_cons, total_cons, inductionHypothesis]
        omega

/-- The keys ascend, and nothing is counted no times. -/
structure IsProper (counts : Counts) : Prop where
  ascending : (counts.map Prod.fst).Pairwise (· < ·)
  positive : ∀ entry ∈ counts, 0 < entry.2

namespace IsProper

theorem add (proper : counts.IsProper) (key : String) (positive : 0 < amount) :
    (counts.add key amount).IsProper := by
  induction counts with
  | nil => exact ⟨List.pairwise_singleton _ _, by simpa [Counts.add] using positive⟩
  | cons entry rest inductionHypothesis =>
      rcases entry with ⟨first, count⟩
      obtain ⟨ahead, ascending⟩ := List.pairwise_cons.mp proper.ascending
      obtain ⟨firstPositive, restPositive⟩ := List.forall_mem_cons.mp proper.positive
      rw [Counts.add]
      by_cases same : key = first
      · rw [if_pos same]
        exact ⟨proper.ascending,
          List.forall_mem_cons.mpr ⟨Nat.add_pos_left firstPositive amount, restPositive⟩⟩
      rw [if_neg same]
      by_cases before : key < first
      · rw [if_pos before]
        refine ⟨List.pairwise_cons.mpr ⟨?_, proper.ascending⟩,
          List.forall_mem_cons.mpr ⟨positive, proper.positive⟩⟩
        refine List.forall_mem_cons.mpr ⟨before, fun later member => ?_⟩
        exact String.lt_trans before (ahead later member)
      · rw [if_neg before]
        have above : first < key := Std.lt_of_le_of_ne (String.not_lt.mp before) (Ne.symm same)
        have proper := inductionHypothesis ⟨ascending, restPositive⟩
        refine ⟨List.pairwise_cons.mpr ⟨fun later member => ?_, proper.ascending⟩,
          List.forall_mem_cons.mpr ⟨firstPositive, proper.positive⟩⟩
        rcases mem_keys_add.mp member with rfl | known
        · exact above
        · exact ahead later known

theorem nodup_keys (proper : counts.IsProper) : (counts.map Prod.fst).Nodup := by
  apply proper.ascending.imp
  rintro first _ before rfl
  exact String.lt_irrefl _ before

theorem amountOf_eq {number : Nat} (proper : counts.IsProper) (member : (key, number) ∈ counts) :
    counts.amountOf key = number := by
  have only : counts.filter (fun entry => entry.1 = key) = [(key, number)] :=
    filter_key_eq_singleton proper.nodup_keys member
  rw [amountOf, only, List.map_singleton, List.sum_singleton]

theorem mem_iff {number : Nat} (proper : counts.IsProper) :
    (key, number) ∈ counts ↔ 0 < number ∧ counts.amountOf key = number := by
  constructor
  · intro member
    exact ⟨proper.positive _ member, proper.amountOf_eq member⟩
  · intro counted
    rcases counted with ⟨positive, rfl⟩
    -- Something stands under the key, since what stands there is not zero.
    obtain ⟨amount, listed, _⟩ := List.exists_mem_ne_zero_of_sum_ne_zero (Nat.ne_of_gt positive)
    obtain ⟨entry, kept, _⟩ := List.mem_map.mp listed
    obtain ⟨member, same⟩ := List.mem_filter.mp kept
    obtain rfl := of_decide_eq_true same
    rwa [proper.amountOf_eq member]

/-- What is counted under each key says what the counts are. -/
theorem ext {left right : Counts} (leftProper : left.IsProper) (rightProper : right.IsProper)
    (same : ∀ key, left.amountOf key = right.amountOf key) : left = right := by
  have permuted : left.Perm right := by
    refine (List.perm_ext_iff_of_nodup ?_ ?_).mpr fun entry => ?_
    · exact List.Nodup.of_map Prod.fst leftProper.nodup_keys
    · exact List.Nodup.of_map Prod.fst rightProper.nodup_keys
    · rw [leftProper.mem_iff, rightProper.mem_iff, same]
  have inOrder {counts : Counts} (proper : counts.IsProper) :
      counts.Pairwise fun entry later => entry.1 < later.1 :=
    List.pairwise_map.mp proper.ascending
  exact permuted.eq_of_pairwise
    (fun _ _ _ _ forward backward => absurd backward (String.lt_asymm forward))
    (inOrder leftProper) (inOrder rightProper)

end IsProper

end Counts

namespace Engagement

variable {engagement other : Engagement} {events others : List Event}

/-! ## What was counted -/

/-- What an engagement says of the events that were counted: the number of notes, the number of
reactions, in all and for each key, and the sum of payments up to the ceiling. -/
structure Tallies (engagement : Engagement) (events : List Event) : Prop where
  replies : engagement.replies = events.countP fun event => event.kind = 1
  reactions : engagement.reactions = events.countP fun event => event.kind = 7
  proper : engagement.reactionsByContent.IsProper
  total : engagement.reactionsByContent.total = engagement.reactions
  amountOf : ∀ key, engagement.reactionsByContent.amountOf key =
    events.countP fun event => event.kind = 7 ∧ reactionKey event.content = key
  zapMsats : engagement.zapMsats =
    min zapCeiling ((events.filter fun event => event.kind = 9735).map zapAmount).sum

/-- What counting an event does, by its kind. -/
theorem count_cases (engagement : Engagement) (event : Event) :
    (event.kind = 1 ∧
      engagement.count event = { engagement with replies := engagement.replies + 1 }) ∨
    (event.kind = 7 ∧ engagement.count event =
      { engagement with
        reactions := engagement.reactions + 1
        reactionsByContent := engagement.reactionsByContent.add (reactionKey event.content) 1 }) ∨
    (event.kind = 9735 ∧ engagement.count event =
      { engagement with zapMsats := addZap engagement.zapMsats (zapAmount event) }) ∨
    (event.kind ≠ 1 ∧ event.kind ≠ 7 ∧ event.kind ≠ 9735 ∧
      engagement.count event = engagement) := by
  simp only [count, Event.isKind, KnownKind.code, beq_iff_eq]
  by_cases note : event.kind = 1
  · exact .inl ⟨note, if_pos note⟩
  by_cases reaction : event.kind = 7
  · exact .inr (.inl ⟨reaction, by rw [if_neg note, if_pos reaction]⟩)
  by_cases receipt : event.kind = 9735
  · exact .inr (.inr (.inl ⟨receipt, by rw [if_neg note, if_neg reaction, if_pos receipt]⟩))
  · refine .inr (.inr (.inr ⟨note, reaction, receipt, ?_⟩))
    rw [if_neg note, if_neg reaction, if_neg receipt]

/-- A sum that stopped at the ceiling stays there, so it may as well stop at the end only. -/
theorem addZap_min (sum amount : Nat) :
    addZap (min zapCeiling sum) amount = min zapCeiling (sum + amount) := by
  rw [addZap]
  omega

/-- One more event adds to what it belongs to, and to nothing else. -/
theorem Tallies.count (tallies : engagement.Tallies events) (event : Event) :
    (engagement.count event).Tallies (events ++ [event]) := by
  obtain ⟨replies, reactions, proper, total, amountOf, zapMsats⟩ := tallies
  rcases engagement.count_cases event with
    ⟨note, counted⟩ | ⟨reaction, counted⟩ | ⟨receipt, counted⟩ | ⟨note, reaction, receipt, counted⟩
  · rw [counted]
    refine ⟨?_, ?_, proper, total, fun key => ?_, ?_⟩
    · simp [replies, note]
    · simp [reactions, note]
    · simp [amountOf, note]
    · simp [zapMsats, note]
  · rw [counted]
    refine ⟨?_, ?_, proper.add _ Nat.one_pos, ?_, fun key => ?_, ?_⟩
    · simp [replies, reaction]
    · simp [reactions, reaction]
    · rw [Counts.total_add, total]
    · simp [Counts.amountOf_add, amountOf, reaction]
    · simp [zapMsats, reaction]
  · rw [counted]
    refine ⟨?_, ?_, proper, total, fun key => ?_, ?_⟩
    · simp [replies, receipt]
    · simp [reactions, receipt]
    · simp [amountOf, receipt]
    · simp [zapMsats, addZap_min, receipt]
  · rw [counted]
    refine ⟨?_, ?_, proper, total, fun key => ?_, ?_⟩
    · simp [replies, note]
    · simp [reactions, reaction]
    · simp [amountOf, reaction]
    · simp [zapMsats, receipt]

theorem tallies_ofEvents (events : List Event) : (ofEvents events).Tallies events := by
  induction events using List.reverseRecOn with
  | nil => exact ⟨rfl, rfl, ⟨.nil, List.forall_mem_nil _⟩, rfl, fun _ => rfl, rfl⟩
  | append_singleton before event inductionHypothesis =>
      rw [ofEvents, List.foldl_append]
      exact inductionHypothesis.count event

/-- What is said of the events does not depend on their order, and there is one engagement that
says it. -/
theorem Tallies.unique (tallies : engagement.Tallies events) (tally : other.Tallies others)
    (same : events.Perm others) : engagement = other := by
  have alike : engagement.reactionsByContent = other.reactionsByContent :=
    tallies.proper.ext tally.proper fun key => by
      rw [tallies.amountOf, tally.amountOf, same.countP_eq]
  have sums : (events.filter fun event => event.kind = 9735).map zapAmount |>.Perm
      ((others.filter fun event => event.kind = 9735).map zapAmount) :=
    (same.filter _).map _
  have zapMsats : engagement.zapMsats = other.zapMsats := by
    rw [tallies.zapMsats, tally.zapMsats, sums.sum_eq]
  have replies : engagement.replies = other.replies := by
    rw [tallies.replies, tally.replies, same.countP_eq]
  have reactions : engagement.reactions = other.reactions := by
    rw [tallies.reactions, tally.reactions, same.countP_eq]
  cases engagement
  cases other
  rw [mk.injEq]
  exact ⟨replies, reactions, alike, zapMsats⟩

/-- Just the reactions have brought keys. -/
theorem Tallies.mem_keys_iff (tallies : engagement.Tallies events) {key : String} :
    key ∈ engagement.reactionsByContent.map Prod.fst ↔
      ∃ event ∈ events, event.kind = 7 ∧ reactionKey event.content = key := by
  have counted : key ∈ engagement.reactionsByContent.map Prod.fst ↔
      0 < engagement.reactionsByContent.amountOf key := by
    simp [List.mem_map, tallies.proper.mem_iff]
  rw [counted, tallies.amountOf, List.countP_pos_iff]
  simp only [decide_eq_true_eq]

end Engagement

end NostrCapsule
