import Mathlib.Algebra.BigOperators.Group.Finset.Basic
import Mathlib.Algebra.Ring.Nat
import NostrCapsule.Proofs.Engagement.Tallies
import NostrCapsule.Proofs.Event.Tags
import NostrCapsule.Proofs.Lookup.Laws
import NostrCapsule.Proofs.Store.Selection

/-!
Contract: the tally of a store counts exactly.

The events that answer the question of a tally are those that name the event in it, each once.  So
what was counted one after the other is what one would count over their set.

Owns:
- `MemoryStore.engagedWith`, the set of events that a tally is about;
- `tally_counts_exactly`, and that no line shows reactions without saying which.

Does not own: counting as such.
-/

namespace NostrCapsule

namespace Engagement

variable {engagement : Engagement} {events : List Event}

/-! ## The line -/

theorem Tallies.breakdown_ne_empty (tallies : engagement.Tallies events)
    (some : engagement.reactions ≠ 0) : breakdown engagement.reactionsByContent ≠ "" := by
  rw [← tallies.total] at some
  cases listed : engagement.reactionsByContent with
  | nil =>
      rw [listed] at some
      exact absurd rfl some
  | cons entry rest =>
      intro empty
      have space : ' ' ∈ (breakdown (entry :: rest)).toList := by
        rw [breakdown, List.map_cons]
        cases rest with
        | nil => simp
        | cons second later => simp [String.intercalate_cons_cons]
      rw [empty] at space
      cases space

theorem counted_eq (count : Nat) (one many : String) :
    counted count one many = toString count ++ " " ++ if count = 1 then one else many := by
  unfold counted
  split_ifs with single
  · rw [single]
    rfl
  · rfl

theorem line?_eq (engagement : Engagement) :
    engagement.line? =
      if engagement.replies = 0 ∧ engagement.reactions = 0 ∧ engagement.zapMsats = 0 then none
      else some (" · ".intercalate engagement.parts) := by
  rw [line?, isEmpty]
  congr 1
  simp [and_assoc]

/-- No part of the line shows reactions without a breakdown. -/
theorem Tallies.not_mem_parts (tallies : engagement.Tallies events) :
    counted engagement.reactions "reaction" "reactions" ++ " ()" ∉ engagement.parts := by
  have ends (text : String) : (text ++ " ()").toList.getLast? = some ')' := by simp
  have noReplies : (counted engagement.replies "reply" "replies").toList.getLast? ≠ some ')' := by
    unfold counted
    split_ifs <;> simp
  have noSats : (toString engagement.sats ++ " sats").toList.getLast? ≠ some ')' := by simp
  intro shown
  rw [parts, List.mem_append, List.mem_append] at shown
  rcases shown with (inReplies | inReactions) | inSats
  · split_ifs at inReplies
    · cases inReplies
    · exact noReplies (List.mem_singleton.mp inReplies ▸ ends _)
  · split_ifs at inReactions with never
    · cases inReactions
    · have sizes := congrArg String.length (List.mem_singleton.mp inReactions)
      have empty : (breakdown engagement.reactionsByContent).length = 0 := by
        have whole : " ()".length = " (".length + ")".length := rfl
        simp only [String.length_append, whole] at sizes
        omega
      exact tallies.breakdown_ne_empty never (String.length_eq_zero_iff.mp empty)
  · split_ifs at inSats
    · cases inSats
    · exact noSats (List.mem_singleton.mp inSats ▸ ends _)

end Engagement

/-! ## Tallies of a store -/

/-- The notes, reactions and receipts of a store that name an event.  Each is one of them once,
however many of its tags name the event. -/
def MemoryStore.engagedWith (store : MemoryStore) (id : String) : Finset Event :=
  {event ∈ store.events.toFinset |
    (event.kind = 1 ∨ event.kind = 7 ∨ event.kind = 9735) ∧ event.HasTag "e" id}

namespace Engagement

theorem accepts_filterFor_iff {id : String} {event : Event} :
    (filterFor id).accepts event = true ↔
      (event.kind = 1 ∨ event.kind = 7 ∨ event.kind = 9735) ∧ event.HasTag "e" id := by
  simp [Filter.accepts, filterFor, Filter.acceptsTag, KnownKind.code, Event.mem_tagValues_iff]

theorem toFinset_select_filterFor (store : MemoryStore) (id : String) :
    (store.select (filterFor id)).toFinset = store.engagedWith id := by
  ext event
  rw [List.mem_toFinset, MemoryStore.select_eq_cut_ranked, MemoryStore.engagedWith,
    Finset.mem_filter, List.mem_toFinset, ← accepts_filterFor_iff]
  exact store.mem_ranked_iff (filterFor id)

theorem nodup_select_filterFor (store : MemoryStore) (id : String) :
    (store.select (filterFor id)).Nodup :=
  (store.pairwise_ranked (filterFor id)).nodup

theorem answer_tally (store : MemoryStore) {context : LookupContext} (live : context.check = .ok ())
    (id : String) :
    (tally id).answer (store.answers context) = ofEvents (store.select (filterFor id)) := by
  rw [tally, Lookup.answer_bind, Lookup.answer_pure, store.answer_eventsOrNone live]

theorem countP_eq_card {events : List Event} (distinct : events.Nodup) (property : Event → Prop)
    [DecidablePred property] :
    events.countP (fun event => property event) = (events.toFinset.filter property).card := by
  rw [List.countP_eq_length_filter, ← List.toFinset_card_of_nodup (distinct.filter _),
    List.toFinset_filter]
  simp only [decide_eq_true_eq]

/-- A tally of a store counts the notes, the reactions and the reactions of each key among the
events that name the one in question, and adds up their payments to at most 64 bits.  Nothing else
is counted, nothing twice, and no reaction without a key.  Visited in any other order, the same
events give the same counts.  The line shows what there is of replies, reactions and payments; with
reactions it says which, and without any of these there is no line. -/
theorem tally_counts_exactly (store : MemoryStore) {context : LookupContext}
    (live : context.check = .ok ()) (id : String) :
    let engagement := (tally id).answer (store.answers context)
    let members := store.engagedWith id
    let kinds := ", ".intercalate
      (engagement.reactionsByContent.map fun entry => entry.1 ++ " " ++ toString entry.2)
    let shown :=
      (if engagement.replies = 0 then []
        else [toString engagement.replies ++ " " ++
          if engagement.replies = 1 then "reply" else "replies"]) ++
      (if engagement.reactions = 0 then []
        else [(toString engagement.reactions ++ " " ++
          if engagement.reactions = 1 then "reaction" else "reactions") ++ " (" ++ kinds ++ ")"]) ++
      if engagement.zapMsats = 0 then [] else [toString (engagement.zapMsats / 1000) ++ " sats"]
    engagement.replies = (members.filter fun event => event.kind = 1).card ∧
    engagement.reactions = (members.filter fun event => event.kind = 7).card ∧
    engagement.reactions = (engagement.reactionsByContent.map Prod.snd).sum ∧
    (engagement.reactionsByContent.map Prod.fst).Nodup ∧
    (∀ key number, (key, number) ∈ engagement.reactionsByContent ↔
      0 < number ∧ number = (members.filter fun event =>
        event.kind = 7 ∧ (Text.trimmed? event.content).getD "+" = key).card) ∧
    engagement.zapMsats =
      min (2 ^ 64 - 1) (∑ receipt ∈ members with receipt.kind = 9735, zapAmount receipt) ∧
    (∀ visited : List Event, visited.Nodup → visited.toFinset = members →
      ofEvents visited = engagement) ∧
    engagement.line? =
      (if engagement.replies = 0 ∧ engagement.reactions = 0 ∧ engagement.zapMsats = 0 then none
        else some (" · ".intercalate shown)) ∧
    (engagement.reactions ≠ 0 → kinds ≠ "") ∧
    counted engagement.reactions "reaction" "reactions" ++ " ()" ∉ engagement.parts := by
  intro engagement members kinds shown
  let found := store.select (filterFor id)
  have distinct : found.Nodup := nodup_select_filterFor store id
  have same : found.toFinset = members := toFinset_select_filterFor store id
  have answered : engagement = ofEvents found := answer_tally store live id
  have tallies : engagement.Tallies found := answered ▸ tallies_ofEvents found
  have parts : engagement.parts = shown := by
    simp only [Engagement.parts, counted_eq]
    rfl
  refine ⟨?_, ?_, tallies.total.symm, tallies.proper.nodup_keys, fun key number => ?_, ?_, ?_,
    parts ▸ engagement.line?_eq, tallies.breakdown_ne_empty, tallies.not_mem_parts⟩
  · rw [tallies.replies, countP_eq_card distinct, same]
  · rw [tallies.reactions, countP_eq_card distinct, same]
  · rw [tallies.proper.mem_iff, tallies.amountOf, countP_eq_card distinct, same]
    exact and_congr_right fun _ => eq_comm
  · rw [tallies.zapMsats, ← List.sum_toFinset zapAmount (distinct.filter _), List.toFinset_filter,
      same]
    simp only [decide_eq_true_eq]
    rfl
  · intro visited visitedOnce sameVisited
    apply (tallies_ofEvents visited).unique tallies
    exact (List.perm_ext_iff_of_nodup visitedOnce distinct).mpr fun event => by
      rw [← List.mem_toFinset, sameVisited, ← same, List.mem_toFinset]

/-- A note that names the event twice, two likes of which one is blank, and two payments that are
together more than 64 bits hold; a reaction to another event is left out. -/
theorem tally_counts_exactly_saturated :
    let note : Event :=
      { id := "n", pubkey := "p", kind := 1, createdAt := 1, tags := [["e", "x"], ["e", "x"]] }
    let like : Event :=
      { id := "a", pubkey := "p", kind := 7, createdAt := 1, content := " + ", tags := [["e", "x"]] }
    let blank := { like with id := "b", content := " " }
    let other := { like with id := "c", tags := [["e", "y"]] }
    let request := "\x7b\"tags\":[[\"amount\",\"18446744073709551615\"]]\x7d"
    let zap : Event :=
      { id := "z", pubkey := "p", kind := 9735, createdAt := 2,
        tags := [["e", "x"], ["description", request]] }
    let store := MemoryStore.empty.insertAll [note, like, blank, other, zap, { zap with id := "y" }]
    let engagement := (tally "x").answer (store.answers .background)
    LookupContext.background.check = .ok () ∧ (store.engagedWith "x").card = 5 ∧
      engagement.replies = 1 ∧ engagement.reactions = 2 ∧
      ("+", 2) ∈ engagement.reactionsByContent ∧ engagement.zapMsats = 2 ^ 64 - 1 ∧
      engagement.line? = some "1 reply · 2 reactions (+ 2) · 18446744073709551 sats" := by
  intro note like blank other request zap store engagement
  obtain ⟨replies, reactions, _, _, entries, zaps, inAnyOrder, line, _, _⟩ :=
    tally_counts_exactly store (rfl : LookupContext.background.check = .ok ()) "x"
  have visited := inAnyOrder [zap, { zap with id := "y" }, blank, like, note] (by decide +kernel)
    (by decide +kernel)
  rw [← visited] at line
  refine ⟨rfl, by decide +kernel, replies.trans (by decide +kernel),
    reactions.trans (by decide +kernel), (entries "+" 2).mpr (by decide +kernel),
    zaps.trans (by decide +kernel), ?_⟩
  exact (congrArg line? visited.symm).trans (line.trans (by decide +kernel))

end Engagement

end NostrCapsule
