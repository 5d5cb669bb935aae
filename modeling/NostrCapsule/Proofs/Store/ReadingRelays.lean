import NostrCapsule.Proofs.Store.Foremost
import NostrCapsule.Proofs.Store.RelayList

/-!
Contract: which relay list the relays of an author are read from, and which of its tags.

The relays come from a newest relay list of the author, and so does the answer to the question for
those lists.  Among lists of one time they part: the answer begins with the smallest identifier,
the relays come from the list inserted last.  Of that list every relay without a mark is read and
every relay marked for reading; one with a mark of its own is left out.

Owns:
- `Event.relaysNotForWriting`, and `Event.HasPlainMarks`, under which these are the relays read;
- `MemoryStore.relayListsOf`, the question for the relay lists of an author;
- `MemoryStore.readRelays_of_latest`.

Does not own: relays that were set for an author.
-/

namespace NostrCapsule

/-! ## Marks -/

namespace Event

variable {list : Event}

/-- The relays of a list, each with its mark if it has one. -/
def markedRelays (list : Event) : List (String × Option String) :=
  (list.tagsNamed "r").filterMap fun tag => tag[1]?.map fun relay => (relay, tag[2]?)

def relaysNotForWriting (list : Event) : List String :=
  (list.markedRelays.filter fun entry => entry.2 ≠ some "write").map Prod.fst

/-- Each relay of a list is marked for reading, or for writing, or not at all. -/
def HasPlainMarks (list : Event) : Prop :=
  ∀ entry ∈ list.markedRelays, entry.2 = none ∨ entry.2 = some "read" ∨ entry.2 = some "write"

instance (list : Event) : Decidable list.HasPlainMarks := by
  unfold HasPlainMarks
  infer_instance

def marksReading (mark? : Option String) : Bool :=
  mark?.all (· == "read")

theorem readRelaysOf_eq :
    MemoryStore.readRelaysOf list =
      ((list.markedRelays.filter fun entry => entry.2 ≠ some "write").filter
        fun entry => marksReading entry.2).map Prod.fst := by
  unfold MemoryStore.readRelaysOf markedRelays marksReading
  rw [List.filter_filter, List.filter_filterMap, List.map_filterMap, List.filterMap_filter]
  congr 1
  funext tag
  cases value : tag[1]? with
  | none => simp
  | some relay =>
      cases marked : tag[2]? with
      | none => simp
      | some mark => by_cases reading : mark = "read" <;> simp [reading, Option.filter]

theorem readRelaysOf_sublist : (MemoryStore.readRelaysOf list).Sublist list.relaysNotForWriting := by
  rw [readRelaysOf_eq]
  exact List.filter_sublist.map Prod.fst

/-- What is read of a list are the relays not for writing, if there are no other marks. -/
theorem readRelaysOf_eq_iff :
    MemoryStore.readRelaysOf list = list.relaysNotForWriting ↔ list.HasPlainMarks := by
  have whole : MemoryStore.readRelaysOf list = list.relaysNotForWriting ↔
      ∀ entry ∈ list.markedRelays, entry.2 ≠ some "write" → marksReading entry.2 = true := by
    rw [readRelaysOf_eq, relaysNotForWriting]
    constructor
    · intro same
      have sizes := congrArg List.length same
      rw [List.length_map, List.length_map, List.length_filter_eq_length_iff] at sizes
      simpa using sizes
    · intro reading
      rw [List.filter_eq_self.mpr]
      simpa using reading
  rw [whole, HasPlainMarks]
  refine forall₂_congr fun entry _ => ?_
  cases entry.2 with
  | none => simp [marksReading]
  | some mark => simp [marksReading, or_iff_not_imp_right]

end Event

namespace MemoryStore

variable {store : MemoryStore} {pubkey : String} {list : Event}

/-! ## The question -/

def relayListsOf (pubkey : String) : Filter :=
  { authors := some [pubkey], kinds := some [KnownKind.relayList.code] }

theorem mem_relayLists_iff_accepts :
    list ∈ store.relayLists pubkey ↔
      list ∈ store.events ∧ (relayListsOf pubkey).accepts list = true := by
  rw [mem_relayLists_iff]
  simp [Filter.accepts, relayListsOf, Event.isKind, and_comm]

theorem IsForemost.isNewestList (foremost : store.IsForemost (relayListsOf pubkey) list) :
    store.IsNewestList pubkey list := by
  refine ⟨mem_relayLists_iff_accepts.mpr ⟨foremost.stored, foremost.accepted⟩, ?_⟩
  intro other member
  obtain ⟨stored, accepted⟩ := mem_relayLists_iff_accepts.mp member
  by_cases same : other = list
  · rw [same]
  · rcases foremost.precedes other stored accepted same with newer | ⟨sameTime, _⟩
    · exact Int.le_of_lt newer
    · exact Int.le_of_eq sameTime.symm

theorem head?_select_relayListsOf_eq_none_iff :
    (store.select (relayListsOf pubkey)).head? = none ↔ store.relayLists pubkey = [] := by
  have asksForSome : (relayListsOf pubkey).limit ≠ some 0 := nofun
  rw [head?_select_eq_none_iff asksForSome, List.eq_nil_iff_forall_not_mem]
  simp only [mem_relayLists_iff_accepts, not_and, Bool.not_eq_true]

/-! ## The relays -/

theorem readRelays_answers (store : MemoryStore) {context : LookupContext}
    (live : context.check = .ok ()) (pubkey : String) :
    (store.answers context).readRelays pubkey = store.readRelays pubkey := by
  simp only [answers, live]

/-- The relays of an author without relays set for them are those that a relay list of theirs marks
for reading or does not mark.  The list has the time of the first one that answers the question for
relay lists; it is the first one exactly if no list of that time was inserted after it; and what is
left out of it are just the relays for writing exactly if it has no other marks.  There are no
relays if there is no list.  The order of insertion does not show exactly if all newest lists give
the same relays. -/
theorem readRelays_of_latest (store : MemoryStore) {context : LookupContext}
    (live : context.check = .ok ()) {pubkey : String}
    (unset : store.relayOverrides.lookup pubkey = none) :
    let relays := (store.answers context).readRelays pubkey
    let first? := (Lookup.firstMatch (relayListsOf pubkey)).answer (store.answers context)
    (first? = none → relays = []) ∧
    (∀ first, first? = some first → ∃ latest,
      latest.IsLatestOf (store.relayLists pubkey) ∧ latest.createdAt = first.createdAt ∧
      (latest = first ↔ first.IsLatestOf (store.relayLists pubkey)) ∧
      relays = readRelaysOf latest ∧ relays.Sublist latest.relaysNotForWriting ∧
      (relays = latest.relaysNotForWriting ↔ latest.HasPlainMarks)) ∧
    ((∀ reordered : MemoryStore, store.events.Perm reordered.events →
      reordered.relayOverrides.lookup pubkey = none →
        (reordered.answers context).readRelays pubkey = relays) ↔
      ∀ left right, store.IsNewestList pubkey left → store.IsNewestList pubkey right →
        readRelaysOf left = readRelaysOf right) := by
  intro relays first?
  have asksForSome : (relayListsOf pubkey).limit ≠ some 0 := nofun
  have answered : first? = (store.select (relayListsOf pubkey)).head? :=
    store.answer_firstMatch live _
  have read : relays = ((store.relayList? pubkey).map readRelaysOf).getD [] :=
    (store.readRelays_answers live pubkey).trans (readRelays_of_unset unset)
  refine ⟨fun none => ?_, fun first found => ?_, ?_⟩
  · rw [answered, head?_select_relayListsOf_eq_none_iff] at none
    rw [read, (store.relayList?_eq_none_iff pubkey).mpr none]
    rfl
  · rw [answered, head?_select_eq_some_iff asksForSome] at found
    obtain ⟨latest, chosen⟩ := found.isNewestList.exists_relayList?
    have readLatest : relays = readRelaysOf latest := by
      rw [read, chosen]
      rfl
    refine ⟨latest, store.isLatestOf_of_relayList? pubkey chosen,
      (isNewestList_of_relayList? chosen).createdAt_eq found.isNewestList, ?_, readLatest, ?_, ?_⟩
    · rw [← relayList?_eq_some_iff, chosen, Option.some.injEq]
    · exact readLatest ▸ Event.readRelaysOf_sublist
    · exact readLatest ▸ Event.readRelaysOf_eq_iff
  · simp only [relays, readRelays_answers _ live]
    exact readRelays_of_reordered_iff unset

/-- Two lists of one time: the relays depend on which of them is inserted last. -/
theorem readRelays_of_latest_tied :
    let first : Event :=
      { id := "a", pubkey := "p", kind := 10002, createdAt := 1,
        tags := [["r", "wss://a"], ["r", "wss://w", "write"]] }
    let second := { first with id := "b", tags := [["r", "wss://b", "read"], ["r"]] }
    let store := MemoryStore.empty.insertAll [first, second]
    LookupContext.background.check = .ok () ∧ store.relayOverrides.lookup "p" = none ∧
      (store.answers .background).readRelays "p" = ["wss://b"] ∧
      ¬ ∀ reordered : MemoryStore, store.events.Perm reordered.events →
        reordered.relayOverrides.lookup "p" = none →
          (reordered.answers .background).readRelays "p" = ["wss://b"] := by
  intro first second store
  have live : LookupContext.background.check = .ok () := rfl
  have unset : store.relayOverrides.lookup "p" = none := rfl
  have read : (store.answers .background).readRelays "p" = ["wss://b"] := by decide +kernel
  obtain ⟨_, _, steady⟩ := readRelays_of_latest store live unset
  refine ⟨live, unset, read, fun same => ?_⟩
  have alike := steady.mp (read ▸ same) first second ⟨by decide +kernel, by decide +kernel⟩
    ⟨by decide +kernel, by decide +kernel⟩
  exact absurd alike (by decide +kernel)

/-- The relays are not always those not for writing of the first list that answers: two lists of
one time are enough to tell them apart, and so is one list with a mark of its own. -/
theorem not_readRelays_of_first :
    let readsFirst := fun (store : MemoryStore) (pubkey : String) =>
      (store.answers .background).readRelays pubkey =
        (((Lookup.firstMatch (relayListsOf pubkey)).answer (store.answers .background)).map
          Event.relaysNotForWriting).getD []
    (¬ ∀ (store : MemoryStore) (pubkey : String), store.relayOverrides.lookup pubkey = none →
      (∀ list ∈ store.relayLists pubkey, list.HasPlainMarks) → readsFirst store pubkey) ∧
    ¬ ∀ (store : MemoryStore) (pubkey : String), store.relayOverrides.lookup pubkey = none →
      store.Untied → readsFirst store pubkey := by
  intro readsFirst
  have foremost {store : MemoryStore} (first : Event) (reads : readsFirst store "p")
      (isForemost : store.IsForemost (relayListsOf "p") first) :
      (store.answers .background).readRelays "p" = first.relaysNotForWriting := by
    have asksForSome : (relayListsOf "p").limit ≠ some 0 := nofun
    simp only [readsFirst] at reads
    rw [reads, store.answer_firstMatch rfl, (head?_select_eq_some_iff asksForSome).mpr isForemost]
    rfl
  let first : Event :=
    { id := "a", pubkey := "p", kind := 10002, createdAt := 1, tags := [["r", "wss://a"]] }
  constructor
  · intro claimed
    let second := { first with id := "b", tags := [["r", "wss://b"]] }
    have reads := claimed (.insertAll .empty [first, second]) "p" rfl (by decide +kernel)
    have same := foremost first reads
      ⟨by decide +kernel, by decide +kernel, by decide +kernel⟩
    exact absurd same (by decide +kernel)
  · intro claimed
    let odd := { first with tags := [["r", "wss://a", ""]] }
    have reads := claimed (.insertAll .empty [odd]) "p" rfl (by decide +kernel)
    have same := foremost odd reads
      ⟨by decide +kernel, by decide +kernel, by decide +kernel⟩
    exact absurd same (by decide +kernel)

end MemoryStore

end NostrCapsule
