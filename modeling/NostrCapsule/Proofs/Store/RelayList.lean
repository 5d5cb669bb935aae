import NostrCapsule.Proofs.Store.Order

/-!
Contract: the relay list of an author, and stores that cannot be told apart.

The relays of an author come from a choice that is made over the events in the order of their
insertion.  That order decides among relay lists of one time only; everything else that a store
says comes from its order of answers.

Owns:
- `Event.IsLatestOf`, and that the chosen relay list is the latest one;
- `MemoryStore.IsNewestList`, and how far the relays depend on the order of insertion;
- `MemoryStore.Untied`, by which no author has two newest relay lists;
- `answers_eq_of_reordered`.

Does not own: what relays are used for.
-/

namespace NostrCapsule

/-! ## The latest of a list -/

/-- The last one of those events of a list that no other is newer than. -/
def Event.IsLatestOf (events : List Event) (latest : Event) : Prop :=
  ∃ before after, events = before ++ latest :: after ∧
    (∀ other ∈ before, other.createdAt ≤ latest.createdAt) ∧
    ∀ other ∈ after, other.createdAt < latest.createdAt

namespace Event.IsLatestOf

variable {events : List Event} {latest : Event}

theorem mem (isLatest : latest.IsLatestOf events) : latest ∈ events := by
  obtain ⟨before, after, rfl, _⟩ := isLatest
  exact List.mem_append_right before List.mem_cons_self

theorem createdAt_le (isLatest : latest.IsLatestOf events) {other : Event}
    (member : other ∈ events) : other.createdAt ≤ latest.createdAt := by
  obtain ⟨before, after, rfl, earlier, later⟩ := isLatest
  rcases List.mem_append.mp member with inFront | behind
  · exact earlier other inFront
  · rcases List.mem_cons.mp behind with rfl | behind
    · exact Int.le_refl _
    · exact Int.le_of_lt (later other behind)

end Event.IsLatestOf

namespace MemoryStore

def relayLists (store : MemoryStore) (pubkey : String) : List Event :=
  store.events.filter fun event => event.isKind .relayList && event.pubkey == pubkey

def newer (latest : Option Event) (event : Event) : Option Event :=
  match latest with
  | none => some event
  | some best => if best.createdAt ≤ event.createdAt then some event else some best

theorem relayList?_eq_foldl (store : MemoryStore) (pubkey : String) :
    store.relayList? pubkey = (store.relayLists pubkey).foldl newer none := rfl

theorem exists_foldl_newer (first : Event) (rest : List Event) :
    ∃ latest, rest.foldl newer (some first) = some latest ∧
      latest.IsLatestOf (first :: rest) := by
  induction rest generalizing first with
  | nil => exact ⟨first, rfl, [], [], rfl, by simp, by simp⟩
  | cons second others inductionHypothesis =>
      rw [List.foldl_cons, newer]
      by_cases replaced : first.createdAt ≤ second.createdAt
      · obtain ⟨latest, folded, isLatest⟩ := inductionHypothesis second
        have notOlder := isLatest.createdAt_le List.mem_cons_self
        obtain ⟨before, after, split, earlier, later⟩ := isLatest
        rw [if_pos replaced]
        refine ⟨latest, folded, first :: before, after, by rw [split]; rfl, ?_, later⟩
        exact List.forall_mem_cons.mpr ⟨Int.le_trans replaced notOlder, earlier⟩
      · obtain ⟨latest, folded, isLatest⟩ := inductionHypothesis first
        have notOlder := isLatest.createdAt_le List.mem_cons_self
        obtain ⟨before, after, split, earlier, later⟩ := isLatest
        rw [if_neg replaced]
        -- The second event is passed over; it goes to the side of the latest on which it stands.
        cases before with
        | nil =>
            cases split
            refine ⟨first, folded, [], second :: others, rfl, by simp, ?_⟩
            exact List.forall_mem_cons.mpr ⟨Int.not_le.mp replaced, later⟩
        | cons _ before =>
            cases split
            refine ⟨latest, folded, first :: second :: before, after, rfl, ?_, later⟩
            rw [List.forall_mem_cons] at earlier ⊢
            exact ⟨earlier.1, List.forall_mem_cons.mpr ⟨by omega, earlier.2⟩⟩

/-- Events that are older than the latest one change nothing. -/
theorem foldl_newer_of_lt {latest : Event} {after : List Event}
    (older : ∀ other ∈ after, other.createdAt < latest.createdAt) :
    after.foldl newer (some latest) = some latest := by
  induction after with
  | nil => rfl
  | cons other rest inductionHypothesis =>
      obtain ⟨otherOlder, restOlder⟩ := List.forall_mem_cons.mp older
      rw [List.foldl_cons, newer, if_neg (Int.not_le.mpr otherOlder)]
      exact inductionHypothesis restOlder

theorem foldl_newer_of_isLatestOf {events : List Event} {latest : Event}
    (isLatest : latest.IsLatestOf events) : events.foldl newer none = some latest := by
  obtain ⟨before, after, rfl, notNewer, older⟩ := isLatest
  rw [List.foldl_append, List.foldl_cons]
  cases before with
  | nil => exact foldl_newer_of_lt older
  | cons first rest =>
      obtain ⟨best, folded, isBest⟩ := exists_foldl_newer first rest
      rw [List.foldl_cons, newer, folded, newer, if_pos (notNewer best isBest.mem)]
      exact foldl_newer_of_lt older

section RelayList

variable (store : MemoryStore) (pubkey : String)

theorem relayList?_eq_none_iff : store.relayList? pubkey = none ↔ store.relayLists pubkey = [] := by
  rw [relayList?_eq_foldl]
  cases store.relayLists pubkey with
  | nil => exact ⟨fun _ => rfl, fun _ => rfl⟩
  | cons first rest =>
      obtain ⟨latest, folded, _⟩ := exists_foldl_newer first rest
      rw [List.foldl_cons, newer, folded]
      exact ⟨nofun, nofun⟩

theorem isLatestOf_of_relayList? {list : Event} (chosen : store.relayList? pubkey = some list) :
    list.IsLatestOf (store.relayLists pubkey) := by
  rw [relayList?_eq_foldl] at chosen
  cases listed : store.relayLists pubkey with
  | nil =>
      rw [listed] at chosen
      cases chosen
  | cons first rest =>
      obtain ⟨latest, folded, isLatest⟩ := exists_foldl_newer first rest
      rw [listed, List.foldl_cons, newer, folded] at chosen
      cases chosen
      exact isLatest

theorem relayList?_eq_some_iff {list : Event} :
    store.relayList? pubkey = some list ↔ list.IsLatestOf (store.relayLists pubkey) :=
  ⟨store.isLatestOf_of_relayList? pubkey, fun isLatest => foldl_newer_of_isLatestOf isLatest⟩

end RelayList

theorem mem_relayLists_iff {store : MemoryStore} {pubkey : String} {event : Event} :
    event ∈ store.relayLists pubkey ↔
      event ∈ store.events ∧ event.isKind .relayList = true ∧ event.pubkey = pubkey := by
  rw [relayLists, List.mem_filter, Bool.and_eq_true, beq_iff_eq]

/-! ## Newest lists -/

section NewestList

variable {store : MemoryStore} {pubkey : String} {list other : Event}

/-- A relay list of an author than which none of theirs is newer. -/
structure IsNewestList (store : MemoryStore) (pubkey : String) (list : Event) : Prop where
  listed : list ∈ store.relayLists pubkey
  newest : ∀ other ∈ store.relayLists pubkey, other.createdAt ≤ list.createdAt

theorem IsNewestList.createdAt_eq (left : store.IsNewestList pubkey list)
    (right : store.IsNewestList pubkey other) : list.createdAt = other.createdAt :=
  Int.le_antisymm (right.newest list left.listed) (left.newest other right.listed)

theorem IsNewestList.of_perm {reordered : MemoryStore} (same : store.events.Perm reordered.events)
    (newest : reordered.IsNewestList pubkey list) : store.IsNewestList pubkey list := by
  have permuted : (store.relayLists pubkey).Perm (reordered.relayLists pubkey) := same.filter _
  exact ⟨permuted.mem_iff.mpr newest.listed,
    fun other member => newest.newest other (permuted.mem_iff.mp member)⟩

theorem isNewestList_of_relayList? (chosen : store.relayList? pubkey = some list) :
    store.IsNewestList pubkey list := by
  have latest := store.isLatestOf_of_relayList? pubkey chosen
  exact ⟨latest.mem, fun _ member => latest.createdAt_le member⟩

theorem IsNewestList.exists_relayList? (newest : store.IsNewestList pubkey list) :
    ∃ latest, store.relayList? pubkey = some latest := by
  rw [← Option.ne_none_iff_exists', ne_eq, relayList?_eq_none_iff]
  exact List.ne_nil_of_mem newest.listed

/-- Any newest list could have been the last to come. -/
theorem IsNewestList.exists_inserted_last (newest : store.IsNewestList pubkey list) :
    ∃ reordered : MemoryStore, store.events.Perm reordered.events ∧
      reordered.relayOverrides = store.relayOverrides ∧
      reordered.relayList? pubkey = some list := by
  obtain ⟨stored, isList, author⟩ := mem_relayLists_iff.mp newest.listed
  have permuted : store.events.Perm (store.events.erase list ++ [list]) :=
    (List.perm_cons_erase stored).trans (List.perm_append_singleton _ _).symm
  let reordered : MemoryStore :=
    { store with
      events := store.events.erase list ++ [list]
      nodup_ids := (permuted.map Event.id).nodup_iff.mp store.nodup_ids
      ids_perm := store.ids_perm.trans (permuted.map Event.id) }
  let isListed := fun event : Event => event.isKind .relayList && event.pubkey == pubkey
  have listedLast : isListed list = true := by
    simp only [isListed, isList, author, beq_self_eq_true, Bool.and_self]
  have lists : reordered.relayLists pubkey =
      (store.events.erase list).filter isListed ++ [list] := by
    show (store.events.erase list ++ [list]).filter isListed = _
    rw [List.filter_append, List.filter_cons_of_pos listedLast, List.filter_nil]
  refine ⟨reordered, permuted, rfl, (relayList?_eq_some_iff _ _).mpr ?_⟩
  rw [lists]
  refine ⟨_, [], rfl, fun other member => ?_, List.forall_mem_nil _⟩
  exact newest.newest other ((List.erase_sublist.filter isListed).mem member)

theorem readRelays_of_unset (unset : store.relayOverrides.lookup pubkey = none) :
    store.readRelays pubkey = ((store.relayList? pubkey).map readRelaysOf).getD [] := by
  rw [readRelays, unset]
  cases store.relayList? pubkey <;> rfl

/-- The relays keep the same however the events were inserted, if and only if all newest lists of
the author have the same. -/
theorem readRelays_of_reordered_iff (unset : store.relayOverrides.lookup pubkey = none) :
    (∀ reordered : MemoryStore, store.events.Perm reordered.events →
      reordered.relayOverrides.lookup pubkey = none →
        reordered.readRelays pubkey = store.readRelays pubkey) ↔
      ∀ left right, store.IsNewestList pubkey left → store.IsNewestList pubkey right →
        readRelaysOf left = readRelaysOf right := by
  constructor
  · intro steady left right leftNewest rightNewest
    have readOf {list : Event} (newest : store.IsNewestList pubkey list) :
        readRelaysOf list = store.readRelays pubkey := by
      obtain ⟨reordered, same, overrides, last⟩ := newest.exists_inserted_last
      have unsetToo : reordered.relayOverrides.lookup pubkey = none := overrides ▸ unset
      rw [← steady reordered same unsetToo, readRelays_of_unset unsetToo, last]
      rfl
    exact (readOf leftNewest).trans (readOf rightNewest).symm
  · intro alike reordered same unsetToo
    rw [readRelays_of_unset unset, readRelays_of_unset unsetToo]
    cases chosen : store.relayList? pubkey with
    | some list =>
        have newest := isNewestList_of_relayList? chosen
        obtain ⟨other, chosenToo⟩ := (newest.of_perm same.symm).exists_relayList?
        rw [chosenToo]
        exact alike other list ((isNewestList_of_relayList? chosenToo).of_perm same) newest
    | none =>
        cases chosenToo : reordered.relayList? pubkey with
        | none => rfl
        | some other =>
            have newest := (isNewestList_of_relayList? chosenToo).of_perm same
            obtain ⟨latest, found⟩ := newest.exists_relayList?
            rw [chosen] at found
            cases found

end NewestList

/-! ## Order of insertion -/

/-- No author whose relays were not set has two relay lists of one time. -/
def Untied (store : MemoryStore) : Prop :=
  ∀ first ∈ store.events, ∀ second ∈ store.events,
    first.isKind .relayList = true → second.isKind .relayList = true →
      first.pubkey = second.pubkey → store.relayOverrides.lookup first.pubkey = none →
        first.createdAt = second.createdAt → first = second

instance (store : MemoryStore) : Decidable store.Untied := by
  unfold Untied
  infer_instance

section Reordered

variable {left right : MemoryStore} {pubkey : String}

theorem readRelays_eq_of_reordered (same : left.events.Perm right.events)
    (overrides : ∀ pubkey,
      left.relayOverrides.lookup pubkey = right.relayOverrides.lookup pubkey)
    (untied : left.Untied) : left.readRelays pubkey = right.readRelays pubkey := by
  cases set : left.relayOverrides.lookup pubkey with
  | some relays => rw [readRelays, readRelays, ← overrides, set]
  | none =>
      have unset : right.relayOverrides.lookup pubkey = none := overrides pubkey ▸ set
      refine ((readRelays_of_reordered_iff set).mpr ?_ right same unset).symm
      intro first second firstNewest secondNewest
      obtain ⟨stored, isList, author⟩ := mem_relayLists_iff.mp firstNewest.listed
      obtain ⟨storedToo, isListToo, authorToo⟩ := mem_relayLists_iff.mp secondNewest.listed
      rw [untied first stored second storedToo isList isListToo (author.trans authorToo.symm)
        (author ▸ set) (firstNewest.createdAt_eq secondNewest)]

/-- Two stores that keep the same events and have the same relays set answer alike. -/
theorem answers_eq_of_reordered (same : left.events.Perm right.events)
    (overrides : ∀ pubkey,
      left.relayOverrides.lookup pubkey = right.relayOverrides.lookup pubkey)
    (untied : left.Untied) (context : LookupContext) :
    left.answers context = right.answers context := by
  have selected : left.select = right.select := by
    funext filter
    rw [select_eq_cut_ranked, select_eq_cut_ranked, ranked_eq_of_perm same]
  have relays : left.readRelays = right.readRelays := by
    funext pubkey
    exact readRelays_eq_of_reordered same overrides untied
  unfold answers
  rw [selected, relays]

end Reordered

end MemoryStore

end NostrCapsule
