import NostrCapsule.Proofs.Event.Tags
import NostrCapsule.Proofs.Reference.Consultation
import NostrCapsule.Proofs.Store.Foremost

/-!
Contract: names while a store grows.

A name is made of the first event that answers the question about its target.  So an event that
arrives changes the name only if it could answer that question, and comes before all stored events
that could.  What the events say does not matter: a profile without a name keeps the place of an
older one with a name.

Owns:
- `Event.IsProfileOf` and `Event.IsAt`, the events that can answer for an author and an address;
- the three names after a row of insertions, and `Naming.precedes_all_of_name_changed`.

Does not own: the names themselves.
-/

namespace NostrCapsule

/-! ## The events for a name -/

def Event.IsProfileOf (event : Event) (pubkey : String) : Prop :=
  event.kind = 0 ∧ event.pubkey = pubkey

/-- An event of the author and the kind of an address, with a tag for its identifier. -/
def Event.IsAt (event : Event) (coordinates : Coordinates) : Prop :=
  event.pubkey = coordinates.author.text ∧ event.kind.toNat = coordinates.kind.toNat ∧
    event.HasTag "d" coordinates.identifier

namespace Naming

variable {store : MemoryStore} {event : Event} {filter : Filter} {coordinates : Coordinates}
  {pubkey id : String}

theorem accepts_profile_iff :
    (Filter.byAuthor pubkey .metadata 1).accepts event = true ↔ event.IsProfileOf pubkey := by
  simp [Filter.accepts, Filter.byAuthor, KnownKind.code, Event.IsProfileOf, and_comm]

theorem accepts_address_iff (asked : addressFilter? coordinates = some filter) :
    filter.accepts event = true ↔ event.IsAt coordinates := by
  unfold addressFilter? at asked
  split at asked
  · next possible =>
      cases asked
      have kinds : event.kind = coordinates.kind.toUInt16 ↔
          event.kind.toNat = coordinates.kind.toNat := by
        rw [← UInt16.toNat_inj, UInt32.toNat_toUInt16, Nat.mod_eq_of_lt possible]
      simp [Filter.accepts, Filter.acceptsTag, kinds, Event.mem_tagValues_iff, Event.IsAt,
        and_assoc]
  · cases asked

theorem limit_addressFilter? (asked : addressFilter? coordinates = some filter) :
    filter.limit = some 1 := by
  unfold addressFilter? at asked
  split at asked <;> cases asked
  rfl

/-! ## Insertions -/

section Insertions

variable {context : LookupContext} (live : context.check = .ok ()) (events : List Event)

include live

theorem answer_firstMatch_insertAll (asksForSome : filter.limit ≠ some 0)
    (behind : ∀ event ∈ events, ¬ store.Displaces filter event) :
    (Lookup.firstMatch filter).answer ((store.insertAll events).answers context) =
      (Lookup.firstMatch filter).answer (store.answers context) := by
  rw [MemoryStore.answer_firstMatch _ live, MemoryStore.answer_firstMatch _ live,
    MemoryStore.head?_select_insertAll asksForSome behind]

theorem answer_profileName_insertAll
    (behind : ∀ event ∈ events, ¬ store.Displaces (.byAuthor pubkey .metadata 1) event) :
    (profileName pubkey).answer ((store.insertAll events).answers context) =
      (profileName pubkey).answer (store.answers context) := by
  have asksForSome : (Filter.byAuthor pubkey .metadata 1).limit ≠ some 0 := nofun
  rw [profileName_eq, Lookup.answer_bind, Lookup.answer_bind,
    answer_firstMatch_insertAll live events asksForSome behind]
  rfl

theorem answer_eventName_insertAll (others : ∀ event ∈ events, event.id ≠ id) :
    (eventName id).answer ((store.insertAll events).answers context) =
      (eventName id).answer (store.answers context) := by
  have asksForSome : (Filter.byId id).limit ≠ some 0 := nofun
  rw [eventName, Lookup.answer_bind, Lookup.answer_bind, Lookup.fetchEvent,
    answer_firstMatch_insertAll live events asksForSome]
  · rfl
  · intro event member displaces
    exact others event member (MemoryStore.accepts_byId_iff.mp displaces.1)

theorem answer_addressName_insertAll
    (behind : ∀ filter, addressFilter? coordinates = some filter →
      ∀ event ∈ events, ¬ store.Displaces filter event) :
    (addressName coordinates).answer ((store.insertAll events).answers context) =
      (addressName coordinates).answer (store.answers context) := by
  unfold addressName
  cases asked : addressFilter? coordinates with
  | none => rfl
  | some filter =>
      have asksForSome : filter.limit ≠ some 0 := by
        rw [limit_addressFilter? asked]
        nofun
      dsimp only
      rw [Lookup.answer_bind, Lookup.answer_bind,
        answer_firstMatch_insertAll live events asksForSome (behind filter asked)]
      rfl

end Insertions

/-- An event that arrives changes the name of an author only as a profile of theirs that comes
before all that are stored, the name of an event only if it is that event, and the name of an
address only as an event at that address that comes before all that are stored.  Profiles that each
come behind a stored one leave the name of their author as it is, in any order and number and
whatever else arrives with them. -/
theorem precedes_all_of_name_changed (store : MemoryStore) {context : LookupContext}
    (live : context.check = .ok ()) (event : Event) :
    let before := store.answers context
    let after := (store.insert event).answers context
    (∀ pubkey, (profileName pubkey).answer after ≠ (profileName pubkey).answer before →
      event.IsProfileOf pubkey ∧
        ∀ stored ∈ store.events, stored.IsProfileOf pubkey → event.Precedes stored) ∧
    (∀ id, (eventName id).answer after ≠ (eventName id).answer before → event.id = id) ∧
    (∀ coordinates,
      (addressName coordinates).answer after ≠ (addressName coordinates).answer before →
      event.IsAt coordinates ∧
        ∀ stored ∈ store.events, stored.IsAt coordinates → event.Precedes stored) ∧
    ∀ pubkey (arriving : List Event),
      (∀ older ∈ arriving, older.IsProfileOf pubkey →
        ∃ stored ∈ store.events, stored.IsProfileOf pubkey ∧ stored.Precedes older) →
      (profileName pubkey).answer ((store.insertAll arriving).answers context) =
        (profileName pubkey).answer before := by
  intro before after
  -- To insert one event is to insert a row of one.
  refine ⟨fun pubkey changed => ?_, fun id changed => ?_, fun coordinates changed => ?_,
    fun pubkey arriving older => ?_⟩
  · by_contra behind
    refine changed (answer_profileName_insertAll live [event] ?_)
    rw [List.forall_mem_singleton, MemoryStore.Displaces]
    simpa only [accepts_profile_iff] using behind
  · by_contra other
    exact changed (answer_eventName_insertAll live [event]
      (List.forall_mem_singleton.mpr other))
  · by_contra behind
    refine changed (answer_addressName_insertAll live [event] fun filter asked => ?_)
    rw [List.forall_mem_singleton, MemoryStore.Displaces]
    simpa only [accepts_address_iff asked] using behind
  · apply answer_profileName_insertAll live arriving
    rintro event member ⟨accepted, precedes⟩
    obtain ⟨stored, kept, isProfile, first⟩ :=
      older event member (accepts_profile_iff.mp accepted)
    exact first.asymm (precedes stored kept (accepts_profile_iff.mpr isProfile))

/-- A profile that cannot be read keeps the place of one with a name, of the same time and with a
larger identifier, and of an older one that arrives after that. -/
theorem precedes_all_of_name_changed_unreadable :
    let unreadable : Event := { id := "b", pubkey := "p", kind := 0, createdAt := 5, content := "?" }
    let named : Event := { unreadable with id := "c", content := "\x7b\"name\":\"n\"\x7d" }
    let older : Event := { named with id := "a", createdAt := 4 }
    let store := MemoryStore.empty.insert unreadable
    let nameIn := fun (store : MemoryStore) =>
      (profileName "p").answer (store.answers .background)
    LookupContext.background.check = .ok () ∧ nameIn store = "p" ∧
      nameIn (store.insert named) = "p" ∧ nameIn (store.insertAll [named, older]) = "p" := by
  intro unreadable named older store nameIn
  have live : LookupContext.background.check = .ok () := rfl
  have alone : nameIn store = "p" := by decide +kernel
  obtain ⟨profiles, _, _, rows⟩ := precedes_all_of_name_changed store live named
  refine ⟨live, alone, ?_, ?_⟩
  · by_contra changed
    have isProfile : unreadable.IsProfileOf "p" := ⟨rfl, rfl⟩
    have displaced := profiles "p" fun same => changed (same.trans alone)
    exact absurd (displaced.2 unreadable (by decide) isProfile) (by decide)
  · rw [← alone]
    apply rows
    intro event member _
    refine ⟨unreadable, by decide, ⟨rfl, rfl⟩, ?_⟩
    rcases List.mem_pair.mp member with rfl | rfl <;> decide

end Naming

end NostrCapsule
