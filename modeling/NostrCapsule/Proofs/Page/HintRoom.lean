import Mathlib.Algebra.Order.BigOperators.Group.List
import NostrCapsule.Proofs.Page.PortalIdentifier
import NostrCapsule.Store.Loading

/-!
Contract: the read relays of an author change the form of an identifier exactly if there is no room
for them in it.

An identifier has one of two forms, that of an address or that of an event.  Its relays share the
octets of the token with what it names, and where they do not fit the form is given up, not the
relays.  So relays never lead to a better form, and with room for them to no other one.

Owns:
- `HasRoomFor`, when relays fit into a pointer that has none;
- `pointerWith?` and `formOf?`, what an identifier reads as;
- `form_portalIdentifier_eq_iff`.

Does not own: which relays an author has.
-/

namespace NostrCapsule

namespace Pointer

open Payload

/-! ## Room for relays -/

/-- There is room for relays in a pointer without any: one octet counts each of them, and with them
the octets are no more than 631, which is what the characters of a token can hold. -/
structure HasRoomFor (pointer : Pointer) (hints : List String) : Prop where
  short : ∀ hint ∈ hints, hint.utf8ByteSize ≤ 255
  within : pointer.payloadSize + relaysSize hints ≤ 631

variable {hints : List String}

/-- An address is written with relays if it is without, and there is room for them. -/
theorem isEncodable_address_iff {coordinates : Coordinates} :
    (address coordinates hints).IsEncodable ↔
      (address coordinates []).IsEncodable ∧ (address coordinates []).HasRoomFor hints := by
  have nothing : relaysSize [] = 0 := rfl
  have lead : PointerKind.address.tokenPrefix.length = 5 := rfl
  have named (relays : List String) : (address coordinates relays).HasShortTexts ↔
      (∀ relay ∈ relays, relay.utf8ByteSize ≤ 255) ∧
        coordinates.identifier.utf8ByteSize ≤ 255 := by
    refine and_congr_right fun _ => ⟨fun short => short coordinates relays rfl, ?_⟩
    rintro short _ _ ⟨⟩
    exact short
  simp only [IsEncodable, named, tokenSize, kind, payloadSize, nothing, lead, Bech32.lengthLimit]
  constructor
  · rintro ⟨⟨short, identifierShort⟩, fits⟩
    refine ⟨⟨⟨List.forall_mem_nil _, identifierShort⟩, by omega⟩, short, ?_⟩
    simp only [payloadSize, nothing]
    omega
  · rintro ⟨⟨⟨_, identifierShort⟩, _⟩, short, within⟩
    simp only [payloadSize, nothing] at within
    exact ⟨⟨short, identifierShort⟩, by omega⟩

theorem isEncodable_event_iff {id : EventId} {author : Option PublicKey} {word : Option UInt32} :
    (event id hints author word).IsEncodable ↔ (event id [] author word).HasRoomFor hints := by
  have nothing : relaysSize [] = 0 := rfl
  have lead : PointerKind.event.tokenPrefix.length = 6 := rfl
  simp only [IsEncodable, HasShortTexts, tokenSize, kind, payloadSize, lead, Bech32.lengthLimit]
  constructor
  · rintro ⟨⟨short, _⟩, fits⟩
    refine ⟨short, ?_⟩
    simp only [payloadSize, nothing]
    omega
  · rintro ⟨short, within⟩
    simp only [payloadSize, nothing] at within
    refine ⟨⟨short, ?_⟩, by omega⟩
    rintro _ _ ⟨⟩

/-- Without relays an event is always written. -/
theorem isEncodable_event_nil (id : EventId) (author : Option PublicKey) (word : Option UInt32) :
    (event id [] author word).IsEncodable := by
  refine isEncodable_event_iff.mpr ⟨List.forall_mem_nil _, ?_⟩
  simp only [payloadSize, relaysSize, List.map_nil, List.sum_nil]
  split_ifs <;> decide

end Pointer

/-- The kind of pointer that an identifier reads as. -/
def formOf? (identifier? : Option String) : Option PointerKind :=
  identifier?.bind fun token => (Pointer.ofToken token).toOption.map Pointer.kind

namespace Event

/-! ## What is chosen -/

/-- What the token of an event with relays reads as: the address, else the event itself, and
nothing if neither can be written. -/
inductive Choice (event : Event) (relays : List String) : Option Pointer → Prop where
  | address {coordinates : Coordinates} (found : event.HasAddress coordinates)
      (encodable : (Pointer.address coordinates relays).IsEncodable) :
      Choice event relays (some (.address coordinates relays))
  | event {id : EventId} {author : Option PublicKey}
      (unwritten : ∀ coordinates, event.HasAddress coordinates →
        ¬ (Pointer.address coordinates relays).IsEncodable)
      (parts : event.HasParts id author)
      (encodable : (Pointer.event id relays author (some event.kind.toUInt32)).IsEncodable) :
      Choice event relays (some (.event id relays author (some event.kind.toUInt32)))
  | none
      (unwritten : ∀ coordinates, event.HasAddress coordinates →
        ¬ (Pointer.address coordinates relays).IsEncodable)
      (unnamed : ∀ id author, event.HasParts id author →
        ¬ (Pointer.event id relays author (some event.kind.toUInt32)).IsEncodable) :
      Choice event relays none

def pointerWith? (event : Event) (relays : List String) : Option Pointer :=
  (event.tokenWith? relays).bind fun token => (Pointer.ofToken token).toOption

/-- There is room for hints in the token that an event has without hints, if it has one. -/
def HasRoomFor (event : Event) (hints : List String) : Prop :=
  ∀ pointer, event.pointerWith? [] = some pointer → pointer.HasRoomFor hints

variable {event : Event} {relays hints : List String} {plain? hinted? : Option Pointer}

theorem pointerWith?_of_toToken {token : String} {pointer : Pointer}
    (found : event.tokenWith? relays = some token) (written : pointer.toToken = .ok token) :
    event.pointerWith? relays = some pointer := by
  rw [pointerWith?, found, Option.bind_some, Pointer.ofToken_of_toToken written]
  rfl

theorem choice_pointerWith? (event : Event) (relays : List String) :
    event.Choice relays (event.pointerWith? relays) := by
  cases found : event.tokenWith? relays with
  | none =>
      rw [pointerWith?, found]
      exact .none (tokenWith?_eq_none_iff.mp found).1 (tokenWith?_eq_none_iff.mp found).2
  | some token =>
      rcases tokenWith?_eq_some_iff.mp found with
        ⟨coordinates, address, written⟩ | ⟨unwritten, id, author, parts, written⟩
      · rw [pointerWith?_of_toToken found written]
        exact .address address (Pointer.isEncodable_iff.mpr ⟨token, written⟩)
      · rw [pointerWith?_of_toToken found written]
        exact .event unwritten parts (Pointer.isEncodable_iff.mpr ⟨token, written⟩)

/-- Hints make no address of an event that has none without them. -/
theorem Choice.address_of_address (plain : event.Choice [] plain?)
    (hinted : event.Choice hints hinted?) (best : hinted?.map Pointer.kind = some .address) :
    plain?.map Pointer.kind = some .address := by
  cases hinted with
  | address found encodable =>
      have written := (Pointer.isEncodable_address_iff.mp encodable).1
      cases plain with
      | address => rfl
      | event unwritten => exact absurd written (unwritten _ found)
      | none unwritten => exact absurd written (unwritten _ found)
  | event => cases best
  | none => cases best

/-- Hints make no token for an event that has none without them. -/
theorem Choice.isSome_of_isSome (plain : event.Choice [] plain?)
    (hinted : event.Choice hints hinted?) (present : hinted?.isSome) : plain?.isSome := by
  cases plain with
  | address => rfl
  | event => rfl
  | none unwritten unnamed =>
      cases hinted with
      | address found encodable =>
          exact absurd (Pointer.isEncodable_address_iff.mp encodable).1 (unwritten _ found)
      | event _ parts =>
          exact absurd (Pointer.isEncodable_event_nil _ _ _) (unnamed _ _ parts)
      | none => cases present

/-- Hints leave the form as it is exactly if there is room for them. -/
theorem Choice.form_eq_iff (plain : event.Choice [] plain?) (hinted : event.Choice hints hinted?) :
    hinted?.map Pointer.kind = plain?.map Pointer.kind ↔
      ∀ pointer, plain? = some pointer → pointer.HasRoomFor hints := by
  -- An event has one address and one pair of parts, so equal forms name the same thing, and then
  -- the hints are what decides whether it is written.
  cases plain with
  | address found encodable =>
      simp only [Option.some.injEq, forall_eq']
      have written (room : Pointer.HasRoomFor _ hints) :=
        Pointer.isEncodable_address_iff.mpr ⟨encodable, room⟩
      cases hinted with
      | address hintedFound hintedEncodable =>
          obtain rfl := found.unique hintedFound
          exact iff_of_true rfl (Pointer.isEncodable_address_iff.mp hintedEncodable).2
      | event unwritten => exact iff_of_false nofun fun room => unwritten _ found (written room)
      | none unwritten => exact iff_of_false nofun fun room => unwritten _ found (written room)
  | event unwritten parts plainEncodable =>
      simp only [Option.some.injEq, forall_eq']
      cases hinted with
      | address found encodable =>
          cases (Choice.event unwritten parts plainEncodable).address_of_address
            (.address found encodable) rfl
      | event _ hintedParts encodable =>
          obtain ⟨rfl, rfl⟩ := parts.unique hintedParts
          exact iff_of_true rfl (Pointer.isEncodable_event_iff.mp encodable)
      | none _ unnamed =>
          refine iff_of_false nofun fun room => ?_
          exact unnamed _ _ parts (Pointer.isEncodable_event_iff.mpr room)
  | none unwritten unnamed =>
      refine iff_of_true ?_ nofun
      cases hinted? with
      | none => rfl
      | some pointer => cases (Choice.none unwritten unnamed).isSome_of_isSome hinted rfl

/-- Three hints of up to 109 octets each have room in every token. -/
theorem hasRoomFor_of_short (few : hints.length ≤ 3)
    (short : ∀ hint ∈ hints, hint.utf8ByteSize ≤ 109) : event.HasRoomFor hints := by
  have small : Payload.relaysSize hints ≤ 3 * 111 := by
    refine (List.sum_le_card_nsmul _ 111 ?_).trans ?_
    · intro size member
      obtain ⟨hint, listed, rfl⟩ := List.mem_map.mp member
      exact Nat.add_le_add_left (short hint listed) 2
    · rw [List.length_map, Nat.nsmul_eq_mul]
      exact Nat.mul_le_mul_right 111 few
  have counted : ∀ hint ∈ hints, hint.utf8ByteSize ≤ 255 := fun hint listed =>
    (short hint listed).trans (by decide)
  have nothing : Payload.relaysSize [] = 0 := rfl
  intro pointer found
  have plain := event.choice_pointerWith? []
  rw [found] at plain
  cases plain with
  | address _ encodable =>
      have identifierShort := encodable.1.2 _ _ rfl
      rw [Payload.valueLimit] at identifierShort
      refine ⟨counted, ?_⟩
      simp only [Pointer.payloadSize, nothing]
      omega
  | event =>
      refine ⟨counted, ?_⟩
      simp only [Pointer.payloadSize, nothing]
      split_ifs <;> omega

/-! ## The form of an identifier -/

theorem formOf?_tokenWith? (event : Event) (relays : List String) :
    formOf? (event.tokenWith? relays) = (event.pointerWith? relays).map Pointer.kind := by
  rw [formOf?, pointerWith?, Option.map_bind]
  rfl

theorem isSome_tokenWith? (event : Event) (relays : List String) :
    (event.tokenWith? relays).isSome = (event.pointerWith? relays).isSome := by
  cases found : event.tokenWith? relays with
  | none =>
      rw [pointerWith?, found]
      rfl
  | some token =>
      obtain ⟨pointer, written⟩ := exists_toToken_of_tokenWith? found
      rw [pointerWith?_of_toToken found written]
      rfl

/-- Over any two stores the identifier of an event has the form that it has without hints, as long
as there is room for the hints.  Without room it has another form or there is none; it is never one
that is better.  Three hints of up to 109 octets each have room in every token. -/
theorem form_portalIdentifier_eq_iff {σ τ : Type} (source : Source σ) (state : σ)
    (other : Source τ) (otherState : τ) (event : Event) (hintLimit : Nat) :
    let identifier? := ((event.portalIdentifier hintLimit).run source state).1
    let hints := (source.readRelays event.pubkey state).1.take hintLimit
    let otherIdentifier? := ((event.portalIdentifier hintLimit).run other otherState).1
    let otherHints := (other.readRelays event.pubkey otherState).1.take hintLimit
    let plain? := event.tokenWith? []
    (formOf? identifier? = formOf? plain? ↔ event.HasRoomFor hints) ∧
    (formOf? identifier? = some .address → formOf? plain? = some .address) ∧
    (identifier?.isSome → plain?.isSome) ∧
    (hints.length ≤ 3 → (∀ hint ∈ hints, hint.utf8ByteSize ≤ 109) → event.HasRoomFor hints) ∧
    (event.HasRoomFor hints → event.HasRoomFor otherHints →
      formOf? identifier? = formOf? otherIdentifier? ∧
        identifier?.isSome = otherIdentifier?.isSome) := by
  intro identifier? hints otherIdentifier? otherHints plain?
  have answered : identifier? = event.tokenWith? hints := run_portalIdentifier ..
  have otherAnswered : otherIdentifier? = event.tokenWith? otherHints := run_portalIdentifier ..
  have plain := event.choice_pointerWith? []
  have hinted := event.choice_pointerWith? hints
  have otherHinted := event.choice_pointerWith? otherHints
  simp only [answered, otherAnswered, plain?, formOf?_tokenWith?, isSome_tokenWith?]
  refine ⟨plain.form_eq_iff hinted, plain.address_of_address hinted,
    plain.isSome_of_isSome hinted, hasRoomFor_of_short, ?_⟩
  intro room otherRoom
  have same := ((plain.form_eq_iff hinted).mpr room).trans
    ((plain.form_eq_iff otherHinted).mpr otherRoom).symm
  refine ⟨same, ?_⟩
  simpa only [Option.isSome_map] using congrArg Option.isSome same

/-- A note whose author advertises one relay of 256 octets has no identifier any more. -/
theorem not_isSome_portalIdentifier_eq :
    ¬ ∀ (event : Event) (hintLimit : Nat) (first second : MemoryStore),
      ((event.portalIdentifier hintLimit).answer (first.answers .background)).isSome =
        ((event.portalIdentifier hintLimit).answer (second.answers .background)).isSome := by
  intro claimed
  let key := "3bf0c63fcb93463407af97a5e5ee64fa883d107ef9e558472c4eb9aaaefa459d"
  let note : Event := { id := key, pubkey := key, kind := 1, createdAt := 1 }
  let relay := "wss://" ++ String.ofList (List.replicate 250 'r')
  let list : Event :=
    { id := "list", pubkey := key, kind := 10002, createdAt := 1, tags := [["r", relay]] }
  have same := claimed note 3 .empty (.insertAll .empty [list])
  have named : ((note.portalIdentifier 3).answer (MemoryStore.empty.answers .background)).isSome =
      true := by
    decide +kernel
  have unnamed : ((note.portalIdentifier 3).answer
      ((MemoryStore.empty.insertAll [list]).answers .background)).isSome = false := by
    decide +kernel
  rw [named, unnamed] at same
  cases same

end Event

end NostrCapsule
