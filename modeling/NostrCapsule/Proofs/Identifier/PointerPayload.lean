import NostrCapsule.Identifier.Spelling
import NostrCapsule.Proofs.Identifier.PayloadReading
import NostrCapsule.Proofs.Refusal

/-!
Contract: a pointer's octets spell that pointer, and their number is known beforehand.

The three kinds of pointer with entries differ in which of author and kind they have.  All three
write `fieldEntries`, so the entries are written, measured and read once.

Owns:
- `Pointer.HasShortTexts`, the exact condition under which a pointer has octets;
- `Pointer.payloadSize`, their number;
- `ofOctets?_of_toOctets`, the round trip without the text form.

Does not own: the text form of tokens.
-/

namespace NostrCapsule

open Payload

namespace Pointer

/-! ## Entries of a pointer -/

def fieldEntries (special : List UInt8) (relays : List String) (author : Option PublicKey)
    (kind : Option UInt32) : List Entry :=
  ⟨specialTag, special⟩ :: relayEntries relays
    ++ (author.map fun key => (⟨authorTag, key.octets⟩ : Entry)).toList
    ++ (kind.map fun word => (⟨kindTag, wordOctets word⟩ : Entry)).toList

theorem toOctets_profile (key : PublicKey) (relays : List String) :
    (profile key relays).toOctets = writeEntries (fieldEntries key.octets relays none none) := by
  simp [toOctets, fieldEntries]

theorem toOctets_event (id : EventId) (relays : List String) (author : Option PublicKey)
    (kind : Option UInt32) :
    (event id relays author kind).toOctets =
      writeEntries (fieldEntries id.octets relays author kind) := rfl

theorem toOctets_address (coordinates : Coordinates) (relays : List String) :
    (address coordinates relays).toOctets =
      writeEntries (fieldEntries (Text.octetsOf coordinates.identifier) relays
        (some coordinates.author) (some coordinates.kind)) := by
  simp [toOctets, fieldEntries]

section Fields

variable {special : List UInt8} {relays : List String} {author : Option PublicKey}
  {kind : Option UInt32}

/-- Only the special value and the relays can be too long. -/
theorem short_fieldEntries_iff :
    (∀ entry ∈ fieldEntries special relays author kind, entry.value.length ≤ valueLimit) ↔
      special.length ≤ valueLimit ∧ ∀ relay ∈ relays, relay.utf8ByteSize ≤ valueLimit := by
  have authorShort : ∀ key : PublicKey, key.octets.length ≤ valueLimit := by
    intro key
    rw [key.length_octets]
    decide
  have kindShort : ∀ word : UInt32, (wordOctets word).length ≤ valueLimit := by
    intro word
    rw [length_wordOctets]
    decide
  unfold fieldEntries relayEntries
  simp only [List.mem_append, List.mem_cons, List.mem_map, Option.mem_toList,
    Option.map_eq_some_iff]
  constructor
  · intro short
    refine ⟨short ⟨specialTag, special⟩ (Or.inl (Or.inl (Or.inl rfl))), ?_⟩
    intro relay member
    exact short ⟨relayTag, Text.octetsOf relay⟩ (Or.inl (Or.inl (Or.inr ⟨relay, member, rfl⟩)))
  · intro short entry origin
    rcases origin with ((rfl | ⟨relay, member, rfl⟩) | ⟨key, _, rfl⟩) | ⟨word, _, rfl⟩
    · exact short.1
    · exact short.2 relay member
    · exact authorShort key
    · exact kindShort word

theorem entriesSize_fieldEntries :
    entriesSize (fieldEntries special relays author kind) =
      2 + special.length + relaysSize relays + (if author.isSome then 34 else 0)
        + (if kind.isSome then 6 else 0) := by
  have relayed : entriesSize (relayEntries relays) = relaysSize relays := by
    rw [entriesSize, relayEntries, List.map_map]
    rfl
  have authored : entriesSize (author.map fun key => (⟨authorTag, key.octets⟩ : Entry)).toList =
      if author.isSome then 34 else 0 := by
    cases author with
    | none => rfl
    | some key => simp [Entry.size, key.length_octets]
  have counted : entriesSize (kind.map fun word => (⟨kindTag, wordOctets word⟩ : Entry)).toList =
      if kind.isSome then 6 else 0 := by
    cases kind with
    | none => rfl
    | some word => simp [Entry.size, length_wordOctets]
  rw [fieldEntries, entriesSize_append, entriesSize_append, entriesSize_cons, relayed, authored,
    counted, Entry.size]

theorem firstValue?_relayEntries_append {tag : UInt8} (other : relayTag ≠ tag)
    (rest : List Entry) :
    firstValue? tag (relayEntries relays ++ rest) = firstValue? tag rest := by
  induction relays with
  | nil => rfl
  | cons relay others inductionHypothesis =>
      rw [relayEntries, List.map_cons, List.cons_append, firstValue?_cons, if_neg other]
      exact inductionHypothesis

theorem relaysOf_relayEntries_append (rest : List Entry) :
    relaysOf (relayEntries relays ++ rest) = relays ++ relaysOf rest := by
  induction relays with
  | nil => rfl
  | cons relay others inductionHypothesis =>
      rw [relayEntries, List.map_cons, List.cons_append, relaysOf_cons, if_pos rfl,
        Text.ofOctets?_octetsOf]
      exact congrArg (relay :: ·) inductionHypothesis

theorem firstValue?_special :
    firstValue? specialTag (fieldEntries special relays author kind) = some special := by
  rw [fieldEntries, List.cons_append, List.cons_append, firstValue?_cons, if_pos rfl]

theorem firstValue?_author :
    firstValue? authorTag (fieldEntries special relays author kind) =
      author.map HexId.octets := by
  have other : specialTag ≠ authorTag := by decide
  rw [fieldEntries, List.append_assoc, List.cons_append, firstValue?_cons, if_neg other,
    firstValue?_relayEntries_append (by decide)]
  cases author <;> cases kind <;> rfl

theorem firstValue?_kind :
    firstValue? kindTag (fieldEntries special relays author kind) = kind.map wordOctets := by
  have other : specialTag ≠ kindTag := by decide
  rw [fieldEntries, List.append_assoc, List.cons_append, firstValue?_cons, if_neg other,
    firstValue?_relayEntries_append (by decide)]
  cases author <;> cases kind <;> rfl

theorem relaysOf_fieldEntries :
    relaysOf (fieldEntries special relays author kind) = relays := by
  have other : specialTag ≠ relayTag := by decide
  have nothing : relaysOf ((author.map fun key => (⟨authorTag, key.octets⟩ : Entry)).toList
      ++ (kind.map fun word => (⟨kindTag, wordOctets word⟩ : Entry)).toList) = [] := by
    cases author <;> cases kind <;> rfl
  rw [fieldEntries, List.append_assoc, List.cons_append, relaysOf_cons, if_neg other,
    relaysOf_relayEntries_append, nothing, List.append_nil]

/-- The parts are read back from the octets of their entries. -/
theorem fields_fieldEntries
    (short : ∀ entry ∈ fieldEntries special relays author kind, entry.value.length ≤ valueLimit) :
    Fields.ofOctets? ((fieldEntries special relays author kind).flatMap Entry.octets) =
      .ok { special := some special, relays, author := author.map HexId.octets, kind } := by
  have kindRead : kindOf? (fieldEntries special relays author kind) = .ok kind := by
    rw [kindOf?, firstValue?_kind]
    cases kind with
    | none => rfl
    | some word =>
        rw [Option.map_some]
        simp only [word?_wordOctets]
  rw [Fields.ofOctets?_eq, splitEntries_octets short]
  simp only [kindRead, firstValue?_special, relaysOf_fieldEntries, firstValue?_author]
  rfl

end Fields

/-! ## Octets of a pointer -/

/-- Every text in the pointer has a size that one octet can hold. -/
def HasShortTexts (pointer : Pointer) : Prop :=
  (∀ relay ∈ pointer.relays, relay.utf8ByteSize ≤ valueLimit) ∧
    ∀ coordinates relays, pointer = .address coordinates relays →
      coordinates.identifier.utf8ByteSize ≤ valueLimit

def payloadSize : Pointer → Nat
  | .pubkey _ => 32
  | .note _ => 32
  | .profile _ relays => 34 + relaysSize relays
  | .event _ relays author kind =>
      34 + relaysSize relays + (if author.isSome then 34 else 0) + (if kind.isSome then 6 else 0)
  | .address coordinates relays =>
      2 + coordinates.identifier.utf8ByteSize + relaysSize relays + 34 + 6

theorem idOfOctets_octets {role : IdRole} (field : TokenField) (id : HexId role) :
    idOfOctets field id.octets = .ok id := by
  rw [idOfOctets, HexId.ofOctets?, dif_pos id.length_octets]

/-- There are octets if, and only if, the texts are short. -/
theorem exists_toOctets_iff (pointer : Pointer) :
    (∃ octets, pointer.toOctets = .ok octets) ↔ pointer.HasShortTexts := by
  have written : ∀ special relays author kind,
      (∃ octets, writeEntries (fieldEntries special relays author kind) = .ok octets) ↔
        special.length ≤ valueLimit ∧ ∀ relay ∈ relays, relay.utf8ByteSize ≤ valueLimit := by
    intro special relays author kind
    simp only [writeEntries_eq_ok_iff, short_fieldEntries_iff, exists_and_left, exists_eq, and_true]
  have idShort : ∀ {role : IdRole} (id : HexId role), id.octets.length ≤ valueLimit := by
    intro role id
    rw [id.length_octets]
    decide
  cases pointer with
  | pubkey key => simp [toOctets, HasShortTexts, Pointer.relays]
  | note id => simp [toOctets, HasShortTexts, Pointer.relays]
  | profile key relays =>
      rw [toOctets_profile, written]
      simp [HasShortTexts, Pointer.relays, idShort key]
  | event id relays author kind =>
      rw [toOctets_event, written]
      simp [HasShortTexts, Pointer.relays, idShort id]
  | address coordinates relays =>
      rw [toOctets_address, written, Text.length_octetsOf]
      simp only [HasShortTexts, Pointer.relays, address.injEq]
      constructor
      · intro short
        refine ⟨short.2, ?_⟩
        intro other otherRelays same
        rw [← same.1]
        exact short.1
      · intro short
        exact ⟨short.2 coordinates relays ⟨rfl, rfl⟩, short.1⟩

theorem length_of_toOctets {pointer : Pointer} {octets : List UInt8}
    (written : pointer.toOctets = .ok octets) : octets.length = pointer.payloadSize := by
  cases pointer with
  | pubkey key =>
      cases written
      exact key.length_octets
  | note id =>
      cases written
      exact id.length_octets
  | profile key relays =>
      rw [toOctets_profile, writeEntries_eq_ok_iff] at written
      rw [written.2, length_flatMap_octets, entriesSize_fieldEntries, key.length_octets]
      rfl
  | event id relays author kind =>
      rw [toOctets_event, writeEntries_eq_ok_iff] at written
      rw [written.2, length_flatMap_octets, entriesSize_fieldEntries, id.length_octets]
      rfl
  | address coordinates relays =>
      rw [toOctets_address, writeEntries_eq_ok_iff] at written
      rw [written.2, length_flatMap_octets, entriesSize_fieldEntries, Text.length_octetsOf]
      rfl

theorem profileOfFields_octets (key : PublicKey) (relays : List String)
    (author : Option (List UInt8)) (kind : Option UInt32) :
    profileOfFields { special := some key.octets, relays, author, kind } =
      .ok (.profile key relays) := by
  simp only [profileOfFields, required, Refusal.ok_bind, idOfOctets_octets]
  rfl

theorem eventOfFields_octets (id : EventId) (relays : List String) (author : Option PublicKey)
    (kind : Option UInt32) :
    eventOfFields
        { special := some id.octets, relays, author := author.map HexId.octets, kind } =
      .ok (.event id relays author kind) := by
  simp only [eventOfFields, required, Refusal.ok_bind, idOfOctets_octets]
  cases author with
  | none => rfl
  | some key =>
      simp only [Option.map_some, idOfOctets_octets]
      rfl

theorem addressOfFields_octets (coordinates : Coordinates) (relays : List String) :
    addressOfFields
        { special := some (Text.octetsOf coordinates.identifier), relays
          author := some coordinates.author.octets, kind := some coordinates.kind } =
      .ok (.address coordinates relays) := by
  simp only [addressOfFields, required, Refusal.ok_bind, Text.ofOctets?_octetsOf,
    idOfOctets_octets]
  rfl

theorem ofOctets?_of_toOctets {pointer : Pointer} {octets : List UInt8}
    (written : pointer.toOctets = .ok octets) :
    ofOctets? pointer.kind octets = .ok pointer := by
  cases pointer with
  | pubkey key =>
      cases written
      rw [kind, ofOctets?, idOfOctets_octets]
      rfl
  | note id =>
      cases written
      rw [kind, ofOctets?, idOfOctets_octets]
      rfl
  | profile key relays =>
      rw [toOctets_profile, writeEntries_eq_ok_iff] at written
      rcases written with ⟨short, rfl⟩
      rw [kind, ofOctets?, fields_fieldEntries short]
      exact profileOfFields_octets key relays _ _
  | event id relays author kind =>
      rw [toOctets_event, writeEntries_eq_ok_iff] at written
      rcases written with ⟨short, rfl⟩
      rw [Pointer.kind, ofOctets?, fields_fieldEntries short]
      exact eventOfFields_octets id relays author kind
  | address coordinates relays =>
      rw [toOctets_address, writeEntries_eq_ok_iff] at written
      rcases written with ⟨short, rfl⟩
      rw [kind, ofOctets?, fields_fieldEntries short]
      exact addressOfFields_octets coordinates relays

end Pointer

end NostrCapsule
