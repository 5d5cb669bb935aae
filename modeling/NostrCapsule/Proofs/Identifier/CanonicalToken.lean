import NostrCapsule.Proofs.Identifier.TokenRoundTrip

/-!
Contract: every token that can be read has one canonical token, which is no longer.

Reading may drop entries, leftover bits and the case of letters, but it invents nothing: each part
of the pointer comes from an entry of its own that was at least as large.  So the pointer takes no
more octets than were there, and neither of the two obstacles to writing can arise.

Owns:
- `HoldsWithin`, the bound on what octets can spell;
- `canonicalToken` and `canonicalToken_of_ofToken`.

Does not own: the equality of pointers that differ in parts a token may repeat.
-/

namespace NostrCapsule

open Payload

/-! ## Fields -/

namespace Payload

def Fields.size (fields : Fields) : Nat :=
  valueSize fields.special + relaysSize fields.relays + valueSize fields.author
    + (if fields.kind.isSome then 6 else 0)

theorem kindSize_le_of_kindOf? {entries : List Entry} {kind : Option UInt32}
    (read : kindOf? entries = .ok kind) :
    (if kind.isSome then 6 else 0) ≤ valueSize (firstValue? kindTag entries) := by
  unfold kindOf? at read
  split at read
  · cases read
    exact Nat.zero_le _
  next value found =>
  split at read
  next word spelled =>
    cases read
    rw [found, valueSize, length_of_word? spelled]
    exact Nat.le_refl _
  · cases read

theorem mem_of_firstValue? {tag : UInt8} {entries : List Entry} {value : List UInt8}
    (found : firstValue? tag entries = some value) : ∃ entry ∈ entries, entry.value = value := by
  obtain ⟨entry, first, rfl⟩ := Option.map_eq_some_iff.mp found
  exact ⟨entry, List.mem_of_find?_eq_some first, rfl⟩

theorem mem_of_mem_relaysOf {entries : List Entry} {relay : String}
    (member : relay ∈ relaysOf entries) :
    ∃ entry ∈ entries, entry.value.length = relay.utf8ByteSize := by
  obtain ⟨entry, kept, read⟩ := List.mem_filterMap.mp member
  refine ⟨entry, (List.mem_filter.mp kept).1, ?_⟩
  rw [← Text.octetsOf_of_ofOctets? read, Text.length_octetsOf]

/-- What fields hold is short, and takes no more octets than there were. -/
structure Fields.HoldsWithin (fields : Fields) (room : Nat) : Prop where
  size_le : fields.size ≤ room
  special_short : ∀ value, fields.special = some value → value.length ≤ valueLimit
  relays_short : ∀ relay ∈ fields.relays, relay.utf8ByteSize ≤ valueLimit

theorem Fields.holdsWithin_of_ofOctets? {octets : List UInt8} {fields : Fields}
    (read : Fields.ofOctets? octets = .ok fields) : fields.HoldsWithin octets.length := by
  rw [Fields.ofOctets?_eq] at read
  have bounded := entriesSize_splitEntries octets
  have short : ∀ entry ∈ (splitEntries octets).1, entry.value.length ≤ valueLimit :=
    fun entry member => length_value_le_of_mem_splitEntries member
  generalize splitEntries octets = split at read bounded short
  rcases split with ⟨entries, rest⟩
  simp only at read bounded short
  cases kindRead : kindOf? entries with
  | error refusal =>
      rw [kindRead] at read
      cases read
  | ok kind =>
      rw [kindRead] at read
      simp only at read
      split at read
      · cases read
        refine ⟨?_, ?_, ?_⟩
        · have counted := fields_size_le entries
          have kindCounted := kindSize_le_of_kindOf? kindRead
          simp only [Fields.size]
          omega
        · intro value found
          obtain ⟨entry, member, rfl⟩ := mem_of_firstValue? found
          exact short entry member
        · intro relay member
          obtain ⟨entry, present, same⟩ := mem_of_mem_relaysOf member
          rw [← same]
          exact short entry present
      · cases read

end Payload

namespace Pointer

/-! ## Pointers of fields -/

theorem octets_of_idOfOctets {role : IdRole} {field : TokenField} {octets : List UInt8}
    {id : HexId role} (read : idOfOctets field octets = .ok id) : id.octets = octets := by
  unfold idOfOctets HexId.ofOctets? at read
  by_cases length : octets.length = 32
  · rw [dif_pos length] at read
    cases read
    rfl
  · rw [dif_neg length] at read
    cases read

theorem eq_some_of_required {α : Type} {field : TokenField} {part : Option α} {value : α}
    (present : required field part = .ok value) : part = some value := by
  cases part with
  | none => cases present
  | some other =>
      cases present
      rfl

theorem profileOfFields_eq_ok {fields : Fields} {pointer : Pointer}
    (read : profileOfFields fields = .ok pointer) :
    ∃ key, pointer = .profile key fields.relays ∧ fields.special = some key.octets := by
  obtain ⟨special, present, read⟩ := Refusal.bind_eq_ok_iff.mp read
  obtain ⟨key, spelled, read⟩ := Refusal.bind_eq_ok_iff.mp read
  cases read
  rw [eq_some_of_required present, ← octets_of_idOfOctets spelled]
  exact ⟨key, rfl, rfl⟩

theorem eventOfFields_eq_ok {fields : Fields} {pointer : Pointer}
    (read : eventOfFields fields = .ok pointer) :
    ∃ id author, pointer = .event id fields.relays author fields.kind ∧
      fields.special = some id.octets ∧ fields.author = author.map HexId.octets := by
  obtain ⟨special, present, read⟩ := Refusal.bind_eq_ok_iff.mp read
  obtain ⟨id, spelled, read⟩ := Refusal.bind_eq_ok_iff.mp read
  rw [eq_some_of_required present, ← octets_of_idOfOctets spelled]
  cases authorOctets : fields.author with
  | none =>
      rw [authorOctets] at read
      cases read
      exact ⟨id, none, rfl, rfl, rfl⟩
  | some octets =>
      rw [authorOctets] at read
      obtain ⟨author, authorSpelled, read⟩ := Refusal.bind_eq_ok_iff.mp read
      cases read
      refine ⟨id, some author, rfl, rfl, ?_⟩
      rw [Option.map_some, octets_of_idOfOctets authorSpelled]

theorem addressOfFields_eq_ok {fields : Fields} {pointer : Pointer}
    (read : addressOfFields fields = .ok pointer) :
    ∃ coordinates, pointer = .address coordinates fields.relays ∧
      fields.special = some (Text.octetsOf coordinates.identifier) ∧
      fields.author = some coordinates.author.octets ∧ fields.kind = some coordinates.kind := by
  obtain ⟨special, present, read⟩ := Refusal.bind_eq_ok_iff.mp read
  cases identifierRead : Text.ofOctets? special with
  | none =>
      simp only [identifierRead] at read
      cases read
  | some identifier =>
      simp only [identifierRead, Refusal.ok_bind] at read
      obtain ⟨authorOctets, authorPresent, read⟩ := Refusal.bind_eq_ok_iff.mp read
      obtain ⟨kind, kindPresent, read⟩ := Refusal.bind_eq_ok_iff.mp read
      obtain ⟨author, spelled, read⟩ := Refusal.bind_eq_ok_iff.mp read
      cases read
      refine ⟨{ kind, author, identifier }, rfl, ?_, ?_, eq_some_of_required kindPresent⟩
      · rw [eq_some_of_required present, Text.octetsOf_of_ofOctets? identifierRead]
      · rw [eq_some_of_required authorPresent, octets_of_idOfOctets spelled]

/-! ## Pointers of octets -/

/-- What octets spell can be written again, in no more octets. -/
theorem writable_of_ofOctets? {kind : PointerKind} {octets : List UInt8} {pointer : Pointer}
    (read : ofOctets? kind octets = .ok pointer) :
    pointer.kind = kind ∧ pointer.HasShortTexts ∧ pointer.payloadSize ≤ octets.length := by
  cases kind with
  | pubkey =>
      obtain ⟨key, spelled, rfl⟩ := Refusal.map_eq_ok_iff.mp read
      rw [← octets_of_idOfOctets spelled, key.length_octets]
      exact ⟨rfl, by simp [HasShortTexts, relays], Nat.le_refl _⟩
  | note =>
      obtain ⟨id, spelled, rfl⟩ := Refusal.map_eq_ok_iff.mp read
      rw [← octets_of_idOfOctets spelled, id.length_octets]
      exact ⟨rfl, by simp [HasShortTexts, relays], Nat.le_refl _⟩
  | profile =>
      obtain ⟨fields, fieldsRead, read⟩ := Refusal.bind_eq_ok_iff.mp read
      have held := Fields.holdsWithin_of_ofOctets? fieldsRead
      obtain ⟨key, rfl, special⟩ := profileOfFields_eq_ok read
      have room := held.size_le
      rw [Fields.size, special, valueSize, key.length_octets] at room
      refine ⟨rfl, ⟨held.relays_short, by simp⟩, ?_⟩
      rw [payloadSize]
      omega
  | event =>
      obtain ⟨fields, fieldsRead, read⟩ := Refusal.bind_eq_ok_iff.mp read
      have held := Fields.holdsWithin_of_ofOctets? fieldsRead
      obtain ⟨id, author, rfl, special, authorOctets⟩ := eventOfFields_eq_ok read
      have authorSize : valueSize fields.author = if author.isSome then 34 else 0 := by
        rw [authorOctets]
        cases author with
        | none => rfl
        | some key => rw [Option.map_some, valueSize, key.length_octets]; rfl
      have room := held.size_le
      rw [Fields.size, special, valueSize, id.length_octets, authorSize] at room
      exact ⟨rfl, ⟨held.relays_short, by simp⟩, room⟩
  | address =>
      obtain ⟨fields, fieldsRead, read⟩ := Refusal.bind_eq_ok_iff.mp read
      have held := Fields.holdsWithin_of_ofOctets? fieldsRead
      obtain ⟨coordinates, rfl, special, author, kind⟩ := addressOfFields_eq_ok read
      have room := held.size_le
      rw [Fields.size, special, author, kind, valueSize, valueSize,
        coordinates.author.length_octets, Text.length_octetsOf] at room
      refine ⟨rfl, ⟨held.relays_short, ?_⟩, room⟩
      intro other relays same
      cases same
      exact held.special_short _ special

/-- A token that was read is a text of octets of the pointer's kind. -/
theorem ofToken_eq_ok {token : String} {pointer : Pointer} (read : ofToken token = .ok pointer) :
    ∃ kind octets, Bech32.decode token = .ok (kind.tokenPrefix, octets) ∧
      ofOctets? kind octets = .ok pointer := by
  unfold ofToken at read
  split at read
  · cases read
  next name octets decoded =>
  split at read
  · cases read
  next kind found =>
  have named := List.find?_some found
  rw [beq_iff_eq] at named
  exact ⟨kind, octets, named ▸ decoded, read⟩

end Pointer

/-- The token that is written for what a token says. -/
def canonicalToken (token : String) : Except TokenError String :=
  Pointer.ofToken token >>= Pointer.toToken

/-- Whatever spelling of a pointer was read, its canonical token exists, is no longer in characters
or in octets, reads back as the same pointer, and is its own canonical token. -/
theorem canonicalToken_of_ofToken {token : String} {pointer : Pointer}
    (read : Pointer.ofToken token = .ok pointer) :
    ∃ canonical, pointer.toToken = .ok canonical ∧
      canonical.length ≤ token.length ∧ canonical.utf8ByteSize ≤ token.utf8ByteSize ∧
      Pointer.ofToken canonical = .ok pointer ∧
      canonicalToken token = .ok canonical ∧ canonicalToken canonical = .ok canonical := by
  obtain ⟨kind, octets, decoded, spelled⟩ := Pointer.ofToken_eq_ok read
  obtain ⟨rfl, short, room⟩ := Pointer.writable_of_ofOctets? spelled
  obtain ⟨noLonger, fits⟩ := Bech32.length_encodeChars_le_of_decode decoded
  rw [Bech32.length_encodeChars, String.length_toList] at noLonger
  have size : pointer.tokenSize ≤ token.length := by
    rw [Pointer.tokenSize]
    omega
  obtain ⟨canonical, written⟩ :=
    (Pointer.exists_toToken_iff pointer).mpr ⟨short, Nat.le_trans size fits⟩
  have readAgain := Pointer.ofToken_of_toToken written
  have inCharacters : canonical.length ≤ token.length := by
    rw [Pointer.length_of_toToken written]
    exact size
  have inOctets : canonical.utf8ByteSize ≤ token.utf8ByteSize := by
    obtain ⟨_, _, encoded⟩ := Pointer.toToken_eq_ok_iff.mp written
    rw [Bech32.utf8ByteSize_of_encode (Pointer.isCanonicalPrefix_tokenPrefix _) encoded]
    exact Nat.le_trans inCharacters (Text.length_le_utf8ByteSize token)
  refine ⟨canonical, written, inCharacters, inOctets, readAgain, ?_, ?_⟩
  · rw [canonicalToken, read, Refusal.ok_bind, written]
  · rw [canonicalToken, readAgain, Refusal.ok_bind, written]

/-- Capital letters, the second checksum variant, an unknown entry, a relay that is not UTF-8, a
repeated entry and spare bits. -/
theorem canonicalToken_of_ofToken_unusual :
    let token := "NPROFILE1PYQL7QGPLUQZQPC8QURSWPC8QURSWPC8QURSWPC8QURSWPC8QURSWPC8QURSWPC8QYRHWUMN8GHJ7USQ"
      ++ "QRL09JDV2"
    let pointer := Pointer.profile ⟨List.replicate 32 7, rfl⟩ ["wss://r"]
    Pointer.ofToken token = .ok pointer ∧
      ∃ canonical, pointer.toToken = .ok canonical ∧
        canonical.length ≤ token.length ∧ canonical.utf8ByteSize ≤ token.utf8ByteSize ∧
        Pointer.ofToken canonical = .ok pointer ∧
        canonicalToken token = .ok canonical ∧ canonicalToken canonical = .ok canonical := by
  intro token pointer
  have read : Pointer.ofToken token = .ok pointer := by
    decide +kernel
  exact ⟨read, canonicalToken_of_ofToken read⟩

end NostrCapsule
