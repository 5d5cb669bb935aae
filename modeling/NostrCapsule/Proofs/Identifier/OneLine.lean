import NostrCapsule.Identifier.Spelling
import NostrCapsule.Proofs.Bech32.TextForm
import NostrCapsule.Proofs.Identifier.HexDigits
import NostrCapsule.Proofs.Refusal
import NostrCapsule.Proofs.Text.OneLine
import NostrCapsule.Proofs.Text.Percent

/-!
Contract: what is made from identifiers stands on one line.

Digits, tokens and percent-encoded segments hold no line feed, whatever they spell.

Owns: identifiers in digits, paths and tokens, as far as they are one line.

Does not own: the relays and identifiers that a token carries.
-/

namespace NostrCapsule

open Text

/-! ## Digits -/

namespace Hex

theorem lineFeed_not_mem_encode (octets : List UInt8) : '\n' ∉ encode octets := by
  have other : ∀ character ∈ encode octets, character ≠ '\n' :=
    forall_mem_encode (by decide) octets
  exact fun present => other '\n' present rfl

theorem lineFeed_not_mem_of_decode {characters : List Char} {octets : List UInt8}
    (read : decode characters = some octets) : '\n' ∉ characters := by
  have other {character : Char} {value : Nat} (digit : digit? character = some value) :
      '\n' ≠ character := by
    rintro rfl
    cases digit
  fun_induction decode characters generalizing octets with
  | case1 => exact List.not_mem_nil
  | case2 high low rest inductionHypothesis =>
      obtain ⟨upper, highDigit, read⟩ := Option.bind_eq_some_iff.mp read
      obtain ⟨lower, lowDigit, read⟩ := Option.bind_eq_some_iff.mp read
      obtain ⟨others, readRest, _⟩ := Option.bind_eq_some_iff.mp read
      rw [List.mem_cons, List.mem_cons, not_or, not_or]
      exact ⟨other highDigit, other lowDigit, inductionHypothesis readRest⟩
  | case3 => cases read

end Hex

namespace HexId

variable {role : IdRole}

theorem isOneLine_text (id : HexId role) : IsOneLine id.text := by
  rw [IsOneLine, id.toList_text]
  exact Hex.lineFeed_not_mem_encode id.octets

/-- A text that spells an identifier is one line. -/
theorem isOneLine_of_isOk {text : String}
    (valid : (ofText? text : Except IdError (HexId role)).isOk = true) : IsOneLine text := by
  cases read : (ofText? text : Except IdError (HexId role)) with
  | error cause =>
      rw [read] at valid
      cases valid
  | ok id => exact Hex.lineFeed_not_mem_of_decode (ofText?_eq_ok_iff_decode.mp read)

end HexId

/-! ## Paths -/

theorem isOneLine_percentEncode (text : String) : IsOneLine (percentEncode text) :=
  fun present => absurd (isAllVisible_percentEncode text '\n' present) (by decide)

namespace Pointer

theorem isOneLine_profilePath {key : String} : IsOneLine (profilePath key) ↔ IsOneLine key := by
  rw [profilePath, isOneLine_append]
  exact and_iff_right (by decide)

theorem isOneLine_notePath {id : String} : IsOneLine (notePath id) ↔ IsOneLine id := by
  rw [notePath, isOneLine_append]
  exact and_iff_right (by decide)

theorem isOneLine_addressPath (coordinates : Coordinates) :
    IsOneLine (addressPath coordinates) := by
  unfold addressPath
  simp only [isOneLine_append]
  exact ⟨⟨⟨⟨⟨by decide, isOneLine_toString_nat _⟩, by decide⟩,
    coordinates.author.isOneLine_text⟩, by decide⟩, isOneLine_percentEncode _⟩

theorem isOneLine_linkPath (pointer : Pointer) : IsOneLine pointer.linkPath := by
  cases pointer with
  | pubkey key => exact isOneLine_profilePath.mpr key.isOneLine_text
  | profile key relays => exact isOneLine_profilePath.mpr key.isOneLine_text
  | note id => exact isOneLine_notePath.mpr id.isOneLine_text
  | event id relays author kind => exact isOneLine_notePath.mpr id.isOneLine_text
  | address coordinates relays => exact isOneLine_addressPath coordinates

/-! ## Tokens -/

private theorem letter_ne_lineFeed : ∀ quintet : Bech32.Quintet, Bech32.letter quintet ≠ '\n' := by
  decide

private theorem lineFeed_not_mem_tokenPrefix (kind : PointerKind) :
    '\n' ∉ kind.tokenPrefix.toList := by
  cases kind <;> decide

theorem isOneLine_of_toToken {pointer : Pointer} {token : String}
    (written : pointer.toToken = .ok token) : IsOneLine token := by
  obtain ⟨octets, _, spelled⟩ := Refusal.bind_eq_ok_iff.mp written
  split at spelled
  · next encoded =>
      cases spelled
      obtain ⟨_, rfl⟩ := Bech32.encode_eq_ok_iff.mp encoded
      rw [isOneLine_ofList]
      have others : ∀ character ∈ Bech32.encodeChars pointer.kind.tokenPrefix.toList octets,
          character ≠ '\n' := by
        refine Bech32.forall_mem_encodeChars ?_ (by decide) letter_ne_lineFeed octets
        rintro character member rfl
        exact lineFeed_not_mem_tokenPrefix pointer.kind member
      exact fun present => others '\n' present rfl
  · cases spelled

end Pointer

end NostrCapsule
