import NostrCapsule.Proofs.Bech32.TextForm
import NostrCapsule.Proofs.Identifier.PointerPayload

/-!
Contract: which pointers have a token, and that every token that is written reads back.

Two things alone can prevent a token: a text that one octet cannot count, and a token that would
be longer than the limit.  Both are decided by the pointer, before anything is written.

Owns: `IsEncodable`, the condition for a token, and `toToken_domain_and_roundTrip`.

Does not own: tokens that were written elsewhere.
-/

namespace NostrCapsule

namespace Pointer

theorem isCanonicalPrefix_tokenPrefix (kind : PointerKind) :
    Bech32.IsCanonicalPrefix kind.tokenPrefix.toList := by
  have lower : kind.tokenPrefix.toList.all (fun character => !character.isUpper) = true := by
    cases kind <;> decide
  refine ⟨by cases kind <;> decide, ?_⟩
  simpa only [List.all_eq_true, Bool.not_eq_true'] using lower

/-- A token is the text of the pointer's octets. -/
theorem toToken_eq_ok_iff {pointer : Pointer} {token : String} :
    pointer.toToken = .ok token ↔
      ∃ octets, pointer.toOctets = .ok octets ∧
        Bech32.encode pointer.kind.tokenPrefix octets = .ok token := by
  rw [toToken, Refusal.bind_eq_ok_iff]
  refine exists_congr fun octets => and_congr_right fun _ => ?_
  cases Bech32.encode pointer.kind.tokenPrefix octets with
  | error fault => simp
  | ok text => simp

def tokenSize (pointer : Pointer) : Nat :=
  pointer.kind.tokenPrefix.length + 1 + (8 * pointer.payloadSize + 4) / 5 + 6

theorem exists_toToken_iff (pointer : Pointer) :
    (∃ token, pointer.toToken = .ok token) ↔
      pointer.HasShortTexts ∧ pointer.tokenSize ≤ Bech32.lengthLimit := by
  simp only [toToken_eq_ok_iff]
  constructor
  · intro result
    rcases result with ⟨token, octets, written, encoded⟩
    have size := length_of_toOctets written
    obtain ⟨fits, _⟩ := Bech32.encode_eq_ok_iff.mp encoded
    rw [size] at fits
    exact ⟨(exists_toOctets_iff pointer).mp ⟨octets, written⟩, fits⟩
  · intro allowed
    rcases allowed with ⟨short, fits⟩
    obtain ⟨octets, written⟩ := (exists_toOctets_iff pointer).mpr short
    rw [tokenSize, ← length_of_toOctets written] at fits
    exact ⟨_, octets, written, Bech32.encode_eq_ok_iff.mpr ⟨fits, rfl⟩⟩

/-- One octet can count each text of a pointer, and its token would not be too long. -/
def IsEncodable (pointer : Pointer) : Prop :=
  pointer.HasShortTexts ∧ pointer.tokenSize ≤ Bech32.lengthLimit

theorem isEncodable_iff {pointer : Pointer} :
    pointer.IsEncodable ↔ ∃ token, pointer.toToken = .ok token :=
  (exists_toToken_iff pointer).symm

theorem length_of_toToken {pointer : Pointer} {token : String}
    (written : pointer.toToken = .ok token) : token.length = pointer.tokenSize := by
  obtain ⟨octets, spelled, encoded⟩ := toToken_eq_ok_iff.mp written
  obtain ⟨_, rfl⟩ := Bech32.encode_eq_ok_iff.mp encoded
  rw [String.length_ofList, Bech32.length_encodeChars, String.length_toList,
    length_of_toOctets spelled, tokenSize]

theorem ofToken_of_toToken {pointer : Pointer} {token : String}
    (written : pointer.toToken = .ok token) : ofToken token = .ok pointer := by
  obtain ⟨octets, spelled, encoded⟩ := toToken_eq_ok_iff.mp written
  have decoded := Bech32.decode_encode (isCanonicalPrefix_tokenPrefix pointer.kind) encoded
  rw [ofToken, decoded]
  simp only [PointerKind.ofPrefix?_tokenPrefix]
  exact ofOctets?_of_toOctets spelled

/-- A pointer has a token exactly if its texts are short and the token is; the token then has the
size that follows from the number of octets, and it reads back as the pointer. -/
theorem toToken_domain_and_roundTrip (pointer : Pointer) :
    ((∃ token, pointer.toToken = .ok token) ↔
      (∀ relay ∈ pointer.relays, relay.utf8ByteSize ≤ 255) ∧
        (∀ coordinates relays, pointer = .address coordinates relays →
          coordinates.identifier.utf8ByteSize ≤ 255) ∧
        pointer.kind.tokenPrefix.length + 1 + (8 * pointer.payloadSize + 4) / 5 + 6 ≤ 1023) ∧
      (∀ octets, pointer.toOctets = .ok octets → octets.length = pointer.payloadSize) ∧
      ∀ token, pointer.toToken = .ok token →
        token.length =
            pointer.kind.tokenPrefix.length + 1 + (8 * pointer.payloadSize + 4) / 5 + 6 ∧
          ofToken token = .ok pointer := by
  refine ⟨?_, fun octets written => length_of_toOctets written, ?_⟩
  · rw [exists_toToken_iff, HasShortTexts, and_assoc]
    rfl
  · intro token written
    exact ⟨length_of_toToken written, ofToken_of_toToken written⟩

/-- An event pointer with all of its parts, one relay beyond ASCII and one empty. -/
theorem toToken_domain_and_roundTrip_event :
    let pointer := event ⟨List.replicate 32 1, rfl⟩ ["wss://r.é", ""]
      (some ⟨List.replicate 32 7, rfl⟩) (some 30023)
    let token := "nevent1qqsqzqgpqyqszqgpqyqszqgpqyqszqgpqyqszqgpqyqszqgpqyqszqgppfmhxue69uhhytkr4yqsqq3q"
      ++ "qurswpc8qurswpc8qurswpc8qurswpc8qurswpc8qurswpc8qursxpqqqp65wtsxdax"
    pointer.toToken = .ok token ∧ ofToken token = .ok pointer := by
  intro pointer token
  have written : pointer.toToken = .ok token := by
    decide +kernel
  exact ⟨written, ((toToken_domain_and_roundTrip pointer).2.2 token written).2⟩

end Pointer

end NostrCapsule
