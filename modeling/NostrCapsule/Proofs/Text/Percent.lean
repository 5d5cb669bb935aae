import NostrCapsule.Proofs.Text.Ascii
import NostrCapsule.Text.Basic
import NostrCapsule.Text.Hex

/-!
Contract: percent-encoding loses nothing and leaves only visible characters.

An unreserved octet is not written with a percent sign, and any other is written with just two
digits behind one.  So the octets can be read off an encoding one by one.

Owns:
- `IsVisible` and `IsAllVisible`, against white space and `isControl`;
- `percentEncode_injective` and `isAllVisible_percentEncode`.

Does not own: the paths that segments stand in.
-/

namespace NostrCapsule.Text

/-! ## Visible characters -/

/-- A character of ASCII that is seen: neither a control character nor the space. -/
def IsVisible (character : Char) : Prop :=
  33 ≤ character.toNat ∧ character.toNat ≤ 126

instance (character : Char) : Decidable (IsVisible character) :=
  inferInstanceAs (Decidable (_ ∧ _))

def isControl (character : Char) : Bool :=
  character.toNat < 0x20 || (0x7F ≤ character.toNat && character.toNat < 0xA0)

theorem not_blank_or_control_of_isVisible {character : Char} (visible : IsVisible character) :
    isBlank character = false ∧ isControl character = false :=
  of_ascii
    (fun character => IsVisible character → isBlank character = false ∧ isControl character = false)
    (by decide) (Nat.lt_of_le_of_lt visible.2 (by decide)) visible

def IsAllVisible (text : String) : Prop :=
  ∀ character ∈ text.toList, IsVisible character

instance (text : String) : Decidable (IsAllVisible text) :=
  List.decidableBAll IsVisible text.toList

theorem isAllVisible_append {left right : String} :
    IsAllVisible (left ++ right) ↔ IsAllVisible left ∧ IsAllVisible right := by
  simp only [IsAllVisible, String.toList_append, List.forall_mem_append]

/-! ## Octets -/

private theorem capitalDigit_inj :
    ∀ left right : Fin 16, capitalDigit left.val = capitalDigit right.val → left = right := by
  decide

private theorem isVisible_capitalDigit : ∀ value : Fin 16, IsVisible (capitalDigit value.val) := by
  decide

/-- An unreserved octet is a visible character other than the percent sign, and that character
tells which octet it is. -/
private theorem unreserved_character :
    ∀ octet < 256, isUnreserved (UInt8.ofNat octet) = true →
      Char.ofNat octet ≠ '%' ∧ IsVisible (Char.ofNat octet) ∧
        UInt8.ofNat (Char.ofNat octet).toNat = UInt8.ofNat octet := by
  decide +kernel

theorem of_isUnreserved {octet : UInt8} (unreserved : isUnreserved octet = true) :
    Char.ofNat octet.toNat ≠ '%' ∧ IsVisible (Char.ofNat octet.toNat) ∧
      UInt8.ofNat (Char.ofNat octet.toNat).toNat = octet := by
  have checked := unreserved_character octet.toNat octet.toNat_lt
  rw [UInt8.ofNat_toNat] at checked
  exact checked unreserved

/-- The first octet can be read off an encoding, and so can what follows it. -/
theorem percentOctet_append_inj {left right : UInt8} {leftRest rightRest : List Char}
    (same : percentOctet left ++ leftRest = percentOctet right ++ rightRest) :
    left = right ∧ leftRest = rightRest := by
  unfold percentOctet at same
  split at same
  · next leftUnreserved =>
      obtain ⟨leftPlain, _, leftRead⟩ := of_isUnreserved leftUnreserved
      split at same
      · next rightUnreserved =>
          obtain ⟨_, _, rightRead⟩ := of_isUnreserved rightUnreserved
          obtain ⟨first, rest⟩ := List.cons.inj same
          refine ⟨?_, rest⟩
          rw [← leftRead, first, rightRead]
      · exact absurd (List.cons.inj same).1 leftPlain
  · split at same
    · next rightUnreserved =>
        exact absurd (List.cons.inj same).1.symm (of_isUnreserved rightUnreserved).1
    · obtain ⟨_, digits⟩ := List.cons.inj same
      obtain ⟨high, digits⟩ := List.cons.inj digits
      obtain ⟨low, rest⟩ := List.cons.inj digits
      have leftSmall : left.toNat < 256 := left.toNat_lt
      have rightSmall : right.toNat < 256 := right.toNat_lt
      have highs := capitalDigit_inj ⟨left.toNat / 16, by omega⟩ ⟨right.toNat / 16, by omega⟩ high
      have lows := capitalDigit_inj ⟨left.toNat % 16, by omega⟩ ⟨right.toNat % 16, by omega⟩ low
      rw [Fin.mk.injEq] at highs lows
      exact ⟨UInt8.toNat_inj.mp (by omega), rest⟩

/-! ## Texts -/

theorem percentOctets_injective : Function.Injective (List.flatMap percentOctet) := by
  have nonempty (octet : UInt8) (rest : List Char) : percentOctet octet ++ rest ≠ [] := by
    unfold percentOctet
    split <;> simp
  intro left right same
  induction left generalizing right with
  | nil =>
      cases right with
      | nil => rfl
      | cons octet rest => exact absurd same.symm (nonempty octet _)
  | cons octet rest inductionHypothesis =>
      cases right with
      | nil => exact absurd same (nonempty octet _)
      | cons other others =>
          obtain ⟨equal, later⟩ := percentOctet_append_inj same
          rw [equal, inductionHypothesis later]

/-- A text can be told from its percent-encoded form. -/
theorem percentEncode_injective : Function.Injective percentEncode := by
  intro left right same
  have octets := percentOctets_injective (String.ofList_injective same)
  exact octetsOf_injective octets

theorem isAllVisible_percentEncode (text : String) : IsAllVisible (percentEncode text) := by
  intro character member
  rw [percentEncode, String.toList_ofList] at member
  obtain ⟨octet, _, written⟩ := List.mem_flatMap.mp member
  have small : octet.toNat < 256 := octet.toNat_lt
  unfold percentOctet at written
  split at written
  · next unreserved =>
      rw [List.mem_singleton.mp written]
      exact (of_isUnreserved unreserved).2.1
  · simp only [List.mem_cons, List.not_mem_nil, or_false] at written
    rcases written with rfl | rfl | rfl
    · decide
    · exact isVisible_capitalDigit ⟨octet.toNat / 16, by omega⟩
    · exact isVisible_capitalDigit ⟨octet.toNat % 16, by omega⟩

end NostrCapsule.Text
