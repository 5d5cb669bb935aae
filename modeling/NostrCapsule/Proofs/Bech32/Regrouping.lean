import Mathlib.Algebra.Group.Nat.Defs
import NostrCapsule.Bech32.Codec

/-!
Contract: octets survive the way through quintets, and both counts are known.

Filling up adds at most four zero bits, which are too few for an octet of their own; so whatever
the number of octets is, reading drops exactly what writing added.

Owns:
- the round trip `octetsOfQuintets_quintetsOfOctets`;
- the counts `length_quintetsOfOctets` and `length_octetsOfQuintets`.

Does not own: letters and checksums.
-/

namespace NostrCapsule.Bech32

/-! ## One group -/

private theorem quintetBits_fiveBits : ∀ a b c d e : Bool,
    quintetBits (lowQuintet (bitsValue [a, b, c, d, e])) = [a, b, c, d, e] := by
  decide

theorem quintetBits_lowQuintet (bits : List Bool) (five : bits.length = 5) :
    quintetBits (lowQuintet (bitsValue bits)) = bits := by
  match bits, five with
  | [a, b, c, d, e], _ => exact quintetBits_fiveBits a b c d e

private theorem join_bit (value place : Nat) :
    2 * (value / 2 ^ (place + 1)) + value / 2 ^ place % 2 = value / 2 ^ place := by
  rw [Nat.pow_succ, ← Nat.div_div_eq_div_mul, Nat.div_add_mod]

theorem ofNat_octetBits (octet : UInt8) :
    UInt8.ofNat (bitsValue (octetBits octet)) = octet := by
  have started : octet.toNat / 2 ^ (7 + 1) = 0 := Nat.div_eq_of_lt octet.toNat_lt
  have spelled : bitsValue (octetBits octet) = octet.toNat / 2 ^ 0 := by
    simp only [bitsValue, octetBits, List.map_cons, List.map_nil, List.foldl_cons, List.foldl_nil,
      Nat.toNat_testBit]
    rw [show 2 * 0 = 2 * (octet.toNat / 2 ^ (7 + 1)) by rw [started], join_bit _ 7, join_bit _ 6,
      join_bit _ 5, join_bit _ 4, join_bit _ 3, join_bit _ 2, join_bit _ 1, join_bit _ 0]
  rw [spelled, Nat.pow_zero, Nat.div_one, UInt8.ofNat_toNat]

/-! ## Lists of groups -/

private theorem length_short {short : List Bool}
    (notLong : ∀ a b c d e rest, short = a :: b :: c :: d :: e :: rest → False) :
    short.length ≤ 4 := by
  match short with
  | [] | [_] | [_, _] | [_, _, _] | [_, _, _, _] => simp
  | a :: b :: c :: d :: e :: rest => exact absurd rfl (notLong a b c d e rest)

/-- Bits in groups of five are the same bits, with at most four more at the end. -/
theorem flatMap_groupQuintets (bits : List Bool) :
    ∃ filling : List Bool, filling.length ≤ 4 ∧
      (groupQuintets bits).flatMap quintetBits = bits ++ filling := by
  fun_induction groupQuintets bits with
  | case1 => exact ⟨[], by simp, rfl⟩
  | case2 a b c d e rest inductionHypothesis =>
      rcases inductionHypothesis with ⟨filling, few, regrouped⟩
      refine ⟨filling, few, ?_⟩
      rw [List.flatMap_cons, regrouped, quintetBits_fiveBits]
      rfl
  | case3 short notEmpty notLong =>
      have few := length_short notLong
      have some := List.length_pos_iff.mpr notEmpty
      refine ⟨List.replicate (5 - short.length) false, ?_, ?_⟩
      · rw [List.length_replicate]
        omega
      · have five : (short ++ List.replicate (5 - short.length) false).length = 5 := by
          rw [List.length_append, List.length_replicate]
          omega
        rw [List.flatMap_singleton, quintetBits_lowQuintet _ five]

theorem length_groupQuintets (bits : List Bool) :
    (groupQuintets bits).length = (bits.length + 4) / 5 := by
  fun_induction groupQuintets bits with
  | case1 => rfl
  | case2 a b c d e rest inductionHypothesis =>
      simp only [List.length_cons, inductionHypothesis]
      omega
  | case3 short notEmpty notLong =>
      have few := length_short notLong
      have some := List.length_pos_iff.mpr notEmpty
      rw [List.length_singleton]
      omega

/-- Whole octets are read back, and fewer than eight bits after them are dropped. -/
theorem groupOctets_octetBits (octets : List UInt8) {filling : List Bool}
    (few : filling.length < 8) :
    groupOctets (octets.flatMap octetBits ++ filling) = octets := by
  induction octets with
  | nil =>
      rw [List.flatMap_nil, List.nil_append]
      unfold groupOctets
      split
      · simp only [List.length_cons] at few
        omega
      · rfl
  | cons octet rest inductionHypothesis =>
      have unfolded : groupOctets ((octet :: rest).flatMap octetBits ++ filling) =
          UInt8.ofNat (bitsValue (octetBits octet)) ::
            groupOctets (rest.flatMap octetBits ++ filling) := rfl
      rw [unfolded, ofNat_octetBits, inductionHypothesis]

theorem length_groupOctets (bits : List Bool) : (groupOctets bits).length = bits.length / 8 := by
  fun_induction groupOctets bits with
  | case1 a b c d e f g h rest inductionHypothesis =>
      simp only [List.length_cons, inductionHypothesis]
      omega
  | case2 short notLong =>
      match short with
      | [] | [_] | [_, _] | [_, _, _] | [_, _, _, _] | [_, _, _, _, _] | [_, _, _, _, _, _]
      | [_, _, _, _, _, _, _] => simp
      | a :: b :: c :: d :: e :: f :: g :: h :: rest =>
          exact absurd rfl (notLong a b c d e f g h rest)

/-! ## Octets -/

private theorem length_flatMap_of_size {α : Type} {bits : α → List Bool} {size : Nat}
    (sized : ∀ item, (bits item).length = size) (items : List α) :
    (items.flatMap bits).length = size * items.length := by
  induction items with
  | nil => rfl
  | cons item rest inductionHypothesis =>
      rw [List.flatMap_cons, List.length_append, sized, inductionHypothesis, List.length_cons,
        Nat.mul_succ, Nat.add_comm]

theorem length_flatMap_octetBits (octets : List UInt8) :
    (octets.flatMap octetBits).length = 8 * octets.length := by
  have sized : ∀ octet, (octetBits octet).length = 8 := fun _ => rfl
  exact length_flatMap_of_size sized octets

theorem length_flatMap_quintetBits (quintets : List Quintet) :
    (quintets.flatMap quintetBits).length = 5 * quintets.length := by
  have sized : ∀ quintet, (quintetBits quintet).length = 5 := fun _ => rfl
  exact length_flatMap_of_size sized quintets

theorem length_quintetsOfOctets (octets : List UInt8) :
    (quintetsOfOctets octets).length = (8 * octets.length + 4) / 5 := by
  rw [quintetsOfOctets, length_groupQuintets, length_flatMap_octetBits]

theorem length_octetsOfQuintets (quintets : List Quintet) :
    (octetsOfQuintets quintets).length = 5 * quintets.length / 8 := by
  rw [octetsOfQuintets, length_groupOctets, length_flatMap_quintetBits]

/-- Octets written as quintets read back. -/
theorem octetsOfQuintets_quintetsOfOctets (octets : List UInt8) :
    octetsOfQuintets (quintetsOfOctets octets) = octets := by
  obtain ⟨filling, few, regrouped⟩ := flatMap_groupQuintets (octets.flatMap octetBits)
  rw [octetsOfQuintets, quintetsOfOctets, regrouped]
  exact groupOctets_octetBits octets (by omega)

end NostrCapsule.Bech32
