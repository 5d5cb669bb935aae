import Mathlib.Data.List.Induction
import NostrCapsule.Bech32.Codec

/-!
Contract: the six quintets that `checksum` computes complete any sequence to a valid one.

One feeding step is linear over exclusive or, so what six further quintets add to the register can
be told apart from what six zeros would leave in it.  No feedback reaches those quintets while they
move up, hence they stand in the register as they were fed.

Owns:
- `isValid_checksum`;
- `isValid_checksum_append`: a few quintets behind a checksum make it invalid.

Does not own: which errors the checksum detects.
-/

namespace NostrCapsule.Bech32

/-! ## One step -/

/-- The register after a zero quintet. -/
def advance (register : Register) : Register :=
  (register <<< 5) ^^^ feedback register

/-- A quintet only touches the five lowest bits when it is fed. -/
theorem feed_eq_advance (register : Register) (quintet : Quintet) :
    feed register quintet = advance register ^^^ BitVec.ofNat 30 quintet.val := by
  unfold feed advance
  ac_rfl

private theorem ite_xor (left right : Bool) (value : Register) :
    (if left ^^ right then value else 0) =
      (if left then value else 0) ^^^ (if right then value else 0) := by
  cases left <;> cases right <;> simp

theorem feedback_xor (left right : Register) :
    feedback (left ^^^ right) = feedback left ^^^ feedback right := by
  simp only [feedback, BitVec.getLsbD_xor, ite_xor]
  ac_rfl

theorem advance_xor (left right : Register) :
    advance (left ^^^ right) = advance left ^^^ advance right := by
  simp only [advance, BitVec.shiftLeft_xor_distrib, feedback_xor]
  ac_rfl

/-- With the oldest quintet clear there is no feedback. -/
theorem advance_of_clear {register : Register}
    (clear : ∀ place, 25 ≤ place → register.getLsbD place = false) :
    advance register = register <<< 5 := by
  have silent : feedback register = 0 := by
    simp only [feedback, clear 25 (by decide), clear 26 (by decide), clear 27 (by decide),
      clear 28 (by decide), clear 29 (by decide), Bool.false_eq_true, if_false]
    rfl
  rw [advance, silent]
  exact BitVec.xor_zero

/-! ## Several steps -/

def packed (quintets : List Quintet) : Register :=
  quintets.foldl (fun register quintet => (register <<< 5) ^^^ BitVec.ofNat 30 quintet.val) 0

theorem packed_concat (quintets : List Quintet) (last : Quintet) :
    packed (quintets ++ [last]) = (packed quintets <<< 5) ^^^ BitVec.ofNat 30 last.val := by
  rw [packed, packed, List.foldl_append]
  rfl

private theorem quintet_clear (quintet : Quintet) {place : Nat} (high : 5 ≤ place) :
    (BitVec.ofNat 30 quintet.val).getLsbD place = false := by
  have small : quintet.val < 2 ^ place :=
    Nat.lt_of_lt_of_le quintet.isLt (Nat.pow_le_pow_right Nat.two_pos high)
  rw [BitVec.getLsbD_ofNat, Nat.testBit_lt_two_pow small, Bool.and_false]

/-- Quintets fill five places each. -/
theorem packed_clear (quintets : List Quintet) {place : Nat}
    (above : 5 * quintets.length ≤ place) : (packed quintets).getLsbD place = false := by
  induction quintets using List.reverseRecOn generalizing place with
  | nil => simp [packed]
  | append_singleton front last inductionHypothesis =>
      rw [List.length_append, List.length_singleton] at above
      have moved : (packed front <<< 5).getLsbD place = false := by
        rw [BitVec.getLsbD_shiftLeft, inductionHypothesis (by omega), Bool.and_false]
      rw [packed_concat, BitVec.getLsbD_xor, moved, quintet_clear last (by omega)]
      rfl

theorem feedAll_append (register : Register) (left right : List Quintet) :
    feedAll register (left ++ right) = feedAll (feedAll register left) right := by
  rw [feedAll, feedAll, feedAll, List.foldl_append]

/-- Up to six quintets add themselves to what as many zeros leave. -/
theorem feedAll_eq_zeros_xor_packed (register : Register) (quintets : List Quintet)
    (atMostSix : quintets.length ≤ 6) :
    feedAll register quintets =
      feedAll register (List.replicate quintets.length (lowQuintet 0)) ^^^ packed quintets := by
  induction quintets using List.reverseRecOn with
  | nil => exact BitVec.xor_zero.symm
  | append_singleton front last inductionHypothesis =>
      rw [List.length_append, List.length_singleton] at atMostSix ⊢
      have clear : ∀ place, 25 ≤ place → (packed front).getLsbD place = false := by
        intro place high
        exact packed_clear front (by omega)
      have fedZero : ∀ other : Register, feed other (lowQuintet 0) = advance other := by
        intro other
        rw [feed_eq_advance]
        exact BitVec.xor_zero
      calc feedAll register (front ++ [last])
          = feed (feedAll register front) last := feedAll_append _ _ _
        _ = advance (feedAll register (List.replicate front.length (lowQuintet 0)))
              ^^^ (packed front <<< 5) ^^^ BitVec.ofNat 30 last.val := by
            rw [feed_eq_advance, inductionHypothesis (by omega), advance_xor,
              advance_of_clear clear]
        _ = feedAll register (List.replicate (front.length + 1) (lowQuintet 0))
              ^^^ packed (front ++ [last]) := by
            rw [packed_concat, List.replicate_succ', feedAll_append, ← BitVec.xor_assoc]
            exact congrArg (fun other => other ^^^ _ ^^^ _) (fedZero _).symm

/-! ## The six quintets of a register -/

private theorem shift_join (register : Register) (place : Nat) :
    ((register >>> (place + 5)) <<< 5)
        ^^^ BitVec.ofNat 30 (lowQuintet (register.toNat >>> place)).val =
      register >>> place := by
  apply BitVec.eq_of_getLsbD_eq
  intro index inside
  have low : (lowQuintet (register.toNat >>> place)).val = register.toNat >>> place % 2 ^ 5 := rfl
  rw [BitVec.getLsbD_xor, BitVec.getLsbD_shiftLeft, BitVec.getLsbD_ushiftRight,
    BitVec.getLsbD_ushiftRight, BitVec.getLsbD_ofNat, low, Nat.testBit_mod_two_pow,
    Nat.testBit_shiftRight, BitVec.testBit_toNat]
  by_cases below : index < 5
  · simp [below, inside]
  · have restored : place + 5 + (index - 5) = place + index := by omega
    simp [below, inside, restored]

theorem packed_registerQuintets (register : Register) :
    packed (registerQuintets register) = register := by
  have started : (0 : Register) = register >>> 30 := by
    apply BitVec.eq_of_getLsbD_eq
    intro index inside
    rw [BitVec.getLsbD_ushiftRight, BitVec.getLsbD_of_ge register _ (by omega)]
    exact BitVec.getLsbD_zero
  simp only [packed, registerQuintets, List.map_cons, List.map_nil, List.foldl_cons,
    List.foldl_nil]
  rw [started, shift_join register 25, shift_join register 20, shift_join register 15,
    shift_join register 10, shift_join register 5, shift_join register 0]
  exact BitVec.ushiftRight_zero register

theorem length_checksum (characters : List Char) (quintets : List Quintet) :
    (checksum characters quintets).length = 6 := rfl

/-- The register ends at the constant of the variant that is written. -/
theorem residue_checksum (characters : List Char) (quintets : List Quintet) :
    residue characters (quintets ++ checksum characters quintets) = plainTarget := by
  let fed := feedAll 1 (expandPrefix characters ++ quintets)
  let zeros := List.replicate 6 (lowQuintet 0)
  have residueOf : ∀ tail : List Quintet,
      residue characters (quintets ++ tail) = feedAll fed tail := by
    intro tail
    rw [residue, ← List.append_assoc, feedAll_append]
  have written : packed (checksum characters quintets) = feedAll fed zeros ^^^ plainTarget := by
    rw [checksum, packed_registerQuintets, residueOf]
  have six : (checksum characters quintets).length ≤ 6 := Nat.le_of_eq (length_checksum _ _)
  rw [residueOf, feedAll_eq_zeros_xor_packed _ _ six, length_checksum, written,
    ← BitVec.xor_assoc, BitVec.xor_self, BitVec.zero_xor]

theorem isValid_checksum (characters : List Char) (quintets : List Quintet) :
    isValid characters (quintets ++ checksum characters quintets) = true := by
  rw [isValid, residue_checksum]
  rfl

/-! ## Quintets behind a checksum -/

/-- One bit moves up with each zero, and no feedback meets it before the sixth. -/
theorem feedAll_zeros_plainTarget {count : Nat} (short : count ≤ 5) :
    feedAll plainTarget (List.replicate count (lowQuintet 0)) = plainTarget <<< (5 * count) := by
  have each : ∀ count ∈ List.range 6,
      feedAll plainTarget (List.replicate count (lowQuintet 0)) =
        plainTarget <<< (5 * count) := by
    decide
  exact each count (List.mem_range.mpr (Nat.lt_succ_of_le short))

theorem getLsbD_plainTarget (place : Nat) : plainTarget.getLsbD place = decide (place = 0) := by
  change (1#30).getLsbD place = _
  rw [BitVec.getLsbD_one, decide_eq_true (by decide), Bool.true_and]

theorem getLsbD_plainTarget_shiftLeft {count place : Nat} (inside : count < 30) :
    (plainTarget <<< count).getLsbD place = decide (place = count) := by
  rw [BitVec.getLsbD_shiftLeft, getLsbD_plainTarget]
  grind

/-- Behind a checksum of the first variant, one to five quintets are never valid: the bit that the
checksum left stands right above them.  It is not the one of the first constant any more, and not
yet the highest one of the second. -/
theorem isValid_checksum_append (characters : List Char) (quintets : List Quintet)
    {more : List Quintet} (present : more ≠ []) (short : more.length ≤ 5) :
    isValid characters (quintets ++ checksum characters quintets ++ more) = false := by
  have filled : 0 < more.length := List.length_pos_iff.mpr present
  have left : residue characters (quintets ++ checksum characters quintets ++ more) =
      plainTarget <<< (5 * more.length) ^^^ packed more := by
    rw [residue, ← List.append_assoc, feedAll_append, ← residue, residue_checksum,
      feedAll_eq_zeros_xor_packed _ _ (Nat.le_succ_of_le short), feedAll_zeros_plainTarget short]
  have bitOf : ∀ place, 5 * more.length ≤ place →
      (plainTarget <<< (5 * more.length) ^^^ packed more).getLsbD place =
        decide (place = 5 * more.length) := by
    intro place above
    rw [BitVec.getLsbD_xor, getLsbD_plainTarget_shiftLeft (by omega), packed_clear more above,
      Bool.xor_false]
  have notPlain : plainTarget <<< (5 * more.length) ^^^ packed more ≠ plainTarget := by
    intro same
    have bit := bitOf (5 * more.length) (Nat.le_refl _)
    rw [same, getLsbD_plainTarget, decide_eq_false (by omega), decide_eq_true rfl] at bit
    cases bit
  have notModified : plainTarget <<< (5 * more.length) ^^^ packed more ≠ modifiedTarget := by
    intro same
    have bit := bitOf 29 (by omega)
    rw [same, decide_eq_false (by omega)] at bit
    cases bit
  rw [isValid, left]
  simp only [beq_false_of_ne notPlain, beq_false_of_ne notModified, Bool.or_false]

end NostrCapsule.Bech32
