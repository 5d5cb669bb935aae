import NostrCapsule.Identifier.Payload
import NostrCapsule.Proofs.Text.Octets

/-!
Contract: the entries of a payload and its octets determine each other, and what entries say is no
larger than they are.

Owns:
- `splitEntries`, the entries in octets and what is left behind them;
- `firstValue?`, `relaysOf` and `kindOf?`, what entries say by their tags;
- writing and splitting as inverses (`writeEntries_eq_ok_iff`, `splitEntries_octets`);
- the sizes of entries, and `fields_size_le`, which bounds the fields by the octets they came from;
- the four octets of a number.

Does not own: which fields a kind of pointer needs.
-/

namespace NostrCapsule.Payload

/-! ## Writing -/

def Entry.octets (entry : Entry) : List UInt8 :=
  entry.tag :: UInt8.ofNat entry.value.length :: entry.value

def Entry.size (entry : Entry) : Nat :=
  2 + entry.value.length

def entriesSize (entries : List Entry) : Nat :=
  (entries.map Entry.size).sum

@[simp] theorem entriesSize_nil : entriesSize [] = 0 := rfl

@[simp] theorem entriesSize_cons (entry : Entry) (rest : List Entry) :
    entriesSize (entry :: rest) = entry.size + entriesSize rest := by
  rw [entriesSize, List.map_cons, List.sum_cons, entriesSize]

@[simp] theorem entriesSize_append (left right : List Entry) :
    entriesSize (left ++ right) = entriesSize left + entriesSize right := by
  rw [entriesSize, List.map_append, List.sum_append, entriesSize, entriesSize]

theorem length_flatMap_octets (entries : List Entry) :
    (entries.flatMap Entry.octets).length = entriesSize entries := by
  induction entries with
  | nil => rfl
  | cons entry rest inductionHypothesis =>
      rw [List.flatMap_cons, List.length_append, inductionHypothesis, entriesSize_cons]
      simp only [Entry.octets, Entry.size, List.length_cons]
      omega

theorem Entry.write_of_short {entry : Entry} (short : entry.value.length ≤ valueLimit) :
    entry.write = .ok entry.octets := by
  rw [Entry.write, if_pos short, Entry.octets]

theorem writeEntries_of_short {entries : List Entry}
    (short : ∀ entry ∈ entries, entry.value.length ≤ valueLimit) :
    writeEntries entries = .ok (entries.flatMap Entry.octets) := by
  induction entries with
  | nil => rfl
  | cons entry rest inductionHypothesis =>
      rw [List.forall_mem_cons] at short
      rw [writeEntries, Entry.write_of_short short.1, inductionHypothesis short.2]
      rfl

theorem short_of_writeEntries {entries : List Entry} {octets : List UInt8}
    (written : writeEntries entries = .ok octets) :
    ∀ entry ∈ entries, entry.value.length ≤ valueLimit := by
  induction entries generalizing octets with
  | nil => simp
  | cons entry rest inductionHypothesis =>
      rw [List.forall_mem_cons]
      by_cases short : entry.value.length ≤ valueLimit
      · cases remaining : writeEntries rest with
        | error refusal =>
            rw [writeEntries, Entry.write_of_short short, remaining] at written
            cases written
        | ok others => exact ⟨short, inductionHypothesis remaining⟩
      · rw [writeEntries, Entry.write, if_neg short] at written
        cases written

/-- Entries can be written if, and only if, no value is too long. -/
theorem writeEntries_eq_ok_iff {entries : List Entry} {octets : List UInt8} :
    writeEntries entries = .ok octets ↔
      (∀ entry ∈ entries, entry.value.length ≤ valueLimit) ∧
        octets = entries.flatMap Entry.octets := by
  constructor
  · intro written
    have short := short_of_writeEntries written
    rw [writeEntries_of_short short] at written
    cases written
    exact ⟨short, rfl⟩
  · intro result
    rw [result.2]
    exact writeEntries_of_short result.1

/-! ## Splitting -/

/-- The longest run of whole entries at the start of octets, and the octets after it. -/
def splitEntries : List UInt8 → List Entry × List UInt8
  | tag :: size :: rest =>
      if size.toNat ≤ rest.length then
        let remaining := splitEntries (rest.drop size.toNat)
        (⟨tag, rest.take size.toNat⟩ :: remaining.1, remaining.2)
      else ([], tag :: size :: rest)
  | short => ([], short)
termination_by octets => octets.length
decreasing_by
  simp only [List.length_drop, List.length_cons]
  omega

theorem splitEntries_cons {tag size : UInt8} {rest : List UInt8}
    (whole : size.toNat ≤ rest.length) :
    splitEntries (tag :: size :: rest) =
      (⟨tag, rest.take size.toNat⟩ :: (splitEntries (rest.drop size.toNat)).1,
        (splitEntries (rest.drop size.toNat)).2) := by
  rw [splitEntries, if_pos whole]

/-- Entries that stand in front are found, whatever stands behind them. -/
theorem splitEntries_append {entries : List Entry}
    (short : ∀ entry ∈ entries, entry.value.length ≤ valueLimit) (behind : List UInt8) :
    splitEntries (entries.flatMap Entry.octets ++ behind) =
      (entries ++ (splitEntries behind).1, (splitEntries behind).2) := by
  induction entries with
  | nil => rfl
  | cons entry rest inductionHypothesis =>
      rw [List.forall_mem_cons] at short
      have size : (UInt8.ofNat entry.value.length).toNat = entry.value.length :=
        UInt8.toNat_ofNat_of_lt' (Nat.lt_succ_of_le short.1)
      have shape : (entry :: rest).flatMap Entry.octets ++ behind =
          entry.tag :: UInt8.ofNat entry.value.length ::
            (entry.value ++ (rest.flatMap Entry.octets ++ behind)) := by
        rw [List.flatMap_cons, List.append_assoc]
        rfl
      rw [shape, splitEntries_cons (by rw [size, List.length_append]; omega), size,
        List.take_left, List.drop_left, inductionHypothesis short.2]
      rfl

theorem splitEntries_nil : splitEntries [] = ([], []) := by
  rw [splitEntries]
  simp

/-- Written entries are found again, and nothing after them. -/
theorem splitEntries_octets {entries : List Entry}
    (short : ∀ entry ∈ entries, entry.value.length ≤ valueLimit) :
    splitEntries (entries.flatMap Entry.octets) = (entries, []) := by
  have found := splitEntries_append short []
  rwa [List.append_nil, splitEntries_nil, List.append_nil] at found

theorem entriesSize_splitEntries (octets : List UInt8) :
    entriesSize (splitEntries octets).1 + (splitEntries octets).2.length = octets.length := by
  fun_induction splitEntries octets with
  | case1 tag size rest whole remaining inductionHypothesis =>
      have counted : entriesSize remaining.1 + remaining.2.length =
          (rest.drop size.toNat).length := inductionHypothesis
      have taken : (rest.take size.toNat).length = size.toNat := List.length_take_of_le whole
      rw [entriesSize_cons]
      simp only [Entry.size, taken, List.length_cons]
      rw [List.length_drop] at counted
      omega
  | case2 tag size rest tooLong => simp
  | case3 short notLong => simp

/-- The values that splitting finds are short enough to be written. -/
theorem length_value_le_of_mem_splitEntries {octets : List UInt8} {entry : Entry}
    (member : entry ∈ (splitEntries octets).1) : entry.value.length ≤ valueLimit := by
  fun_induction splitEntries octets with
  | case1 tag size rest whole remaining inductionHypothesis =>
      rcases List.mem_cons.mp member with rfl | later
      · have bounded := size.toNat_lt
        simp only [List.length_take, valueLimit]
        omega
      · exact inductionHypothesis later
  | case2 tag size rest tooLong => cases member
  | case3 short notLong => cases member

/-! ## Fields -/

def firstValue? (tag : UInt8) (entries : List Entry) : Option (List UInt8) :=
  (entries.find? fun entry => entry.tag == tag).map Entry.value

/-- The relays that entries name; one that is not UTF-8 is passed over. -/
def relaysOf (entries : List Entry) : List String :=
  (entries.filter fun entry => entry.tag == relayTag).filterMap
    fun entry => Text.ofOctets? entry.value

/-- The event kind among entries; the first entry with its tag must have four octets. -/
def kindOf? (entries : List Entry) : Except TokenError (Option UInt32) :=
  match firstValue? kindTag entries with
  | none => .ok none
  | some value =>
      match word? value with
      | some word => .ok (some word)
      | none => .error (.wrongLength .kind 4 value.length)

def valueSize : Option (List UInt8) → Nat
  | none => 0
  | some value => 2 + value.length

def relaysSize (relays : List String) : Nat :=
  (relays.map fun relay => 2 + relay.utf8ByteSize).sum

theorem firstValue?_cons (tag : UInt8) (entry : Entry) (rest : List Entry) :
    firstValue? tag (entry :: rest) =
      if entry.tag = tag then some entry.value else firstValue? tag rest := by
  unfold firstValue?
  rw [List.find?_cons]
  by_cases same : entry.tag = tag
  · rw [if_pos same, same, beq_self_eq_true]
    rfl
  · rw [if_neg same, beq_eq_false_iff_ne.mpr same]

theorem relaysOf_cons (entry : Entry) (rest : List Entry) :
    relaysOf (entry :: rest) =
      if entry.tag = relayTag then (Text.ofOctets? entry.value).toList ++ relaysOf rest
      else relaysOf rest := by
  unfold relaysOf
  by_cases relay : entry.tag = relayTag
  · rw [if_pos relay, List.filter_cons_of_pos (by rw [relay, beq_self_eq_true]),
      List.filterMap_cons]
    cases Text.ofOctets? entry.value with
    | none => rfl
    | some text => rfl
  · rw [if_neg relay, List.filter_cons_of_neg (by rw [beq_eq_false_iff_ne.mpr relay]; simp)]

theorem valueSize_firstValue?_cons_le (tag : UInt8) (entry : Entry) (rest : List Entry) :
    valueSize (firstValue? tag (entry :: rest)) ≤
      (if entry.tag = tag then entry.size else 0) + valueSize (firstValue? tag rest) := by
  rw [firstValue?_cons]
  by_cases same : entry.tag = tag
  · rw [if_pos same, if_pos same, valueSize, Entry.size]
    omega
  · rw [if_neg same, if_neg same]
    omega

theorem relaysSize_append (left right : List String) :
    relaysSize (left ++ right) = relaysSize left + relaysSize right := by
  rw [relaysSize, List.map_append, List.sum_append, relaysSize, relaysSize]

theorem relaysSize_ofOctets?_le (value : List UInt8) :
    relaysSize (Text.ofOctets? value).toList ≤ 2 + value.length := by
  cases read : Text.ofOctets? value with
  | none => exact Nat.zero_le _
  | some text =>
      have same := congrArg List.length (Text.octetsOf_of_ofOctets? read)
      rw [Text.length_octetsOf] at same
      rw [Option.toList_some, relaysSize, List.map_singleton, List.sum_singleton]
      omega

theorem relaysSize_relaysOf_cons_le (entry : Entry) (rest : List Entry) :
    relaysSize (relaysOf (entry :: rest)) ≤
      (if entry.tag = relayTag then entry.size else 0) + relaysSize (relaysOf rest) := by
  rw [relaysOf_cons]
  by_cases relay : entry.tag = relayTag
  · have bounded := relaysSize_ofOctets?_le entry.value
    rw [if_pos relay, if_pos relay, relaysSize_append, Entry.size]
    omega
  · rw [if_neg relay, if_neg relay]
    omega

/-- An entry has one tag, so it counts once. -/
private theorem size_by_tag_le (entry : Entry) :
    (if entry.tag = specialTag then entry.size else 0)
        + (if entry.tag = relayTag then entry.size else 0)
        + (if entry.tag = authorTag then entry.size else 0)
        + (if entry.tag = kindTag then entry.size else 0) ≤ entry.size := by
  unfold specialTag relayTag authorTag kindTag
  by_cases special : entry.tag = 0
  · rw [special]
    simp
  by_cases relay : entry.tag = 1
  · rw [relay]
    simp
  by_cases author : entry.tag = 2
  · rw [author]
    simp
  · rw [if_neg special, if_neg relay, if_neg author]
    split <;> omega

/-- The fields that entries give take no more room than the entries. -/
theorem fields_size_le (entries : List Entry) :
    valueSize (firstValue? specialTag entries) + relaysSize (relaysOf entries)
        + valueSize (firstValue? authorTag entries) + valueSize (firstValue? kindTag entries)
      ≤ entriesSize entries := by
  induction entries with
  | nil => exact Nat.le_refl _
  | cons entry rest inductionHypothesis =>
      have special := valueSize_firstValue?_cons_le specialTag entry rest
      have relays := relaysSize_relaysOf_cons_le entry rest
      have author := valueSize_firstValue?_cons_le authorTag entry rest
      have kind := valueSize_firstValue?_cons_le kindTag entry rest
      have once := size_by_tag_le entry
      rw [entriesSize_cons]
      omega

/-! ## Numbers -/

theorem length_wordOctets (word : UInt32) : (wordOctets word).length = 4 := rfl

theorem word?_wordOctets (word : UInt32) : word? (wordOctets word) = some word := by
  have small : word.toNat < 2 ^ 32 := word.toNat_lt
  have spelled : ((word.toNat / 2 ^ 24 % 256 * 256 + word.toNat / 2 ^ 16 % 256) * 256
      + word.toNat / 2 ^ 8 % 256) * 256 + word.toNat % 256 = word.toNat := by
    omega
  simp only [wordOctets, List.map_cons, List.map_nil, word?, UInt8.toNat_ofNat',
    Nat.shiftRight_eq_div_pow, Nat.pow_zero, Nat.div_one]
  rw [spelled, UInt32.ofNat_toNat]

end NostrCapsule.Payload
