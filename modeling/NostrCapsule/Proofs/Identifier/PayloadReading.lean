import Mathlib.Data.Nat.Digits.Defs
import NostrCapsule.Proofs.Identifier.PayloadEntries
import NostrCapsule.Proofs.Refusal

/-!
Contract: what is read from a payload, in terms of the entries that stand in it.

Octets are read entry by entry, and the fields are filled as the entries come.  What they hold at
the end is settled by the first entry of each tag and by the relays; what is refused, by the first
entry for the kind and by what is left behind the last entry.

Owns:
- `IsReading`, the entries of a payload and what is left, and that there is one reading;
- `ofOctets?_eq`, which says that reading by and by gives what the entries say;
- `IsIdle`, for entries that say nothing new, and `ofOctets?_by_entries`.

Does not own: which fields a kind of pointer needs.
-/

namespace NostrCapsule.Payload

/-! ## Readings -/

/-- Entries stand one behind the other in front, and what is left begins with no entry. -/
structure IsReading (octets : List UInt8) (entries : List Entry) (rest : List UInt8) : Prop where
  whole : octets = entries.flatMap Entry.octets ++ rest
  short : ∀ entry ∈ entries, entry.value.length ≤ valueLimit
  ended : ∀ entry later, entry.value.length ≤ valueLimit → rest ≠ Entry.octets entry ++ later

/-- Two octets and as many as the second one says are an entry. -/
theorem octets_take {size : UInt8} {rest : List UInt8} (whole : size.toNat ≤ rest.length)
    (tag : UInt8) :
    (⟨tag, rest.take size.toNat⟩ : Entry).octets = tag :: size :: rest.take size.toNat := by
  show tag :: UInt8.ofNat (rest.take size.toNat).length :: _ = _
  rw [List.length_take_of_le whole, UInt8.ofNat_toNat]

theorem splitEntries_of_ended {rest : List UInt8}
    (ended : ∀ entry later, entry.value.length ≤ valueLimit → rest ≠ Entry.octets entry ++ later) :
    splitEntries rest = ([], rest) := by
  fun_cases splitEntries rest with
  | case1 tag size rest whole remaining =>
      have bounded := size.toNat_lt
      apply absurd _ (ended ⟨tag, rest.take size.toNat⟩ (rest.drop size.toNat) _)
      · rw [octets_take whole, List.cons_append, List.cons_append, List.take_append_drop]
      · rw [List.length_take_of_le whole, valueLimit]
        omega
  | case2 tag size rest tooLong => rfl
  | case3 short notLong => rfl

theorem isReading_splitEntries (octets : List UInt8) :
    IsReading octets (splitEntries octets).1 (splitEntries octets).2 := by
  refine ⟨?_, fun entry member => length_value_le_of_mem_splitEntries member, ?_⟩
  · fun_induction splitEntries octets with
    | case1 tag size rest whole remaining inductionHypothesis =>
        show _ = (_ :: remaining.1).flatMap Entry.octets ++ remaining.2
        rw [List.flatMap_cons, octets_take whole, List.append_assoc, ← inductionHypothesis,
          List.cons_append, List.cons_append, List.take_append_drop]
    | case2 tag size rest tooLong => rfl
    | case3 short notLong => rfl
  · intro entry later small
    fun_induction splitEntries octets with
    | case1 tag size rest whole remaining inductionHypothesis => exact inductionHypothesis
    | case2 tag size rest tooLong =>
        intro same
        injection same with _ same
        injection same with counted behind
        have size : (UInt8.ofNat entry.value.length).toNat = entry.value.length :=
          UInt8.toNat_ofNat_of_lt' (Nat.lt_succ_of_le small)
        rw [counted, size, behind] at tooLong
        exact tooLong (List.sublist_append_left _ _).length_le
    | case3 octets notLong =>
        intro same
        exact notLong _ _ _ same

/-- There is one reading of any octets. -/
theorem isReading_iff {octets : List UInt8} {entries : List Entry} {rest : List UInt8} :
    IsReading octets entries rest ↔ splitEntries octets = (entries, rest) := by
  constructor
  · rintro ⟨rfl, short, ended⟩
    rw [splitEntries_append short, splitEntries_of_ended ended, List.append_nil]
  · intro split
    have reading := isReading_splitEntries octets
    rwa [split] at reading

/-! ## Filling the fields -/

def IsUnknownTag (tag : UInt8) : Prop :=
  tag ≠ specialTag ∧ tag ≠ relayTag ∧ tag ≠ authorTag ∧ tag ≠ kindTag

/-- The kind after further entries: once there is one it stays. -/
def kindAfter : Option UInt32 → List Entry → Except TokenError (Option UInt32)
  | some word, _ => .ok (some word)
  | none, entries => kindOf? entries

theorem kindAfter_singleton_of_ne {entry : Entry} (other : entry.tag ≠ kindTag)
    (kind : Option UInt32) : kindAfter kind [entry] = .ok kind := by
  cases kind with
  | some word => rfl
  | none =>
      rw [kindAfter, kindOf?, firstValue?_cons, if_neg other]
      rfl

/-- Entries can be taken in one by one. -/
theorem kindAfter_cons (kind : Option UInt32) (entry : Entry) (rest : List Entry) :
    kindAfter kind (entry :: rest) =
      kindAfter kind [entry] >>= fun later => kindAfter later rest := by
  cases kind with
  | some word => rfl
  | none =>
      by_cases tag : entry.tag = kindTag
      · simp only [kindAfter, kindOf?, firstValue?_cons, if_pos tag]
        cases word? entry.value <;> rfl
      · rw [kindAfter_singleton_of_ne tag]
        show kindOf? (entry :: rest) = kindOf? rest
        rw [kindOf?, kindOf?, firstValue?_cons, if_neg tag]

namespace Fields

variable (fields : Fields) {entry : Entry}

theorem add_special (tag : entry.tag = specialTag) :
    fields.add entry = .ok { fields with special := fields.special.or (some entry.value) } := by
  obtain ⟨special, relays, author, kind⟩ := fields
  cases special <;> simp [add, tag, specialTag, relayTag, authorTag, kindTag]

theorem add_relay (tag : entry.tag = relayTag) :
    fields.add entry =
      .ok { fields with relays := fields.relays ++ (Text.ofOctets? entry.value).toList } := by
  simp [add, tag, specialTag, relayTag]

theorem add_author (tag : entry.tag = authorTag) :
    fields.add entry = .ok { fields with author := fields.author.or (some entry.value) } := by
  obtain ⟨special, relays, author, kind⟩ := fields
  cases author <;> simp [add, tag, specialTag, relayTag, authorTag, kindTag]

theorem add_kind (tag : entry.tag = kindTag) :
    fields.add entry = (kindAfter fields.kind [entry]).map fun kind => { fields with kind } := by
  obtain ⟨special, relays, author, kind⟩ := fields
  cases kind with
  | some word => simp [add, tag, specialTag, relayTag, authorTag, kindTag, kindAfter, Except.map]
  | none =>
      rw [kindAfter, kindOf?, firstValue?_cons, if_pos tag]
      cases read : word? entry.value <;>
        simp [add, tag, specialTag, relayTag, authorTag, kindTag, read, Except.map]

theorem add_unknown (unknown : IsUnknownTag entry.tag) : fields.add entry = .ok fields := by
  unfold add
  rw [if_neg fun same => unknown.1 same.1, if_neg unknown.2.1,
    if_neg fun same => unknown.2.2.1 same.1, if_neg fun same => unknown.2.2.2 same.1]

theorem isUnknownTag_or (tag : UInt8) :
    tag = specialTag ∨ tag = relayTag ∨ tag = authorTag ∨ tag = kindTag ∨ IsUnknownTag tag := by
  unfold IsUnknownTag
  tauto

/-- What the fields hold after further entries. -/
theorem foldlM_add (entries : List Entry) :
    entries.foldlM add fields =
      (kindAfter fields.kind entries).map fun kind =>
        { special := fields.special.or (firstValue? specialTag entries)
          relays := fields.relays ++ relaysOf entries
          author := fields.author.or (firstValue? authorTag entries)
          kind } := by
  induction entries generalizing fields with
  | nil =>
      obtain ⟨special, relays, author, kind⟩ := fields
      cases kind <;> simp [kindAfter, kindOf?, firstValue?, relaysOf, Except.map, pure, Except.pure]
  | cons entry rest inductionHypothesis =>
      rw [List.foldlM_cons, kindAfter_cons, firstValue?_cons, firstValue?_cons, relaysOf_cons]
      rcases isUnknownTag_or entry.tag with tag | tag | tag | tag | unknown
      · rw [add_special fields tag, kindAfter_singleton_of_ne (by rw [tag]; decide), if_pos tag,
          if_neg (by rw [tag]; decide), if_neg (by rw [tag]; decide), Refusal.ok_bind,
          Refusal.ok_bind, inductionHypothesis]
        simp only [Option.or_assoc, Option.some_or]
      · rw [add_relay fields tag, kindAfter_singleton_of_ne (by rw [tag]; decide),
          if_neg (by rw [tag]; decide), if_pos tag, if_neg (by rw [tag]; decide), Refusal.ok_bind,
          Refusal.ok_bind, inductionHypothesis]
        simp only [List.append_assoc]
      · rw [add_author fields tag, kindAfter_singleton_of_ne (by rw [tag]; decide),
          if_neg (by rw [tag]; decide), if_neg (by rw [tag]; decide), if_pos tag, Refusal.ok_bind,
          Refusal.ok_bind, inductionHypothesis]
        simp only [Option.or_assoc, Option.some_or]
      · rw [add_kind fields tag, if_neg (by rw [tag]; decide), if_neg (by rw [tag]; decide),
          if_neg (by rw [tag]; decide)]
        cases kindAfter fields.kind [entry] with
        | error refusal => rfl
        | ok kind => exact inductionHypothesis { fields with kind }
      · rw [add_unknown fields unknown, kindAfter_singleton_of_ne unknown.2.2.2, if_neg unknown.1,
          if_neg unknown.2.1, if_neg unknown.2.2.1, Refusal.ok_bind, Refusal.ok_bind,
          inductionHypothesis]

/-- Reading on takes in the entries that stand in front, and refuses what is left if it is
anything. -/
theorem readFrom_eq (octets : List UInt8) :
    fields.readFrom octets =
      (splitEntries octets).1.foldlM add fields >>= fun read =>
        if (splitEntries octets).2.isEmpty then .ok read else .error .malformedPayload := by
  fun_induction readFrom fields octets with
  | case1 fields => rw [splitEntries_nil]; rfl
  | case2 fields tag size rest whole later added inductionHypothesis =>
      rw [splitEntries_cons whole, List.foldlM_cons, added, Refusal.ok_bind]
      exact inductionHypothesis
  | case3 fields tag size rest whole refusal added =>
      rw [splitEntries_cons whole, List.foldlM_cons, added]
      rfl
  | case4 fields tag size rest tooLong =>
      rw [splitEntries, if_neg tooLong]
      rfl
  | case5 fields octet => simp [splitEntries, pure, Except.pure]

/-- Reading by and by gives what the entries say.  A kind of the wrong size is refused before what
is left behind the entries, since it stands before it. -/
theorem ofOctets?_eq (octets : List UInt8) :
    ofOctets? octets =
      match kindOf? (splitEntries octets).1 with
      | .error refusal => .error refusal
      | .ok kind =>
          if (splitEntries octets).2.isEmpty then
            .ok
              { special := firstValue? specialTag (splitEntries octets).1
                relays := relaysOf (splitEntries octets).1
                author := firstValue? authorTag (splitEntries octets).1
                kind }
          else .error .malformedPayload := by
  rw [ofOctets?, readFrom_eq, foldlM_add]
  show (kindOf? _).map _ >>= _ = _
  cases kindOf? (splitEntries octets).1 <;> rfl

end Fields

/-! ## Numbers -/

def bigEndian (octets : List UInt8) : Nat :=
  Nat.ofDigits 256 (octets.map UInt8.toNat).reverse

/-- Four octets spell a number, and only four do. -/
theorem exists_word?_eq_some_iff {octets : List UInt8} {number : Nat} :
    (∃ word, word? octets = some word ∧ word.toNat = number) ↔
      octets.length = 4 ∧ bigEndian octets = number := by
  match octets with
  | [a, b, c, d] =>
      have high := a.toNat_lt
      have next := b.toNat_lt
      have third := c.toNat_lt
      have low := d.toNat_lt
      have small : ((a.toNat * 256 + b.toNat) * 256 + c.toNat) * 256 + d.toNat < 2 ^ 32 := by omega
      have spelled : bigEndian [a, b, c, d] =
          ((a.toNat * 256 + b.toNat) * 256 + c.toNat) * 256 + d.toNat := by
        simp only [bigEndian, List.map_cons, List.map_nil, List.reverse_cons, List.reverse_nil,
          List.nil_append, List.cons_append, Nat.ofDigits_cons, Nat.ofDigits_nil]
        omega
      simp only [word?, Option.some.injEq, exists_eq_left', UInt32.toNat_ofNat_of_lt' small, spelled,
        List.length_cons, List.length_nil, true_and]
  | [] | [_] | [_, _] | [_, _, _] | _ :: _ :: _ :: _ :: _ :: _ => simp [word?]

theorem length_of_word? {octets : List UInt8} {word : UInt32} (read : word? octets = some word) :
    octets.length = 4 :=
  (exists_word?_eq_some_iff.mp ⟨word, read, rfl⟩).1

/-! ## Entries that say nothing new -/

/-- An entry that says nothing new behind others: no field has its tag, or a single field has it
and an entry before had it too. -/
def IsIdle (front : List Entry) (entry : Entry) : Prop :=
  IsUnknownTag entry.tag ∨
    entry.tag ≠ relayTag ∧ ∃ earlier ∈ front, earlier.tag = entry.tag

section Idle

variable {front : List Entry} {entry : Entry} (idle : IsIdle front entry) (back : List Entry)

include idle

theorem relaysOf_of_isIdle : relaysOf (front ++ entry :: back) = relaysOf (front ++ back) := by
  have other : entry.tag ≠ relayTag := idle.elim (fun unknown => unknown.2.1) And.left
  simp [relaysOf, List.filter_append, other]

theorem firstValue?_of_isIdle {tag : UInt8} (known : ¬IsUnknownTag tag) :
    firstValue? tag (front ++ entry :: back) = firstValue? tag (front ++ back) := by
  unfold firstValue?
  apply congrArg (Option.map Entry.value)
  rw [List.find?_append, List.find?_append]
  by_cases same : entry.tag = tag
  · -- The tag is known, so an entry in front has it, and that one is found.
    subst same
    obtain ⟨_, earlier, member, tag⟩ := idle.resolve_left known
    have found : (front.find? fun each => each.tag == entry.tag).isSome := by
      rw [List.find?_isSome]
      exact ⟨earlier, member, by rw [tag, beq_self_eq_true]⟩
    rw [Option.or_of_isSome found, Option.or_of_isSome found]
  · rw [List.find?_cons_of_neg (by simpa using same)]

theorem kindOf?_of_isIdle : kindOf? (front ++ entry :: back) = kindOf? (front ++ back) := by
  have known : ¬IsUnknownTag kindTag := fun unknown => unknown.2.2.2 rfl
  rw [kindOf?, kindOf?, firstValue?_of_isIdle idle back known]

end Idle

/-! ## The kind -/

theorem kindOf?_of_wrongLength {entries : List Entry} {value : List UInt8}
    (found : firstValue? kindTag entries = some value) (wrong : value.length ≠ 4) :
    kindOf? entries = .error (.wrongLength .kind 4 value.length) := by
  rw [kindOf?, found]
  cases read : word? value with
  | none => simp only [read]
  | some word => exact absurd (length_of_word? read) wrong

theorem exists_kindOf?_of_length {entries : List Entry}
    (four : ∀ value, firstValue? kindTag entries = some value → value.length = 4) :
    ∃ kind, kindOf? entries = .ok kind ∧
      kind.map UInt32.toNat = (firstValue? kindTag entries).map bigEndian := by
  unfold kindOf?
  cases found : firstValue? kindTag entries with
  | none => exact ⟨none, rfl, rfl⟩
  | some value =>
      obtain ⟨word, read, spelled⟩ := exists_word?_eq_some_iff.mpr ⟨four value found, rfl⟩
      refine ⟨some word, ?_, ?_⟩
      · simp only [read]
      · rw [Option.map_some, spelled, Option.map_some]

namespace Fields

/-- An entry that says nothing new may stand between the others, whatever comes behind it. -/
theorem ofOctets?_of_isIdle {front : List Entry} {entry : Entry}
    (short : ∀ each ∈ entry :: front, each.value.length ≤ valueLimit) (idle : IsIdle front entry)
    (back : List UInt8) :
    ofOctets? (front.flatMap Entry.octets ++ (entry.octets ++ back)) =
      ofOctets? (front.flatMap Entry.octets ++ back) := by
  rw [List.forall_mem_cons] at short
  have behind : splitEntries (entry.octets ++ back) =
      (entry :: (splitEntries back).1, (splitEntries back).2) := by
    have alone := splitEntries_append (List.forall_mem_singleton.mpr short.1) back
    rwa [List.flatMap_singleton] at alone
  have specialKnown : ¬IsUnknownTag specialTag := fun unknown => unknown.1 rfl
  have authorKnown : ¬IsUnknownTag authorTag := fun unknown => unknown.2.2.1 rfl
  rw [ofOctets?_eq, ofOctets?_eq, splitEntries_append short.2, splitEntries_append short.2, behind]
  dsimp only
  rw [kindOf?_of_isIdle idle, firstValue?_of_isIdle idle _ specialKnown,
    firstValue?_of_isIdle idle _ authorKnown, relaysOf_of_isIdle idle]

/-- Octets are in one way entries with a rest behind them that begins with no entry.  If the first
entry for the kind has not four octets, that is refused; else, if anything is left behind the
entries, that is; else the fields are the first value for each tag, the kind being the number that
its octets spell, and all relays that are UTF-8.  So entries whose tag is unknown or names a single
field that was there before make no difference, whatever they hold and whatever comes behind. -/
theorem ofOctets?_by_entries (octets : List UInt8) :
    (∃! reading : List Entry × List UInt8, IsReading octets reading.1 reading.2) ∧
    (∀ entries rest, IsReading octets entries rest →
      (∀ value, firstValue? kindTag entries = some value → value.length ≠ 4 →
        ofOctets? octets = .error (.wrongLength .kind 4 value.length)) ∧
      ((∀ value, firstValue? kindTag entries = some value → value.length = 4) →
        (rest ≠ [] → ofOctets? octets = .error .malformedPayload) ∧
        (rest = [] → ∃ fields, ofOctets? octets = .ok fields ∧
          fields.special = firstValue? specialTag entries ∧
          fields.relays = relaysOf entries ∧
          fields.author = firstValue? authorTag entries ∧
          fields.kind.map UInt32.toNat = (firstValue? kindTag entries).map bigEndian))) ∧
    ∀ front entry back, octets = front.flatMap Entry.octets ++ back →
      (∀ each ∈ entry :: front, each.value.length ≤ valueLimit) → IsIdle front entry →
      ofOctets? (front.flatMap Entry.octets ++ (entry.octets ++ back)) = ofOctets? octets := by
  refine ⟨⟨splitEntries octets, isReading_splitEntries octets, ?_⟩, ?_, ?_⟩
  · intro reading is
    exact (isReading_iff.mp is).symm
  · intro entries rest reading
    rw [ofOctets?_eq, isReading_iff.mp reading]
    dsimp only
    constructor
    · intro value found wrong
      rw [kindOf?_of_wrongLength found wrong]
    · intro four
      obtain ⟨kind, read, spelled⟩ := exists_kindOf?_of_length four
      rw [read]
      dsimp only
      constructor
      · intro left
        rw [if_neg (by simpa using left)]
      · rintro rfl
        exact ⟨_, rfl, rfl, rfl, rfl, spelled⟩
  · rintro front entry back rfl short idle
    exact ofOctets?_of_isIdle short idle back

/-- A kind of two octets before an octet that is left over; and a kind of four octets, behind which
an empty one comes before the octet that is left over. -/
theorem ofOctets?_by_entries_leftover :
    let entries : List Entry := [⟨0, [0xAA]⟩, ⟨3, [0x75, 0x47]⟩]
    let kind : Entry := ⟨3, [0, 0, 0x75, 0x47]⟩
    (IsReading [0, 1, 0xAA, 3, 2, 0x75, 0x47, 7] entries [7] ∧
        firstValue? kindTag entries = some [0x75, 0x47]) ∧
      ofOctets? [0, 1, 0xAA, 3, 2, 0x75, 0x47, 7] = .error (.wrongLength .kind 4 2) ∧
      IsIdle [kind] ⟨3, []⟩ ∧
      ofOctets? (kind.octets ++ [3, 0, 7]) = ofOctets? (kind.octets ++ [7]) ∧
      ofOctets? (kind.octets ++ [7]) = .error .malformedPayload ∧
      ∃ fields, ofOctets? kind.octets = .ok fields ∧ fields.kind.map UInt32.toNat = some 30023 := by
  intro entries kind
  have reading : IsReading [0, 1, 0xAA, 3, 2, 0x75, 0x47, 7] entries [7] :=
    isReading_iff.mpr (by decide +kernel)
  have readingLeft : IsReading (kind.octets ++ [7]) [kind] [7] :=
    isReading_iff.mpr (by decide +kernel)
  have readingWhole : IsReading kind.octets [kind] [] :=
    isReading_iff.mpr (by decide +kernel)
  have found : firstValue? kindTag entries = some [0x75, 0x47] := by decide
  have four : ∀ value, firstValue? kindTag [kind] = some value → value.length = 4 := by
    rintro value ⟨⟩
    rfl
  have idle : IsIdle [kind] ⟨3, []⟩ := .inr ⟨by decide, kind, List.mem_singleton_self kind, rfl⟩
  have wrongLength := ((ofOctets?_by_entries _).2.1 _ _ reading).1 _ found (by decide)
  have leftover := (((ofOctets?_by_entries _).2.1 _ _ readingLeft).2 four).1 (by decide)
  have unchanged := (ofOctets?_by_entries _).2.2 [kind] ⟨3, []⟩ [7] rfl (by decide) idle
  obtain ⟨fields, read, -, -, -, spelled⟩ :=
    (((ofOctets?_by_entries _).2.1 _ _ readingWhole).2 four).2 rfl
  exact ⟨⟨reading, found⟩, wrongLength, idle, unchanged, leftover, fields, read,
    spelled.trans (by decide)⟩

end Fields

end NostrCapsule.Payload
