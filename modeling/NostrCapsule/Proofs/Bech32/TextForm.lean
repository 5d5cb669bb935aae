import NostrCapsule.Bech32.Codec
import NostrCapsule.Proofs.Bech32.ChecksumValidity
import NostrCapsule.Proofs.Bech32.Regrouping
import NostrCapsule.Proofs.Refusal
import NostrCapsule.Proofs.Text.Ascii
import NostrCapsule.Proofs.Text.Octets

/-!
Contract: what is written as text reads back, and what is read is long enough to be written again.

Owns:
- the size of a written text, and when there is one (`encode_eq_ok_iff`);
- the round trip `decode_encode`;
- `length_encodeChars_le_of_decode`: writing what a text holds takes no more characters than the
  text has;
- `isOk_decode_append_of_encode`: a few letters behind a written text make it unreadable.

Does not own: the prefixes in use and the meaning of the octets.
-/

namespace NostrCapsule.Bech32

/-! ## Letters -/

private theorem letter_ne_separator : ∀ quintet : Quintet, letter quintet ≠ '1' := by
  decide

private theorem isUpper_letter : ∀ quintet : Quintet, (letter quintet).isUpper = false := by
  decide

theorem separator_not_mem_letters (quintets : List Quintet) : '1' ∉ quintets.map letter := by
  intro member
  obtain ⟨quintet, _, equal⟩ := List.mem_map.mp member
  exact letter_ne_separator quintet equal

theorem exists_letter_of_mem_alphabet {character : Char} (member : character ∈ alphabet) :
    ∃ quintet : Quintet, letter quintet = character := by
  obtain ⟨index, inside, rfl⟩ := List.getElem_of_mem member
  exact ⟨⟨index, inside⟩, (List.getElem_eq_getD 'q').symm⟩

theorem exists_map_letter {characters : List Char}
    (letters : ∀ character ∈ characters, character ∈ alphabet) :
    ∃ quintets : List Quintet, quintets.map letter = characters := by
  induction characters with
  | nil => exact ⟨[], rfl⟩
  | cons character rest inductionHypothesis =>
      obtain ⟨first, later⟩ := List.forall_mem_cons.mp letters
      obtain ⟨quintet, rfl⟩ := exists_letter_of_mem_alphabet first
      obtain ⟨quintets, rfl⟩ := inductionHypothesis later
      exact ⟨quintet :: quintets, rfl⟩

theorem quintet?_eq_some_iff {character : Char} {quintet : Quintet} :
    quintet? character = some quintet ↔ character = letter quintet := by
  constructor
  · intro read
    have same := List.find?_some read
    exact (eq_of_beq same).symm
  · intro same
    rw [same, quintet?_letter]

theorem mapM_quintet?_eq_some_iff {characters : List Char} {quintets : List Quintet} :
    characters.mapM quintet? = some quintets ↔ characters = quintets.map letter :=
  Refusal.mapM_eq_some_iff quintet?_eq_some_iff

theorem mapM_quintet?_letters (quintets : List Quintet) :
    (quintets.map letter).mapM quintet? = some quintets :=
  mapM_quintet?_eq_some_iff.mpr rfl

theorem mem_alphabet_of_mapM_quintet? {characters : List Char} {quintets : List Quintet}
    (read : characters.mapM quintet? = some quintets) :
    ∀ character ∈ characters, character ∈ alphabet := by
  have each : ∀ quintet : Quintet, letter quintet ∈ alphabet := by decide
  rw [mapM_quintet?_eq_some_iff.mp read, List.forall_mem_map]
  exact fun quintet _ => each quintet

theorem length_of_mapM_quintet? {characters : List Char} {quintets : List Quintet}
    (read : characters.mapM quintet? = some quintets) : quintets.length = characters.length := by
  rw [mapM_quintet?_eq_some_iff.mp read, List.length_map]

/-! ## Prefix and separator -/

theorem splitSeparator_append {front body : List Char} (absent : '1' ∉ body) :
    splitSeparator (front ++ '1' :: body) = some (front, body) := by
  have other : ∀ character ∈ body.reverse, (character != '1') = true := by
    intro character member
    rw [bne_iff_ne]
    exact fun equal => absent (equal ▸ List.mem_reverse.mp member)
  have reversed : (front ++ '1' :: body).reverse = body.reverse ++ '1' :: front.reverse := by
    simp
  simp only [splitSeparator]
  rw [reversed, List.takeWhile_append_of_pos other, List.dropWhile_append_of_pos other]
  simp

theorem eq_append_of_splitSeparator {characters front body : List Char}
    (split : splitSeparator characters = some (front, body)) :
    characters = front ++ '1' :: body := by
  have parts := List.takeWhile_append_dropWhile (p := (· != '1')) (l := characters.reverse)
  unfold splitSeparator at split
  cases rest : characters.reverse.dropWhile (· != '1') with
  | nil =>
      rw [rest] at split
      cases split
  | cons separator before =>
      simp only [rest, Option.some.injEq, Prod.mk.injEq] at split
      rcases split with ⟨rfl, rfl⟩
      have stopped : separator = '1' := by
        have first := List.head_dropWhile_not (· != '1') (l := characters.reverse) (by simp [rest])
        simpa [rest] using first
      have whole := congrArg List.reverse parts
      rw [rest, List.reverse_reverse, List.reverse_append, List.reverse_cons, stopped,
        List.append_assoc, List.singleton_append] at whole
      exact whole.symm

theorem length_of_splitSeparator {characters front body : List Char}
    (split : splitSeparator characters = some (front, body)) :
    characters.length = front.length + 1 + body.length := by
  rw [eq_append_of_splitSeparator split, List.length_append, List.length_cons]
  omega

/-! ## Size -/

theorem length_encodeChars (front : List Char) (octets : List UInt8) :
    (encodeChars front octets).length =
      front.length + 1 + (8 * octets.length + 4) / 5 + 6 := by
  simp only [encodeChars, List.length_append, List.length_cons, List.length_map, length_checksum,
    length_quintetsOfOctets]
  omega

theorem encode_eq_ok_iff {front text : String} {octets : List UInt8} :
    encode front octets = .ok text ↔
      front.length + 1 + (8 * octets.length + 4) / 5 + 6 ≤ lengthLimit ∧
        text = String.ofList (encodeChars front.toList octets) := by
  have size := length_encodeChars front.toList octets
  rw [String.length_toList] at size
  unfold encode
  simp only [size]
  by_cases fits : front.length + 1 + (8 * octets.length + 4) / 5 + 6 ≤ lengthLimit
  · rw [if_pos fits]
    constructor
    · intro written
      cases written
      exact ⟨fits, rfl⟩
    · intro result
      rw [result.2]
  · rw [if_neg fits]
    constructor
    · intro written
      cases written
    · intro result
      exact absurd result.1 fits

/-! ## Round trip -/

/-- A prefix that is written as it is read: valid, and without capital letters. -/
def IsCanonicalPrefix (front : List Char) : Prop :=
  isPrefix front = true ∧ ∀ character ∈ front, character.isUpper = false

/-- A written text consists of its prefix, the separator and letters. -/
theorem forall_mem_encodeChars {property : Char → Prop} {front : List Char}
    (ofFront : ∀ character ∈ front, property character) (ofSeparator : property '1')
    (ofLetter : ∀ quintet, property (letter quintet)) (octets : List UInt8) :
    ∀ character ∈ encodeChars front octets, property character := by
  intro character member
  simp only [encodeChars, List.mem_append, List.mem_cons, List.mem_map] at member
  rcases member with inFront | rfl | ⟨quintet, _, rfl⟩
  · exact ofFront character inFront
  · exact ofSeparator
  · exact ofLetter quintet

theorem isUpper_encodeChars {front : List Char} (canonical : IsCanonicalPrefix front)
    (octets : List UInt8) :
    ∀ character ∈ encodeChars front octets, character.isUpper = false :=
  forall_mem_encodeChars canonical.2 rfl isUpper_letter octets

private theorem ascii_letter : ∀ quintet : Quintet, (letter quintet).toNat < 128 := by
  decide

theorem ascii_encodeChars {front : List Char} (canonical : IsCanonicalPrefix front)
    (octets : List UInt8) :
    ∀ character ∈ encodeChars front octets, character.toNat < 128 := by
  refine forall_mem_encodeChars ?_ (by decide) ascii_letter octets
  intro character inFront
  have valid := canonical.1
  simp only [isPrefix, Bool.and_eq_true, List.all_eq_true, decide_eq_true_eq] at valid
  exact Nat.lt_of_le_of_lt (valid.2 character inFront).2 (by decide)

/-- A written text is ASCII: it has as many octets as characters. -/
theorem utf8ByteSize_of_encode {front text : String} {octets : List UInt8}
    (canonical : IsCanonicalPrefix front.toList) (written : encode front octets = .ok text) :
    text.utf8ByteSize = text.length := by
  obtain ⟨_, rfl⟩ := encode_eq_ok_iff.mp written
  apply Text.utf8ByteSize_eq_length
  rw [String.toList_ofList]
  exact ascii_encodeChars canonical octets

theorem decodeChars_encodeChars {front : List Char} (canonical : IsCanonicalPrefix front)
    {octets : List UInt8} (fits : (encodeChars front octets).length ≤ lengthLimit) :
    decodeChars (encodeChars front octets) = .ok (front, octets) := by
  have small := isUpper_encodeChars canonical octets
  have notMixed : isMixedCase (encodeChars front octets) = false := by
    have noCapital : (encodeChars front octets).any Char.isUpper = false := by
      rw [List.any_eq_false]
      intro character member
      rw [small character member]
      exact Bool.false_ne_true
    rw [isMixedCase, noCapital, Bool.and_false]
  let quintets := quintetsOfOctets octets ++ checksum front (quintetsOfOctets octets)
  have split : splitSeparator (encodeChars front octets) = some (front, quintets.map letter) :=
    splitSeparator_append (separator_not_mem_letters quintets)
  have enough : ¬ quintets.length < 6 := by
    rw [List.length_append, length_checksum]
    omega
  have payload : quintets.take (quintets.length - 6) = quintetsOfOctets octets := by
    rw [List.length_append, length_checksum, Nat.add_sub_cancel]
    exact List.take_left
  unfold decodeChars
  rw [if_neg (Nat.not_lt.mpr fits), notMixed, Text.map_toLower_of_not_upper small, split]
  simp only [canonical.1, mapM_quintet?_letters, if_neg enough, payload]
  rw [if_pos (isValid_checksum front _), octetsOfQuintets_quintetsOfOctets]
  rfl

theorem decode_encode {front text : String} {octets : List UInt8}
    (canonical : IsCanonicalPrefix front.toList) (written : encode front octets = .ok text) :
    decode text = .ok (front, octets) := by
  obtain ⟨fits, rfl⟩ := encode_eq_ok_iff.mp written
  have size := length_encodeChars front.toList octets
  rw [String.length_toList] at size
  rw [decode, String.toList_ofList, decodeChars_encodeChars canonical (by omega)]
  simp [Except.map]

/-! ## What a readable text holds -/

/-- What reading has found when it succeeds. -/
theorem decodeChars_eq_ok {characters front : List Char} {octets : List UInt8}
    (read : decodeChars characters = .ok (front, octets)) :
    characters.length ≤ lengthLimit ∧
      ∃ body quintets,
        splitSeparator (characters.map Char.toLower) = some (front, body) ∧
          body.mapM quintet? = some quintets ∧
          6 ≤ quintets.length ∧
          isValid front quintets = true ∧
          octets = octetsOfQuintets (quintets.take (quintets.length - 6)) := by
  unfold decodeChars at read
  split at read
  · cases read
  next fits =>
  split at read
  · cases read
  split at read
  · cases read
  next found body split =>
  split at read
  · cases read
  split at read
  · cases read
  next quintets letters =>
  split at read
  · cases read
  next enough =>
  split at read
  · next valid =>
    cases read
    exact ⟨Nat.not_lt.mp fits, body, quintets, split, letters, Nat.not_lt.mp enough, valid, rfl⟩
  · cases read

/-- In small letters, a readable text is its prefix, the separator and letters of the alphabet. -/
theorem exists_body_of_decode {text front : String} {octets : List UInt8}
    (read : decode text = .ok (front, octets)) :
    ∃ body, text.toList.map Char.toLower = front.toList ++ '1' :: body ∧
      ∀ character ∈ body, character ∈ alphabet := by
  cases result : decodeChars text.toList with
  | error fault =>
      rw [decode, result] at read
      cases read
  | ok found =>
      rw [decode, result] at read
      cases read
      obtain ⟨_, body, quintets, split, letters, _⟩ := decodeChars_eq_ok result
      rw [String.toList_ofList]
      exact ⟨body, eq_append_of_splitSeparator split, mem_alphabet_of_mapM_quintet? letters⟩

/-- Writing what was read takes no more characters than there were, and keeps to the limit. -/
theorem length_encodeChars_le_of_decode {text front : String} {octets : List UInt8}
    (read : decode text = .ok (front, octets)) :
    (encodeChars front.toList octets).length ≤ text.length ∧ text.length ≤ lengthLimit := by
  cases result : decodeChars text.toList with
  | error fault =>
      rw [decode, result] at read
      cases read
  | ok found =>
      rcases found with ⟨name, held⟩
      rw [decode, result] at read
      cases read
      obtain ⟨fits, body, quintets, split, letters, enough, _, rfl⟩ := decodeChars_eq_ok result
      have whole := length_of_splitSeparator split
      rw [List.length_map] at whole
      have groups := length_of_mapM_quintet? letters
      rw [String.length_toList] at fits whole
      rw [length_encodeChars, String.toList_ofList, length_octetsOfQuintets, List.length_take]
      omega

/-! ## Letters behind a written text -/

theorem decodeChars_encodeChars_append {front : List Char} (canonical : IsCanonicalPrefix front)
    (octets : List UInt8) {more : List Quintet} (present : more ≠ []) (short : more.length ≤ 5)
    (found : List Char × List UInt8) :
    decodeChars (encodeChars front octets ++ more.map letter) ≠ .ok found := by
  intro read
  obtain ⟨_, body, quintets, split, letters, _, valid, _⟩ := decodeChars_eq_ok read
  let written := quintetsOfOctets octets ++ checksum front (quintetsOfOctets octets)
  have whole : encodeChars front octets ++ more.map letter =
      front ++ '1' :: (written ++ more).map letter := by
    rw [List.map_append, ← List.cons_append, ← List.append_assoc]
    rfl
  have small : ∀ character ∈ encodeChars front octets ++ more.map letter,
      character.isUpper = false := by
    intro character member
    rcases List.mem_append.mp member with inside | behind
    · exact isUpper_encodeChars canonical octets character inside
    · obtain ⟨quintet, _, rfl⟩ := List.mem_map.mp behind
      exact isUpper_letter quintet
  rw [Text.map_toLower_of_not_upper small, whole,
    splitSeparator_append (separator_not_mem_letters _)] at split
  cases split
  rw [mapM_quintet?_letters] at letters
  cases letters
  exact Bool.false_ne_true ((isValid_checksum_append _ _ present short).symm.trans valid)

/-- One to five letters behind a written text make it unreadable. -/
theorem isOk_decode_append_of_encode {front text more : String} {octets : List UInt8}
    (canonical : IsCanonicalPrefix front.toList) (written : encode front octets = .ok text)
    (present : more ≠ "") (short : more.length ≤ 5)
    (letters : ∀ character ∈ more.toList, character ∈ alphabet) :
    (decode (text ++ more)).isOk = false := by
  obtain ⟨_, rfl⟩ := encode_eq_ok_iff.mp written
  obtain ⟨quintets, spelled⟩ := exists_map_letter letters
  have filled : quintets ≠ [] := by
    rintro rfl
    exact present (String.toList_eq_nil_iff.mp spelled.symm)
  have few : quintets.length ≤ 5 := by
    rwa [← List.length_map letter, spelled, String.length_toList]
  rw [decode, String.toList_append, String.toList_ofList, ← spelled]
  cases result : decodeChars (encodeChars front.toList octets ++ quintets.map letter) with
  | error fault => rfl
  | ok found =>
      exact absurd result (decodeChars_encodeChars_append canonical octets filled few found)

/-- Six letters may be the checksum of all that stands before them. -/
example :
    (decode ("note14w46h2at4w46h2at4w46h2at4w46h2at4w46h2at4w46h2at4w4sfreljc" ++ "ak54an")).isOk =
      true := by
  decide +kernel

end NostrCapsule.Bech32
