import NostrCapsule.Identifier.Spelling
import NostrCapsule.Proofs.Identifier.HexDigits
import NostrCapsule.Proofs.Identifier.TokenRoundTrip
import NostrCapsule.Proofs.Refusal
import NostrCapsule.Proofs.Text.Blank

/-!
Contract: the spellings of an identifier, and nothing else, are read as that identifier.

A spelling is 64 hexadecimal digits, or a token that reads as a pointer to the identifier; white
space may stand around it, and the scheme in front of it.  Digits and tokens hold neither white
space nor the colon of the scheme, so nothing of a spelling is taken off with these; and a token
holds an `n`, which is no digit, so no text is both.

Owns:
- `Wraps`, by which a spelling stands in a text;
- `spelledId?_eq_some_iff`, and `spelled_exactly` for keys and events.

Does not own: which tokens read.
-/

namespace NostrCapsule

variable {role : IdRole} {input spelling : String}

/-! ## Characters -/

def isSolid (character : Char) : Bool :=
  !Text.isBlank character && character != ':'

theorem isSolid_iff {character : Char} :
    isSolid character = true ↔ Text.isBlank character = false ∧ character ≠ ':' := by
  rw [isSolid, Bool.and_eq_true, Bool.not_eq_true', bne_iff_ne]

def IsBare (text : String) : Prop :=
  ∀ character ∈ text.toList, isSolid character = true

theorem isBare_of_isSpelling (digits : HexId.IsSpelling spelling) : IsBare spelling := by
  intro character member
  obtain ⟨value, read⟩ := Hex.exists_digit?_iff.mpr (digits.digits character member)
  have ascii := Hex.ascii_of_isDigit (digits.digits character member)
  exact Text.of_ascii
    (fun character => ∀ value ∈ Hex.digit? character, isSolid character = true)
    (by decide) ascii value read

theorem isSolid_toLower (character : Char) : isSolid character.toLower = isSolid character :=
  Text.apply_toLower isSolid (by decide) character

namespace Pointer

variable {pointer : Pointer} {token : String}

/-- In small letters, a token that reads is the prefix of its kind, the separator and letters. -/
theorem exists_body_of_ofToken (read : ofToken token = .ok pointer) :
    ∃ (kind : PointerKind) (body : List Char),
      token.toList.map Char.toLower = kind.tokenPrefix.toList ++ '1' :: body ∧
        ∀ character ∈ body, character ∈ Bech32.alphabet := by
  unfold ofToken at read
  split at read
  · cases read
  next name octets decoded =>
  split at read
  · cases read
  next kind found =>
  obtain ⟨body, spelled, letters⟩ := Bech32.exists_body_of_decode decoded
  have named := List.find?_some found
  rw [beq_iff_eq] at named
  exact ⟨kind, body, named ▸ spelled, letters⟩

theorem isBare_of_ofToken (read : ofToken token = .ok pointer) : IsBare token := by
  obtain ⟨kind, body, spelled, letters⟩ := exists_body_of_ofToken read
  have solidPrefix : kind.tokenPrefix.toList.all isSolid = true := by
    cases kind <;> decide
  have solidAlphabet : Bech32.alphabet.all isSolid = true := by
    decide
  intro character member
  have lower := List.mem_map_of_mem member (f := Char.toLower)
  rw [spelled, List.mem_append, List.mem_cons] at lower
  rw [← isSolid_toLower]
  rcases lower with front | separator | behind
  · exact List.all_eq_true.mp solidPrefix _ front
  · exact separator ▸ by decide
  · exact List.all_eq_true.mp solidAlphabet _ (letters _ behind)

/-- No token that reads spells an identifier in digits: all prefixes begin with an `n`. -/
theorem not_isSpelling_of_ofToken (read : ofToken token = .ok pointer) :
    ¬ HexId.IsSpelling token := by
  intro spelling
  obtain ⟨kind, body, spelled, _⟩ := exists_body_of_ofToken read
  have named : 'n' ∈ kind.tokenPrefix.toList := by
    cases kind <;> decide
  have listed : 'n' ∈ token.toList.map Char.toLower := spelled ▸ List.mem_append_left _ named
  obtain ⟨character, member, small⟩ := List.mem_map.mp listed
  obtain ⟨value, digit⟩ := Hex.exists_digit?_iff.mpr (spelling.digits character member)
  have noDigit : Hex.digit? 'n' = none := by decide
  rw [← Hex.digit?_toLower, small, noDigit] at digit
  cases digit

def IsToKey (pointer : Pointer) (key : PublicKey) : Prop :=
  pointer = .pubkey key ∨ ∃ relays, pointer = .profile key relays

def IsToEvent (pointer : Pointer) (id : EventId) : Prop :=
  pointer = .note id ∨ ∃ relays author kind, pointer = .event id relays author kind

theorem targetKey?_eq_some_iff {key : PublicKey} :
    pointer.targetKey? = some key ↔ pointer.IsToKey key := by
  cases pointer <;> simp [targetKey?, IsToKey]

theorem targetEvent?_eq_some_iff {id : EventId} :
    pointer.targetEvent? = some id ↔ pointer.IsToEvent id := by
  cases pointer <;> simp [targetEvent?, IsToEvent]

end Pointer

/-! ## What stands around a spelling -/

/-- A text is a spelling with white space around it, and with the scheme in front of it or not. -/
def Wraps (input spelling : String) : Prop :=
  ∃ front lead back, input = front ++ (lead ++ spelling ++ back) ∧
    Text.isAllBlank front = true ∧ Text.isAllBlank back = true ∧ (lead = "" ∨ lead = scheme)

theorem dropScheme_of_isBare (bare : IsBare spelling) : dropScheme spelling = spelling := by
  unfold dropScheme
  split
  · next rest found =>
      have colon : ':' ∈ spelling.toList := by
        rw [Text.eq_append_of_afterPrefix? found]
        exact List.mem_append_left rest (by decide)
      exact absurd rfl (isSolid_iff.mp (bare ':' colon)).2
  · rfl

theorem Wraps.dropScheme_trim (wraps : Wraps input spelling) (bare : IsBare spelling) :
    dropScheme (Text.trim input) = spelling := by
  obtain ⟨front, lead, back, rfl, frontBlank, backBlank, leads⟩ := wraps
  have leadLetters : lead.toList.any Text.isBlank = false := by
    rcases leads with rfl | rfl <;> decide
  have letters : ∀ character ∈ (lead ++ spelling).toList, Text.isBlank character = false := by
    rw [String.toList_append, List.forall_mem_append]
    constructor
    · exact fun character member => Bool.eq_false_iff.mpr (List.any_eq_false.mp leadLetters _ member)
    · exact fun character member => (isSolid_iff.mp (bare character member)).1
  rw [Text.trim_append frontBlank letters backBlank]
  rcases leads with rfl | rfl
  · rw [String.empty_append, dropScheme_of_isBare bare]
  · exact dropScheme_scheme_append spelling

/-- Any text wraps what is left of it. -/
theorem wraps_dropScheme_trim (input : String) : Wraps input (dropScheme (Text.trim input)) := by
  obtain ⟨front, back, frontBlank, backBlank, split⟩ := Text.exists_blank_around_trim input
  cases found : Text.afterPrefix? scheme.toList (Text.trim input).toList with
  | none =>
      have kept : dropScheme (Text.trim input) = Text.trim input := by
        rw [dropScheme, found]
      have joined : "" ++ Text.trim input = Text.trim input := String.empty_append
      rw [kept]
      refine ⟨front, "", back, ?_, frontBlank, backBlank, .inl rfl⟩
      rw [joined]
      exact split
  | some rest =>
      have whole : scheme ++ dropScheme (Text.trim input) = Text.trim input := by
        rw [dropScheme, found, ← String.toList_inj, String.toList_append, String.toList_ofList,
          ← Text.eq_append_of_afterPrefix? found]
      refine ⟨front, scheme, back, ?_, frontBlank, backBlank, .inr rfl⟩
      rw [whole]
      exact split

/-! ## Reading -/

section Reading

variable {target : Pointer → Option (HexId role)} {id : HexId role}

theorem spelledId?_of_ofToken {pointer : Pointer} (read : Pointer.ofToken spelling = .ok pointer)
    (wraps : Wraps input spelling) : spelledId? target input = target pointer := by
  have noDigits : ∀ id : HexId role, HexId.ofText? spelling ≠ .ok id := fun id spelled =>
    Pointer.not_isSpelling_of_ofToken read (HexId.exists_ofText?_iff.mp ⟨id, spelled⟩)
  have left := wraps.dropScheme_trim (Pointer.isBare_of_ofToken read)
  unfold spelledId?
  dsimp only
  rw [left]
  split
  · next id spelled => exact absurd spelled (noDigits id)
  · rw [read]
    rfl

/-- An identifier is read from a text exactly if this wraps digits that spell it or a token whose
target it is. -/
theorem spelledId?_eq_some_iff :
    spelledId? target input = some id ↔ ∃ spelling, Wraps input spelling ∧
      (id.text = spelling.toLower ∨
        ∃ pointer, Pointer.ofToken spelling = .ok pointer ∧ target pointer = some id) := by
  constructor
  · intro found
    refine ⟨_, wraps_dropScheme_trim input, ?_⟩
    unfold spelledId? at found
    dsimp only at found
    split at found
    · next spelled =>
        cases found
        exact .inl (HexId.ofText?_eq_ok_iff.mp spelled)
    · obtain ⟨pointer, read, same⟩ := Option.bind_eq_some_iff.mp found
      exact .inr ⟨pointer, Refusal.toOption_eq_some_iff.mp read, same⟩
  · rintro ⟨spelling, wraps, spelled | ⟨pointer, read, same⟩⟩
    · have read : HexId.ofText? spelling = .ok id := HexId.ofText?_eq_ok_iff.mpr spelled
      have digits := HexId.exists_ofText?_iff.mp ⟨id, read⟩
      have left := wraps.dropScheme_trim (isBare_of_isSpelling digits)
      unfold spelledId?
      dsimp only
      rw [left, read]
    · rw [spelledId?_of_ofToken read wraps, same]

theorem exists_spelledId?_of_isSpelling (target : Pointer → Option (HexId role))
    (digits : HexId.IsSpelling spelling) (wraps : Wraps input spelling) :
    ∃ id, spelledId? target input = some id ∧ id.text = spelling.toLower := by
  obtain ⟨id, read⟩ : ∃ id : HexId role, HexId.ofText? spelling = .ok id :=
    HexId.exists_ofText?_iff.mpr digits
  have spelled := HexId.ofText?_eq_ok_iff.mp read
  exact ⟨id, spelledId?_eq_some_iff.mpr ⟨spelling, wraps, .inl spelled⟩, spelled⟩

/-- The text of an identifier is one of its spellings. -/
theorem spelledId?_text (target : Pointer → Option (HexId role)) (id : HexId role) :
    spelledId? target id.text = some id := by
  have read : HexId.ofText? id.text = .ok id := by
    rw [HexId.ofText?_eq_ok_iff_decode, HexId.toList_text, Hex.decode_encode]
  have wraps : Wraps id.text id.text :=
    ⟨"", "", "", by simp only [String.empty_append, String.append_empty], rfl, rfl, .inl rfl⟩
  exact spelledId?_eq_some_iff.mpr ⟨id.text, wraps, .inl (HexId.ofText?_eq_ok_iff.mp read)⟩

end Reading

/-- A key is read from a text exactly if the text wraps digits that spell it or a token that reads
as a pointer to its author, and an event identifier likewise.  So the token written for a pointer
gives the key or the event that the pointer is to, and nothing if it is to neither; 64 digits of
either case give the key and the event whose own text they are in small letters; and the text of
whatever was read is read as the same. -/
theorem spelled_exactly :
    (∀ input key, spelledKey? input = some key ↔ ∃ spelling, Wraps input spelling ∧
      (key.text = spelling.toLower ∨
        ∃ pointer, Pointer.ofToken spelling = .ok pointer ∧ pointer.IsToKey key)) ∧
    (∀ input id, spelledEvent? input = some id ↔ ∃ spelling, Wraps input spelling ∧
      (id.text = spelling.toLower ∨
        ∃ pointer, Pointer.ofToken spelling = .ok pointer ∧ pointer.IsToEvent id)) ∧
    (∀ (pointer : Pointer) token, pointer.toToken = .ok token → ∀ input, Wraps input token →
      (∀ key, spelledKey? input = some key ↔ pointer.IsToKey key) ∧
      ∀ id, spelledEvent? input = some id ↔ pointer.IsToEvent id) ∧
    (∀ digits, HexId.IsSpelling digits → ∀ input, Wraps input digits →
      (∃ key, spelledKey? input = some key ∧ key.text = digits.toLower) ∧
      ∃ id, spelledEvent? input = some id ∧ id.text = digits.toLower) ∧
    (∀ input key, spelledKey? input = some key → spelledKey? key.text = some key) ∧
    ∀ input id, spelledEvent? input = some id → spelledEvent? id.text = some id := by
  refine ⟨fun input key => ?_, fun input id => ?_, ?_, ?_, ?_, ?_⟩
  · simp only [← Pointer.targetKey?_eq_some_iff]
    exact spelledId?_eq_some_iff
  · simp only [← Pointer.targetEvent?_eq_some_iff]
    exact spelledId?_eq_some_iff
  · intro pointer token written input wraps
    have read := Pointer.ofToken_of_toToken written
    simp only [← Pointer.targetKey?_eq_some_iff, ← Pointer.targetEvent?_eq_some_iff, spelledKey?,
      spelledEvent?, spelledId?_of_ofToken read wraps, implies_true, and_self]
  · intro digits spelling input wraps
    exact ⟨exists_spelledId?_of_isSpelling _ spelling wraps,
      exists_spelledId?_of_isSpelling _ spelling wraps⟩
  · exact fun _ key _ => spelledId?_text _ key
  · exact fun _ id _ => spelledId?_text _ id

/-- A note's token behind the scheme and between white space is read as an event and not as a key,
and capital digits are read as either. -/
theorem spelled_exactly_note :
    let note : EventId := ⟨List.replicate 32 0xab, rfl⟩
    let token := "note14w46h2at4w46h2at4w46h2at4w46h2at4w46h2at4w46h2at4w4sfreljc"
    let digits := String.ofList (List.replicate 32 ['A', 'B']).flatten
    (Pointer.note note).toToken = .ok token ∧ HexId.IsSpelling digits ∧
      spelledEvent? ("\u00a0 " ++ (scheme ++ token ++ "\n")) = some note ∧
      spelledKey? ("\u00a0 " ++ (scheme ++ token ++ "\n")) = none ∧
      (∃ key, spelledKey? digits = some key ∧ key.text = digits.toLower) ∧
      spelledEvent? note.text = some note := by
  intro note token digits
  have written : (Pointer.note note).toToken = .ok token := by
    decide +kernel
  have spelling : HexId.IsSpelling digits := by
    have read : digits.toList.all (fun character => (Hex.digit? character).isSome) = true := by
      decide +kernel
    refine ⟨by decide +kernel, fun character member => Hex.exists_digit?_iff.mp ?_⟩
    exact Option.isSome_iff_exists.mp (List.all_eq_true.mp read character member)
  obtain ⟨_, _, ofPointer, ofDigits, _, again⟩ := spelled_exactly
  have wraps : Wraps ("\u00a0 " ++ (scheme ++ token ++ "\n")) token :=
    ⟨_, scheme, _, rfl, by decide, by decide, .inr rfl⟩
  have bare : Wraps digits digits := ⟨"", "", "", by decide +kernel, rfl, rfl, .inl rfl⟩
  obtain ⟨asKey, asEvent⟩ := ofPointer _ _ written _ wraps
  have read := (asEvent note).mpr (.inl rfl)
  refine ⟨written, spelling, read, ?_, (ofDigits digits spelling _ bare).1, again _ _ read⟩
  rw [Option.eq_none_iff_forall_ne_some]
  intro key found
  rcases (asKey key).mp found with same | ⟨relays, same⟩ <;> cases same

end NostrCapsule
