import Mathlib.Data.List.TakeWhile
import NostrCapsule.Page.Link
import NostrCapsule.Proofs.Identifier.SpelledIds
import NostrCapsule.Proofs.Text.Numeral
import NostrCapsule.Proofs.Text.Percent

/-!
Contract: the path of a pointer names its target and nothing else, and a link line keeps it.

The three kinds of target have paths that differ after the first slash.  Digits hold no slash, so
kind and author can be cut off the path of an address, whatever its identifier is.  All characters
of a path are visible ones, so a path ends where the label of a link line begins.

Owns:
- `Pointer.Target`, with one path for each target;
- `linkAddress?`, which reads the address off a link line;
- `Pointer.linkPath_identifies_target`.

Does not own: the page that stands at a path.
-/

namespace NostrCapsule

open Text

/-! ## Up to a separator -/

theorem takeWhile_append_separator {separator : Char} {front : List Char}
    (absent : separator ∉ front) (rest : List Char) :
    (front ++ separator :: rest).takeWhile (· != separator) = front := by
  have others : ∀ character ∈ front, (character != separator) = true := by
    intro character member
    rw [bne_iff_ne]
    exact fun same => absent (same ▸ member)
  rw [List.takeWhile_append_of_pos others, List.takeWhile_cons_of_neg (by simp), List.append_nil]

/-- A part that ends before the first separator can be cut off. -/
theorem append_separator_inj {separator : Char} {left right leftRest rightRest : List Char}
    (leftAbsent : separator ∉ left) (rightAbsent : separator ∉ right)
    (same : left ++ separator :: leftRest = right ++ separator :: rightRest) :
    left = right ∧ leftRest = rightRest := by
  have parts := congrArg (List.takeWhile (· != separator)) same
  rw [takeWhile_append_separator leftAbsent, takeWhile_append_separator rightAbsent] at parts
  subst parts
  exact ⟨rfl, (List.cons.inj (List.append_cancel_left same)).2⟩

/-! ## Digits -/

theorem HexId.visible_of_mem_text {role : IdRole} (id : HexId role) :
    ∀ character ∈ id.text.toList, IsVisible character ∧ character ≠ '/' := by
  rw [id.toList_text]
  exact Hex.forall_mem_encode (by decide) id.octets

theorem visible_of_mem_toString (value : Nat) :
    ∀ character ∈ (toString value).toList, IsVisible character ∧ character ≠ '/' := by
  intro character member
  rw [Nat.toString_eq_ofList_toDigits, String.toList_ofList] at member
  have digit := isDigit_of_mem_digitsOf member
  constructor
  · obtain ⟨least, greatest⟩ := Char.isDigit_iff_toNat.mp digit
    exact ⟨Nat.le_trans (by decide) least, Nat.le_trans greatest (by decide)⟩
  · rintro rfl
    cases digit

namespace Pointer

/-! ## Targets -/

/-- What a pointer is to, apart from what else it says. -/
inductive Target where
  | author (key : PublicKey)
  | event (id : EventId)
  | address (coordinates : Coordinates)
deriving DecidableEq, Repr

def Target.path : Target → String
  | .author key => profilePath key.text
  | .event id => notePath id.text
  | .address coordinates => addressPath coordinates

def target : Pointer → Target
  | .pubkey key => .author key
  | .profile key _ => .author key
  | .note id => .event id
  | .event id _ _ _ => .event id
  | .address coordinates _ => .address coordinates

theorem linkPath_eq (pointer : Pointer) : pointer.linkPath = pointer.target.path := by
  cases pointer <;> rfl

def IsToAddress (pointer : Pointer) (coordinates : Coordinates) : Prop :=
  ∃ relays, pointer = .address coordinates relays

theorem target_eq_author_iff {pointer : Pointer} {key : PublicKey} :
    pointer.target = .author key ↔ pointer.IsToKey key := by
  cases pointer <;> simp [target, IsToKey]

theorem target_eq_event_iff {pointer : Pointer} {id : EventId} :
    pointer.target = .event id ↔ pointer.IsToEvent id := by
  cases pointer <;> simp [target, IsToEvent]

theorem target_eq_address_iff {pointer : Pointer} {coordinates : Coordinates} :
    pointer.target = .address coordinates ↔ pointer.IsToAddress coordinates := by
  cases pointer <;> simp [target, IsToAddress]

theorem target_eq_iff {left right : Pointer} :
    left.target = right.target ↔
      (∃ key, left.IsToKey key ∧ right.IsToKey key) ∨
        (∃ id, left.IsToEvent id ∧ right.IsToEvent id) ∨
        ∃ coordinates, left.IsToAddress coordinates ∧ right.IsToAddress coordinates := by
  simp only [← target_eq_author_iff, ← target_eq_event_iff, ← target_eq_address_iff]
  constructor
  · intro same
    cases aim : left.target with
    | author key => exact .inl ⟨key, rfl, same ▸ aim⟩
    | event id => exact .inr (.inl ⟨id, rfl, same ▸ aim⟩)
    | address coordinates => exact .inr (.inr ⟨coordinates, rfl, same ▸ aim⟩)
  · rintro (⟨_, toLeft, toRight⟩ | ⟨_, toLeft, toRight⟩ | ⟨_, toLeft, toRight⟩) <;>
      rw [toLeft, toRight]

/-! ## Paths -/

/-- Kind, author and identifier stand between slashes, and the first two of them hold none. -/
theorem addressPath_injective : Function.Injective addressPath := by
  intro left right same
  have characters := congrArg String.toList same
  have slash : "/".toList = ['/'] := rfl
  simp only [addressPath, String.toList_append, List.append_assoc, slash,
    List.singleton_append] at characters
  have noSlash {text : String}
      (plain : ∀ character ∈ text.toList, IsVisible character ∧ character ≠ '/') :
      '/' ∉ text.toList := fun present => (plain '/' present).2 rfl
  obtain ⟨kinds, behind⟩ := append_separator_inj (noSlash (visible_of_mem_toString _))
    (noSlash (visible_of_mem_toString _)) (List.append_cancel_left characters)
  obtain ⟨authors, identifiers⟩ := append_separator_inj (noSlash left.author.visible_of_mem_text)
    (noSlash right.author.visible_of_mem_text) behind
  have kind : left.kind = right.kind := by
    have read := congrArg digitsValue kinds
    simp only [Nat.toString_eq_ofList_toDigits, String.toList_ofList] at read
    rw [← digitsOf, ← digitsOf, digitsValue_digitsOf, digitsValue_digitsOf] at read
    exact UInt32.toNat_inj.mp read
  have author : left.author = right.author :=
    HexId.text_injective (String.toList_inj.mp authors)
  have identifier : left.identifier = right.identifier :=
    percentEncode_injective (String.toList_inj.mp identifiers)
  cases left
  cases right
  cases kind
  cases author
  cases identifier
  rfl

namespace Target

/-- The character after the first slash of a path tells which kind of target is found there. -/
def mark : Target → Char
  | .author _ => 'p'
  | .event _ => 'n'
  | .address _ => 'a'

theorem path_mark (target : Target) : target.path.toList[1]? = some target.mark := by
  cases target <;> simp [path, mark, profilePath, notePath, addressPath]

theorem path_injective : Function.Injective path := by
  intro left right same
  have marks : left.mark = right.mark := by
    have first := left.path_mark
    rw [same, right.path_mark] at first
    exact (Option.some.inj first).symm
  have behind {front leftBack rightBack : String} (whole : front ++ leftBack = front ++ rightBack) :
      leftBack = rightBack := by
    simpa using whole
  cases left with
  | author key =>
      cases right with
      | author other => rw [HexId.text_injective (behind same)]
      | event _ | address _ => cases marks
  | event id =>
      cases right with
      | event other => rw [HexId.text_injective (behind same)]
      | author _ | address _ => cases marks
  | address coordinates =>
      cases right with
      | address other => rw [addressPath_injective same]
      | author _ | event _ => cases marks

theorem isAllVisible_path (target : Target) : IsAllVisible target.path := by
  have digits {role : IdRole} (id : HexId role) : IsAllVisible id.text :=
    fun character member => (id.visible_of_mem_text character member).1
  cases target with
  | author key => exact isAllVisible_append.mpr ⟨by decide, digits key⟩
  | event id => exact isAllVisible_append.mpr ⟨by decide, digits id⟩
  | address coordinates =>
      have kind : IsAllVisible (toString coordinates.kind.toNat) :=
        fun character member => (visible_of_mem_toString _ character member).1
      simp only [path, addressPath, isAllVisible_append]
      exact ⟨⟨⟨⟨⟨by decide, kind⟩, by decide⟩, digits coordinates.author⟩, by decide⟩,
        isAllVisible_percentEncode coordinates.identifier⟩

end Target

end Pointer

/-! ## Link lines -/

/-- The address in a link line: what stands between the mark and the next space or the end. -/
def linkAddress? (line : String) : Option String :=
  (afterPrefix? "=> ".toList line.toList).map fun rest =>
    String.ofList (rest.takeWhile (· != ' '))

/-- An address without a space can be read off its link line, whatever the label is. -/
theorem linkAddress?_linkLine {url : String} (solid : ' ' ∉ url.toList) (label : String) :
    linkAddress? (linkLine url label) = some url := by
  have whole : ∀ character ∈ url.toList, (character != ' ') = true := by
    intro character member
    rw [bne_iff_ne]
    exact fun same => solid (same ▸ member)
  unfold linkAddress? linkLine
  split
  · rw [String.toList_append, afterPrefix?_append, Option.map_some,
      List.takeWhile_eq_self_iff.mpr whole, String.ofList_toList]
  · have space : " ".toList = [' '] := rfl
    rw [String.append_assoc, String.append_assoc, String.toList_append, afterPrefix?_append,
      Option.map_some, String.toList_append, String.toList_append, space, List.singleton_append,
      takeWhile_append_separator solid, String.ofList_toList]

namespace Pointer

/-- Two pointers have one path exactly if they are to one author, to one event or to one address.
No path holds white space or a control character, so it can be read off a link line. -/
theorem linkPath_identifies_target :
    (∀ left right : Pointer, left.linkPath = right.linkPath ↔
      (∃ key, left.IsToKey key ∧ right.IsToKey key) ∨
        (∃ id, left.IsToEvent id ∧ right.IsToEvent id) ∨
        ∃ coordinates, left.IsToAddress coordinates ∧ right.IsToAddress coordinates) ∧
    (∀ pointer : Pointer, ∀ character ∈ pointer.linkPath.toList,
      isBlank character = false ∧ isControl character = false) ∧
    ∀ (pointer : Pointer) (label : String),
      linkAddress? (linkLine pointer.linkPath label) = some pointer.linkPath := by
  have visible (pointer : Pointer) : IsAllVisible pointer.linkPath := by
    rw [linkPath_eq]
    exact pointer.target.isAllVisible_path
  refine ⟨?_, ?_, ?_⟩
  · intro left right
    rw [← target_eq_iff, linkPath_eq, linkPath_eq]
    exact Target.path_injective.eq_iff
  · intro pointer character member
    exact not_blank_or_control_of_isVisible (visible pointer character member)
  · intro pointer label
    apply linkAddress?_linkLine
    intro space
    exact absurd (visible pointer ' ' space) (by decide)

/-- Identifiers that differ in what a path could take for its own: a slash, and one that is
encoded already.  Relays make no difference. -/
theorem linkPath_identifies_target_slash :
    let author : PublicKey := ⟨List.replicate 32 0xab, rfl⟩
    let slash : Pointer := .address ⟨30023, author, "a/\n"⟩ ["wss://r"]
    let encoded : Pointer := .address ⟨30023, author, "a%2F%0A"⟩ []
    slash.linkPath = "/addr/30023/" ++ author.text ++ "/a%2F%0A" ∧
      slash.linkPath ≠ encoded.linkPath ∧
      (profile author ["wss://r"]).linkPath = (pubkey author).linkPath ∧
      ('%' ∈ slash.linkPath.toList ∧ isBlank '%' = false ∧ isControl '%' = false) ∧
      linkAddress? (linkLine slash.linkPath "=> a b") = some slash.linkPath := by
  intro author slash encoded
  have path : slash.linkPath = "/addr/30023/" ++ author.text ++ "/a%2F%0A" := by
    decide +kernel
  have member : '%' ∈ slash.linkPath.toList := by
    decide +kernel
  obtain ⟨identified, plain, recovered⟩ := linkPath_identifies_target
  refine ⟨path, ?_, ?_, ⟨member, plain slash '%' member⟩, recovered slash "=> a b"⟩
  · intro same
    exact absurd (target_eq_iff.mpr ((identified slash encoded).mp same)) (by decide +kernel)
  · exact (identified _ _).mpr (.inl ⟨author, .inr ⟨_, rfl⟩, .inl rfl⟩)

end Pointer

end NostrCapsule
