import NostrCapsule.Page.Link
import NostrCapsule.Proofs.Event.Tags
import NostrCapsule.Proofs.Identifier.HexDigits
import NostrCapsule.Proofs.Identifier.TokenRoundTrip
import NostrCapsule.Proofs.Reference.Glossary

/-!
Contract: the identifier that is made for an event names this event.

An event comes from elsewhere and may be malformed.  Whatever its parts are, the identifier reads
back as a pointer that has these parts and no others; and if a part is unusable, the forms that
need it are left out.

Owns:
- `HasAddress` and `HasParts`, what the two forms of pointer say of an event;
- `tokenWith?_eq_some_iff` and `tokenWith?_eq_none_iff`, which of the forms is chosen;
- `portalIdentifier_names_event`.

Does not own: which relays an author has.
-/

namespace NostrCapsule

/-- Over every store a token resolves, and what it resolves to is found at the path. -/
def Entity.LeadsTo (token path : String) : Prop :=
  ∀ (σ : Type) (source : Source σ) (state : σ), ∃ entity,
    ((Entity.resolve token).run source state).1 = .ok entity ∧ entity.linkPath = path

namespace Event

/-! ## The two forms of pointer -/

/-- A long-form event is found at these coordinates: they have its author, and the value of its
first `d` tag that has one. -/
structure HasAddress (event : Event) (coordinates : Coordinates) : Prop where
  longForm : event.kind = 30023
  kind : coordinates.kind = 30023
  author : coordinates.author.text = event.pubkey.toLower
  identifier : event.HasFirstValue "d" coordinates.identifier

/-- The parts of a pointer to an event: its id, and its author if the author's key is one. -/
structure HasParts (event : Event) (id : EventId) (author : Option PublicKey) : Prop where
  idText : id.text = event.id.toLower
  authorText : ∀ key ∈ author, key.text = event.pubkey.toLower
  authorKnown : author.isSome ↔ HexId.IsSpelling event.pubkey

variable {event : Event} {relays : List String}

theorem exists_hasAddress_iff :
    (∃ coordinates, event.HasAddress coordinates) ↔
      event.kind = 30023 ∧ (∃ value, event.HasFirstValue "d" value) ∧
        HexId.IsSpelling event.pubkey := by
  constructor
  · intro address
    rcases address with ⟨coordinates, address⟩
    exact ⟨address.longForm, ⟨_, address.identifier⟩,
      HexId.exists_ofText?_iff.mp ⟨_, HexId.ofText?_eq_ok_iff.mpr address.author⟩⟩
  · intro parts
    rcases parts with ⟨longForm, ⟨value, named⟩, spelling⟩
    obtain ⟨author, read⟩ := HexId.exists_ofText?_iff.mpr spelling
    exact ⟨⟨30023, author, value⟩, longForm, rfl, HexId.ofText?_eq_ok_iff.mp read, named⟩

theorem hasParts_iff {id : EventId} {author : Option PublicKey} :
    event.HasParts id author ↔
      HexId.ofText? event.id = .ok id ∧ (HexId.ofText? event.pubkey).toOption = author := by
  constructor
  · intro parts
    refine ⟨HexId.ofText?_eq_ok_iff.mpr parts.idText, ?_⟩
    cases author with
    | none =>
        rw [Option.eq_none_iff_forall_ne_some]
        intro key read
        have spelling := HexId.exists_ofText?_iff.mp ⟨key, Refusal.toOption_eq_some_iff.mp read⟩
        cases parts.authorKnown.mpr spelling
    | some key =>
        rw [Refusal.toOption_eq_some_iff, HexId.ofText?_eq_ok_iff]
        exact parts.authorText key rfl
  · intro read
    rcases read with ⟨idRead, rfl⟩
    refine ⟨HexId.ofText?_eq_ok_iff.mp idRead, ?_, ?_⟩
    · intro key read
      exact HexId.ofText?_eq_ok_iff.mp (Refusal.toOption_eq_some_iff.mp read)
    · rw [← @HexId.exists_ofText?_iff .publicKey, Option.isSome_iff_exists]
      simp only [Refusal.toOption_eq_some_iff]

theorem exists_hasParts_iff :
    (∃ id author, event.HasParts id author) ↔ HexId.IsSpelling event.id := by
  simp only [hasParts_iff, exists_and_left, exists_eq', and_true, HexId.exists_ofText?_iff]

theorem HasParts.unique {left right : EventId} {leftAuthor rightAuthor : Option PublicKey}
    (leftParts : event.HasParts left leftAuthor) (rightParts : event.HasParts right rightAuthor) :
    left = right ∧ leftAuthor = rightAuthor := by
  obtain ⟨leftRead, rfl⟩ := hasParts_iff.mp leftParts
  obtain ⟨rightRead, rfl⟩ := hasParts_iff.mp rightParts
  exact ⟨Except.ok.inj (leftRead.symm.trans rightRead), rfl⟩

/-- As there are no parts but one, a property of all parts is one of some. -/
theorem forall_hasParts_iff {property : EventId → Option PublicKey → Prop} :
    (∀ id author, event.HasParts id author → property id author) ↔
      ¬ HexId.IsSpelling event.id ∨
        ∃ id author, event.HasParts id author ∧ property id author := by
  rw [← exists_hasParts_iff]
  constructor
  · intro holds
    by_cases known : ∃ id author, event.HasParts id author
    · obtain ⟨id, author, parts⟩ := known
      exact Or.inr ⟨id, author, parts, holds id author parts⟩
    · exact Or.inl known
  · intro holds id author parts
    rcases holds with unknown | ⟨other, otherAuthor, otherParts, holds⟩
    · exact absurd ⟨id, author, parts⟩ unknown
    · obtain ⟨rfl, rfl⟩ := parts.unique otherParts
      exact holds

theorem addressPointer?_eq_some_iff {pointer : Pointer} :
    event.addressPointer? relays = some pointer ↔
      ∃ coordinates, event.HasAddress coordinates ∧ .address coordinates relays = pointer := by
  have isLongForm : event.isKind .longForm = true ↔ event.kind = 30023 := beq_iff_eq
  rw [addressPointer?, Option.ite_none_right_eq_some, isLongForm]
  constructor
  · intro found
    obtain ⟨longForm, found⟩ := found
    obtain ⟨value, named, found⟩ := Option.bind_eq_some_iff.mp found
    obtain ⟨author, read, found⟩ := Option.bind_eq_some_iff.mp found
    refine ⟨⟨event.kind.toUInt32, author, value⟩, ⟨longForm, ?_, ?_, ?_⟩, Option.some.inj found⟩
    · rw [longForm]
      rfl
    · exact HexId.ofText?_eq_ok_iff.mp (Refusal.toOption_eq_some_iff.mp read)
    · exact tagValue?_eq_some_iff.mp named
  · intro address
    rcases address with ⟨⟨kind, author, value⟩, address, rfl⟩
    have kindEq : kind = 30023 := address.kind
    have named := tagValue?_eq_some_iff.mpr address.identifier
    have read := Refusal.toOption_eq_some_iff.mpr (HexId.ofText?_eq_ok_iff.mpr address.author)
    refine ⟨address.longForm, Option.bind_eq_some_iff.mpr ⟨value, named, ?_⟩⟩
    refine Option.bind_eq_some_iff.mpr ⟨author, read, ?_⟩
    rw [kindEq, address.longForm]
    rfl

theorem HasAddress.unique {left right : Coordinates} (leftAddress : event.HasAddress left)
    (rightAddress : event.HasAddress right) : left = right := by
  have leftPointer : event.addressPointer? [] = some (.address left []) :=
    addressPointer?_eq_some_iff.mpr ⟨left, leftAddress, rfl⟩
  have rightPointer : event.addressPointer? [] = some (.address right []) :=
    addressPointer?_eq_some_iff.mpr ⟨right, rightAddress, rfl⟩
  rw [leftPointer] at rightPointer
  cases rightPointer
  rfl

theorem eventPointer?_eq_some_iff {pointer : Pointer} :
    event.eventPointer? relays = some pointer ↔
      ∃ id author, event.HasParts id author ∧
        .event id relays author (some event.kind.toUInt32) = pointer := by
  simp only [eventPointer?, Option.bind_eq_bind, Option.bind_eq_some_iff,
    Refusal.toOption_eq_some_iff, Option.pure_def, Option.some.injEq, hasParts_iff, and_assoc,
    exists_and_left, exists_eq_left']

/-! ## The choice among the forms -/

theorem token_eq_some_iff {pointer? : Option Pointer} {token : String} :
    (pointer?.bind fun pointer => pointer.toToken.toOption) = some token ↔
      ∃ pointer ∈ pointer?, pointer.toToken = .ok token := by
  simp only [Option.bind_eq_some_iff, Refusal.toOption_eq_some_iff, Option.mem_def]

theorem token_eq_none_iff {pointer? : Option Pointer} :
    (pointer?.bind fun pointer => pointer.toToken.toOption) = none ↔
      ∀ pointer ∈ pointer?, ¬ pointer.IsEncodable := by
  simp only [Option.eq_none_iff_forall_ne_some, ne_eq, token_eq_some_iff, not_exists, not_and,
    Pointer.isEncodable_iff]
  exact forall_comm.trans (forall_congr' fun _ => forall_comm)

/-- The token is that of the address if this can be written, and else that of the event itself. -/
theorem tokenWith?_eq_some_iff {token : String} :
    event.tokenWith? relays = some token ↔
      (∃ coordinates, event.HasAddress coordinates ∧
        (Pointer.address coordinates relays).toToken = .ok token) ∨
      (∀ coordinates, event.HasAddress coordinates →
        ¬ (Pointer.address coordinates relays).IsEncodable) ∧
      ∃ id author, event.HasParts id author ∧
        (Pointer.event id relays author (some event.kind.toUInt32)).toToken = .ok token := by
  rw [tokenWith?, Option.orElse_eq_orElse, Option.orElse_eq_or, Option.or_eq_some_iff,
    token_eq_some_iff, token_eq_none_iff, token_eq_some_iff]
  simp only [Option.mem_def, addressPointer?_eq_some_iff, eventPointer?_eq_some_iff, ↓existsAndEq,
    and_true, forall_exists_index, and_imp, forall_apply_eq_imp_iff₂]

theorem exists_toToken_of_tokenWith? {token : String}
    (found : event.tokenWith? relays = some token) :
    ∃ pointer : Pointer, pointer.toToken = .ok token := by
  rcases tokenWith?_eq_some_iff.mp found with
    ⟨coordinates, _, written⟩ | ⟨_, id, author, _, written⟩
  · exact ⟨_, written⟩
  · exact ⟨_, written⟩

theorem tokenWith?_eq_none_iff :
    event.tokenWith? relays = none ↔
      (∀ coordinates, event.HasAddress coordinates →
        ¬ (Pointer.address coordinates relays).IsEncodable) ∧
      ∀ id author, event.HasParts id author →
        ¬ (Pointer.event id relays author (some event.kind.toUInt32)).IsEncodable := by
  rw [tokenWith?, Option.orElse_eq_orElse, Option.orElse_eq_or, Option.or_eq_none_iff,
    token_eq_none_iff, token_eq_none_iff]
  simp only [Option.mem_def, addressPointer?_eq_some_iff, eventPointer?_eq_some_iff]
  constructor
  · intro unwritten
    exact ⟨fun coordinates address => unwritten.1 _ ⟨coordinates, address, rfl⟩,
      fun id author parts => unwritten.2 _ ⟨id, author, parts, rfl⟩⟩
  · intro unwritten
    constructor
    · rintro _ ⟨coordinates, address, rfl⟩
      exact unwritten.1 coordinates address
    · rintro _ ⟨id, author, parts, rfl⟩
      exact unwritten.2 id author parts

/-! ## What the identifier leads to -/

theorem leadsTo_of_ofToken {pointer : Pointer} {token : String}
    (read : Pointer.ofToken token = .ok pointer) : Entity.LeadsTo token pointer.linkPath := by
  intro σ source state
  rw [Entity.run_resolve_of_ok read]
  exact ⟨_, rfl, rfl⟩

theorem HasAddress.linkPath {coordinates : Coordinates} (address : event.HasAddress coordinates) :
    (Pointer.address coordinates relays).linkPath =
      "/addr/30023/" ++ event.pubkey.toLower ++ "/"
        ++ Text.percentEncode coordinates.identifier := by
  have start : "/addr/" ++ toString (30023 : UInt32).toNat ++ "/" = "/addr/30023/" := by
    decide +kernel
  rw [Pointer.linkPath, Pointer.addressPath, address.kind, address.author, start]

theorem HasParts.linkPath {id : EventId} {author : Option PublicKey} {kind : Option UInt32}
    (parts : event.HasParts id author) :
    (Pointer.event id relays author kind).linkPath = "/note/" ++ event.id.toLower := by
  rw [Pointer.linkPath, Pointer.notePath, parts.idText]

theorem run_portalIdentifier {σ : Type} (source : Source σ) (state : σ) (event : Event)
    (hintLimit : Nat) :
    ((event.portalIdentifier hintLimit).run source state).1 =
      event.tokenWith? ((source.readRelays event.pubkey state).1.take hintLimit) := rfl

/-- An identifier that is made for an event reads back as the address of the event, or as a pointer
with its id, its author and its kind; with the first read relays of the author as its relays.  The
address comes first, and there is no identifier only if neither can be written. -/
theorem portalIdentifier_names_event {σ : Type} (source : Source σ) (state : σ) (event : Event)
    (hintLimit : Nat) :
    let hints := (source.readRelays event.pubkey state).1.take hintLimit
    let identifier? := ((event.portalIdentifier hintLimit).run source state).1
    (∀ token, identifier? = some token →
      (∃ coordinates, event.HasAddress coordinates ∧
        Pointer.ofToken token = .ok (.address coordinates hints) ∧
        Entity.LeadsTo token ("/addr/30023/" ++ event.pubkey.toLower ++ "/"
          ++ Text.percentEncode coordinates.identifier)) ∨
      ∃ id author, event.HasParts id author ∧
        Pointer.ofToken token = .ok (.event id hints author (some event.kind.toUInt32)) ∧
        Entity.LeadsTo token ("/note/" ++ event.id.toLower)) ∧
    (∀ coordinates, event.HasAddress coordinates →
      (Pointer.address coordinates hints).IsEncodable →
        ∃ token, identifier? = some token ∧
          Pointer.ofToken token = .ok (.address coordinates hints)) ∧
    ((∃ coordinates, event.HasAddress coordinates) ↔
      event.kind = 30023 ∧ (∃ value, event.HasFirstValue "d" value) ∧
        HexId.IsSpelling event.pubkey) ∧
    (identifier? = none ↔
      (∀ coordinates, event.HasAddress coordinates →
        ¬ (Pointer.address coordinates hints).IsEncodable) ∧
      (¬ HexId.IsSpelling event.id ∨ ∃ id author, event.HasParts id author ∧
        ¬ (Pointer.event id hints author (some event.kind.toUInt32)).IsEncodable)) := by
  intro hints identifier?
  have answered : identifier? = event.tokenWith? hints := run_portalIdentifier source state event _
  refine ⟨?_, ?_, exists_hasAddress_iff, ?_⟩
  · intro token found
    rw [answered, tokenWith?_eq_some_iff] at found
    rcases found with ⟨coordinates, address, written⟩ | ⟨_, id, author, parts, written⟩
    · have read := Pointer.ofToken_of_toToken written
      exact Or.inl ⟨coordinates, address, read, address.linkPath ▸ leadsTo_of_ofToken read⟩
    · have read := Pointer.ofToken_of_toToken written
      exact Or.inr ⟨id, author, parts, read, parts.linkPath ▸ leadsTo_of_ofToken read⟩
  · intro coordinates address encodable
    obtain ⟨token, written⟩ := Pointer.isEncodable_iff.mp encodable
    refine ⟨token, ?_, Pointer.ofToken_of_toToken written⟩
    rw [answered, tokenWith?_eq_some_iff]
    exact Or.inl ⟨coordinates, address, written⟩
  · rw [answered, tokenWith?_eq_none_iff, forall_hasParts_iff]

/-- An article is named by its address, whatever its own id is. -/
example :
    let article : Event :=
      { id := "unusable"
        pubkey := "7E7E9C42A91BFEF19FA929E5FDA1B72E0EBC1A4C1141673E2794234D86ADDF4E"
        kind := 30023
        createdAt := 1700000000
        tags := [["d"], ["d", "my-article"]] }
    article.tokenWith? [] = some
      ("naddr1qq9x67fdv9e8g6trd3jsygr706wy92gmlmcel2ffuh76rdewp67p5nq3g9nnufu5ydxcdtwlfcpsg"
        ++ "qqqw4rse48hyj") := by
  decide +kernel

end Event

end NostrCapsule
