import NostrCapsule.Proofs.Refusal
import NostrCapsule.Proofs.Store.Order
import NostrCapsule.Proofs.Text.ByteLines
import NostrCapsule.Store.Loading

/-!
Contract: a file of events is loaded whole, or refused for its first bad line.

A line is bad if it is not UTF-8, or if it holds more than white space and is not an event.  Lines
are counted as they stand in the file, so blank ones count.  Lines are read in order up to the first
bad one, so what comes behind it is not looked at.

Owns:
- `LineHolds` and `LineOffends`, what is on a good line and what is wrong with a bad one;
- the loading of a row of lines in terms of these;
- `MemoryStore.ofLines_all_or_nothing`.

Does not own: the reading of one event, and the files themselves.
-/

namespace NostrCapsule.MemoryStore

open Text

/-! ## One line -/

inductive LineHolds : List UInt8 → Option Event → Prop where
  | nothing {text : String} (blank : isAllBlank text = true) : LineHolds (octetsOf text) none
  | event {text : String} {event : Event} (written : isAllBlank text = false)
      (read : Event.parse? text = some event) : LineHolds (octetsOf text) (some event)

inductive LineOffends (number : Nat) : List UInt8 → LoadError → Prop where
  | noText {line : List UInt8} (noText : ∀ text, octetsOf text ≠ line) :
      LineOffends number line (.unreadable "a line is not valid UTF-8")
  | noEvent {text : String} (written : isAllBlank text = false)
      (unread : Event.parse? text = none) :
      LineOffends number (octetsOf text) (.invalidEvent number "not an event")

variable {line : List UInt8} {lines : List (List UInt8)} {number : Nat} {refusal : LoadError}

theorem eventOnLine_octetsOf (text : String) (number : Nat) :
    eventOnLine (octetsOf text) number =
      if isAllBlank text then .ok none
      else match Event.parse? text with
        | some event => .ok (some event)
        | none => .error (.invalidEvent number "not an event") := by
  have read := ofOctets?_octetsOf text
  unfold eventOnLine
  generalize ofOctets? (octetsOf text) = decoded at read ⊢
  subst read
  rfl

theorem eventOnLine_of_noText (noText : ∀ text, octetsOf text ≠ line) (number : Nat) :
    eventOnLine line number = .error (.unreadable "a line is not valid UTF-8") := by
  cases read : ofOctets? line with
  | none => rw [eventOnLine, read]
  | some text => exact absurd (octetsOf_of_ofOctets? read) (noText text)

theorem eventOnLine_eq_ok_iff {event? : Option Event} :
    eventOnLine line number = .ok event? ↔ LineHolds line event? := by
  constructor
  · intro read
    unfold eventOnLine at read
    split at read
    · cases read
    next text isText =>
    rw [← octetsOf_of_ofOctets? isText]
    split at read
    · next blank =>
        cases read
        exact .nothing blank
    next written =>
    split at read
    · next event parsed =>
        cases read
        exact .event (Bool.eq_false_iff.mpr written) parsed
    · cases read
  · intro holds
    cases holds with
    | nothing blank => rw [eventOnLine_octetsOf, if_pos blank]
    | event written parsed =>
        rw [eventOnLine_octetsOf, if_neg (Bool.eq_false_iff.mp written), parsed]

theorem eventOnLine_eq_error_iff :
    eventOnLine line number = .error refusal ↔ LineOffends number line refusal := by
  constructor
  · intro refused
    unfold eventOnLine at refused
    split at refused
    · next noText =>
        cases refused
        refine .noText ?_
        rintro text rfl
        rw [ofOctets?_octetsOf] at noText
        cases noText
    next text isText =>
    rw [← octetsOf_of_ofOctets? isText]
    split at refused
    · cases refused
    next written =>
    split at refused
    · cases refused
    next unread =>
    cases refused
    exact .noEvent (Bool.eq_false_iff.mpr written) unread
  · intro offends
    cases offends with
    | noText noText => exact eventOnLine_of_noText noText number
    | noEvent written unread =>
        rw [eventOnLine_octetsOf, if_neg (Bool.eq_false_iff.mp written), unread]

theorem exists_lineHolds_iff :
    (∃ event?, LineHolds line event?) ↔
      ∃ text, octetsOf text = line ∧
        (isAllBlank text = false → ∃ event, Event.parse? text = some event) := by
  constructor
  · rintro ⟨event?, holds⟩
    cases holds with
    | @nothing text blank =>
        refine ⟨text, rfl, fun written => ?_⟩
        rw [blank] at written
        cases written
    | @event text event _ read => exact ⟨text, rfl, fun _ => ⟨event, read⟩⟩
  · rintro ⟨text, rfl, reads⟩
    cases blank : isAllBlank text with
    | true => exact ⟨none, .nothing blank⟩
    | false =>
        obtain ⟨event, read⟩ := reads blank
        exact ⟨some event, .event blank read⟩

/-! ## Rows of lines -/

theorem eventsOnLines_eq_ok_iff {events : List Event} :
    eventsOnLines lines number = .ok events ↔
      ∃ held, List.Forall₂ LineHolds lines held ∧ events = held.reduceOption := by
  induction lines generalizing number events with
  | nil =>
      rw [eventsOnLines]
      constructor
      · intro done
        cases done
        exact ⟨[], .nil, rfl⟩
      · rintro ⟨held, holds, rfl⟩
        cases holds
        rfl
  | cons line rest inductionHypothesis =>
      simp only [eventsOnLines, Refusal.bind_eq_ok_iff, eventOnLine_eq_ok_iff,
        inductionHypothesis]
      constructor
      · rintro ⟨event?, first, others, ⟨held, later, rfl⟩, done⟩
        cases done
        refine ⟨event? :: held, .cons first later, ?_⟩
        cases event? <;> rfl
      · rintro ⟨held, holds, rfl⟩
        cases holds with
        | @cons _ event? _ held first later =>
            refine ⟨event?, first, _, ⟨held, later, rfl⟩, ?_⟩
            cases event? <;> rfl

theorem eventsOnLines_cons_of_lineHolds {event? : Option Event} (holds : LineHolds line event?)
    (rest : List (List UInt8)) (number : Nat) :
    eventsOnLines (line :: rest) number =
      (eventsOnLines rest (number + 1)).map fun events => event?.toList ++ events := by
  rw [eventsOnLines, eventOnLine_eq_ok_iff.mpr holds, Refusal.ok_bind]
  cases eventsOnLines rest (number + 1) <;> rfl

theorem eventsOnLines_cons_of_lineOffends (offends : LineOffends number line refusal)
    (rest : List (List UInt8)) : eventsOnLines (line :: rest) number = .error refusal := by
  rw [eventsOnLines, eventOnLine_eq_error_iff.mpr offends, Refusal.error_bind]

/-- The first bad line of a row gives its refusal, with the place at which it stands. -/
theorem eventsOnLines_eq_error_iff :
    eventsOnLines lines number = .error refusal ↔
      ∃ before line behind, lines = before ++ line :: behind ∧
        (∀ each ∈ before, ∃ event?, LineHolds each event?) ∧
        LineOffends (number + before.length) line refusal := by
  constructor
  · intro refused
    induction lines generalizing number with
    | nil => cases refused
    | cons line rest inductionHypothesis =>
        cases read : eventOnLine line number with
        | error other =>
            have offends := eventOnLine_eq_error_iff.mp read
            rw [eventsOnLines_cons_of_lineOffends offends] at refused
            cases refused
            exact ⟨[], line, rest, rfl, List.forall_mem_nil _, offends⟩
        | ok event? =>
            have holds := eventOnLine_eq_ok_iff.mp read
            rw [eventsOnLines_cons_of_lineHolds holds, Refusal.map_eq_error_iff] at refused
            obtain ⟨before, bad, behind, rfl, good, offends⟩ := inductionHypothesis refused
            refine ⟨line :: before, bad, behind, rfl,
              List.forall_mem_cons.mpr ⟨⟨event?, holds⟩, good⟩, ?_⟩
            rwa [List.length_cons, Nat.add_comm before.length, ← Nat.add_assoc]
  · rintro ⟨before, line, behind, rfl, good, offends⟩
    induction before generalizing number with
    | nil => exact eventsOnLines_cons_of_lineOffends offends behind
    | cons first before inductionHypothesis =>
        rw [List.forall_mem_cons] at good
        obtain ⟨⟨event?, holds⟩, others⟩ := good
        rw [List.length_cons, Nat.add_comm before.length, ← Nat.add_assoc] at offends
        rw [List.cons_append, eventsOnLines_cons_of_lineHolds holds,
          inductionHypothesis others offends]
        rfl

theorem exists_forall₂_iff {α β : Type} {relation : α → β → Prop} {items : List α} :
    (∃ others, List.Forall₂ relation items others) ↔
      ∀ item ∈ items, ∃ other, relation item other := by
  induction items with
  | nil => simp
  | cons item rest inductionHypothesis =>
      rw [List.forall_mem_cons, ← inductionHypothesis]
      constructor
      · rintro ⟨_, related⟩
        cases related with
        | cons first later => exact ⟨⟨_, first⟩, _, later⟩
      · rintro ⟨⟨other, first⟩, others, later⟩
        exact ⟨other :: others, .cons first later⟩

/-- A row of lines is read exactly if each of them is good. -/
theorem exists_eventsOnLines_iff :
    (∃ events, eventsOnLines lines number = .ok events) ↔
      ∀ line ∈ lines, ∃ event?, LineHolds line event? := by
  simp only [← exists_forall₂_iff, eventsOnLines_eq_ok_iff]
  constructor
  · rintro ⟨_, held, holds, _⟩
    exact ⟨held, holds⟩
  · rintro ⟨held, holds⟩
    exact ⟨_, held, holds, rfl⟩

/-- A bad line among the first ones decides, whatever lines there are behind them. -/
theorem eventsOnLines_append_of_error (refused : eventsOnLines lines number = .error refusal)
    (others : List (List UInt8)) : eventsOnLines (lines ++ others) number = .error refusal := by
  obtain ⟨before, line, behind, rfl, good, offends⟩ := eventsOnLines_eq_error_iff.mp refused
  rw [List.append_assoc, List.cons_append]
  exact eventsOnLines_eq_error_iff.mpr ⟨before, line, behind ++ others, rfl, good, offends⟩

/-! ## Files -/

theorem ofLines_eq_error_iff {octets : List UInt8} :
    ofLines octets = .error refusal ↔ eventsOnLines (byteLines octets) 1 = .error refusal :=
  Refusal.map_eq_error_iff

/-- A file of events is lines in one way.  It is loaded exactly if each of its lines is UTF-8 and
is, unless it is blank, an event.  The store then has the first event of each identifier in the
order of the lines, and no relays of its own.  Otherwise the refusal is that of the first bad line:
it names no line if this is not UTF-8, and else the number of the line in the file, with blank lines
counted.  What follows the end of a bad line makes no difference. -/
theorem ofLines_all_or_nothing (octets : List UInt8) :
    (∃ lines, (∀ others, AreLines octets others ↔ others = lines) ∧
      ((∃ store, ofLines octets = .ok store) ↔
        ∀ line ∈ lines, ∃ text, octetsOf text = line ∧
          (isAllBlank text = false → ∃ event, Event.parse? text = some event)) ∧
      (∀ store, ofLines octets = .ok store →
        ∃ held, List.Forall₂ LineHolds lines held ∧
          store.events = distinctBy Event.id held.reduceOption ∧ store.relayOverrides = []) ∧
      ∀ refusal, ofLines octets = .error refusal ↔
        ∃ before line behind, lines = before ++ line :: behind ∧
          (∀ each ∈ before, ∃ event?, LineHolds each event?) ∧
          LineOffends (before.length + 1) line refusal) ∧
    ∀ refusal, ofLines (octets ++ [lineFeed]) = .error refusal →
      ∀ later, ofLines (octets ++ lineFeed :: later) = .error refusal := by
  refine ⟨⟨byteLines octets, ?_, ?_, ?_, ?_⟩, ?_⟩
  · intro others
    rw [areLines_iff, eq_comm]
  · simp only [← exists_lineHolds_iff]
    rw [← exists_eventsOnLines_iff]
    simp only [ofLines, Refusal.map_eq_ok_iff]
    constructor
    · rintro ⟨_, events, read, _⟩
      exact ⟨events, read⟩
    · rintro ⟨events, read⟩
      exact ⟨_, events, read, rfl⟩
  · intro store loaded
    obtain ⟨events, read, rfl⟩ := Refusal.map_eq_ok_iff.mp loaded
    obtain ⟨held, holds, rfl⟩ := eventsOnLines_eq_ok_iff.mp read
    exact ⟨held, holds, events_insertAll_empty _, relayOverrides_insertAll _ _⟩
  · intro refusal
    rw [ofLines_eq_error_iff, eventsOnLines_eq_error_iff]
    simp only [Nat.add_comm 1]
  · intro refusal refused later
    rw [ofLines_eq_error_iff, byteLines_append_lineFeed] at refused ⊢
    rw [byteLines_nil, List.append_nil] at refused
    exact eventsOnLines_append_of_error refused _

/-- A blank first line, an event, its identifier again in a list of fields, and one more event that
no line feed ends.  With a line behind it that is no event, the sixth line is refused, also where
what follows is not even UTF-8. -/
theorem ofLines_all_or_nothing_repeated :
    let good := octetsOf ("\r\n\x7b\"id\":\"a\",\"pubkey\":\"p\",\"kind\":1,\"created_at\":1\x7d\n"
      ++ " \n[\"a\",\"q\",1,2]\r\n[\"b\",\"p\",1,3]")
    let bad := good ++ [lineFeed, 0x78]
    let a : Event := { id := "a", pubkey := "p", kind := 1, createdAt := 1 }
    let b : Event := { id := "b", pubkey := "p", kind := 1, createdAt := 3 }
    (∃ store held, ofLines good = .ok store ∧ store.events = [a, b] ∧
        List.Forall₂ LineHolds (byteLines good) held ∧
        store.events = distinctBy Event.id held.reduceOption) ∧
      ofLines (bad ++ [lineFeed]) = .error (.invalidEvent 6 "not an event") ∧
      ofLines (bad ++ [lineFeed, 0xFF]) = .error (.invalidEvent 6 "not an event") := by
  intro good bad a b
  have kept : (ofLines good).toOption.map MemoryStore.events = some [a, b] := by
    decide +kernel
  have refused : ofLines (bad ++ [lineFeed]) = .error (.invalidEvent 6 "not an event") :=
    ofLines_eq_error_iff.mpr (by decide +kernel)
  obtain ⟨store, loaded, events⟩ := Option.map_eq_some_iff.mp kept
  rw [Refusal.toOption_eq_some_iff] at loaded
  obtain ⟨⟨lines, unique, _, holds, _⟩, _⟩ := ofLines_all_or_nothing good
  obtain ⟨held, each, stored, _⟩ := holds store loaded
  rw [← (unique _).mp (areLines_byteLines _)] at each
  exact ⟨⟨store, held, loaded, events, each, stored⟩, refused,
    (ofLines_all_or_nothing bad).2 _ refused [0xFF]⟩

end NostrCapsule.MemoryStore
