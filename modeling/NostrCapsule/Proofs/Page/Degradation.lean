import NostrCapsule.Page.Document
import NostrCapsule.Proofs.Lookup.Silence
import NostrCapsule.Proofs.Store.RelayList

/-!
Contract: what pages do not tell of a store.

Every lookup of a page goes on after a refusal as after an answer without events, down to the names
of references and the relays of an author.  So a page cannot show whether the store is empty, fails,
or is asked too late.  Nor does it show in which order events came into the store.

Owns:
- tolerance, for each lookup that pages are made of;
- `Rendering`, the operations that write pages;
- `Rendering.write_of_silence`;
- `Rendering.write_of_reordered`, for every operation that writes a page and for the lookups that
  other programs may make by themselves.

Does not own: what a page without any event looks like, and stores in which an author has two latest
relay lists.
-/

namespace NostrCapsule

open Lookup

/-! ## Names and references -/

namespace Naming

theorem tolerant_profile (pubkey : String) : (profile pubkey).Tolerant :=
  .bind (.firstMatch _) fun _ => .pure _

theorem tolerant_profileName (pubkey : String) : (profileName pubkey).Tolerant :=
  .bind (tolerant_profile pubkey) fun _ => .pure _

theorem tolerant_eventName (id : String) : (eventName id).Tolerant :=
  .bind (.fetchEvent id) fun _ => .pure _

theorem tolerant_addressName (coordinates : Coordinates) : (addressName coordinates).Tolerant := by
  unfold addressName
  split
  · exact .pure _
  · exact .bind (.firstMatch _) fun _ => .pure _

theorem tolerant_pointerName (pointer : Pointer) : (pointerName pointer).Tolerant := by
  cases pointer with
  | pubkey key => exact tolerant_profileName key.text
  | profile key relays => exact tolerant_profileName key.text
  | note id => exact tolerant_eventName id.text
  | event id relays author kind => exact tolerant_eventName id.text
  | address coordinates relays => exact tolerant_addressName coordinates

end Naming

theorem Entity.tolerant_resolve (token : String) : (resolve token).Tolerant := by
  unfold resolve
  split
  · exact .pure _
  · next pointer _ =>
      have named : (ofPointer token pointer).Tolerant :=
        .bind (Naming.tolerant_pointerName pointer) fun _ => .pure _
      exact .bind named fun _ => .pure _

theorem Memo.tolerant_resolve (memo : Memo) (token : String) : (memo.resolve token).Tolerant := by
  unfold resolve
  split
  · exact .pure _
  · exact .bind (Entity.tolerant_resolve token) fun _ => .pure _

theorem tolerant_expandPieces (format : Entity → String) (memo : Memo) (written : List Char)
    (entities : List Entity) (pieces : List Piece) :
    (expandPieces format memo written entities pieces).Tolerant := by
  induction pieces generalizing memo written entities with
  | nil => exact .pure _
  | cons piece rest inductionHypothesis =>
      cases piece with
      | plain character => exact inductionHypothesis _ _ _
      | reference token => exact .bind (memo.tolerant_resolve token) fun _ => inductionHypothesis _ _ _

theorem tolerant_expand (format : Entity → String) (text : String) :
    (expand format text).Tolerant :=
  tolerant_expandPieces format [] [] [] _

theorem tolerant_summarize (settings : Settings) (content : String) :
    (summarize settings content).Tolerant :=
  .bind (tolerant_expand _ content) fun _ => .pure _

/-! ## Links -/

namespace Event

theorem tolerant_portalLinks (event : Event) (portals : List String) (hintLimit : Nat) :
    (event.portalLinks portals hintLimit).Tolerant := by
  have identified : (event.portalIdentifier hintLimit).Tolerant :=
    .bind (.relaysOf event.pubkey) fun _ => .pure _
  unfold portalLinks
  split
  · exact .pure []
  · refine .bind identified fun identifier => ?_
    split
    · exact .pure _
    · exact .pure []

theorem tolerant_linkLines (event : Event) (settings : Settings) :
    (event.linkLines settings).Tolerant := by
  refine .bind (event.tolerant_portalLinks _ _) fun links => ?_
  split
  · exact .pure _
  · exact .pure _

end Event

/-! ## Threads -/

theorem Engagement.tolerant_tally (id : String) : (tally id).Tolerant :=
  .bind (.eventsOrNone _) fun _ => .pure _

namespace Thread

theorem tolerant_fetchRoot (focus : Event) : (fetchRoot focus).Tolerant := by
  unfold fetchRoot
  split
  · exact .pure focus
  split
  · exact .pure focus
  · exact .bind (.fetchEvent _) fun _ => .pure _

theorem tolerant_fetch (focusId : String) : (fetch focusId).Tolerant := by
  refine .bind (.fetchEvent focusId) fun found => ?_
  cases found with
  | none => exact .pure none
  | some focus =>
      refine .bind (tolerant_fetchRoot focus) fun root => ?_
      exact .bind (.eventsOrNone _) fun _ => .pure _

end Thread

namespace Edition

variable (edition : Edition)

theorem tolerant_rowEntries (focusId : String) (row : Row) :
    (edition.rowEntries focusId row).Tolerant := by
  cases row with
  | hidden depth => exact .pure _
  | shown depth event =>
      refine .bind (tolerant_summarize _ _) fun summary => ?_
      exact .bind (event.tolerant_linkLines _) fun _ => .pure _

theorem tolerant_rowsEntries (focusId : String) (rows : List Row) :
    (edition.rowsEntries focusId rows).Tolerant := by
  induction rows with
  | nil => exact .pure []
  | cons row rest inductionHypothesis =>
      refine .bind (edition.tolerant_rowEntries focusId row) fun first => ?_
      exact .bind inductionHypothesis fun _ => .pure _

theorem tolerant_threadText (focusId : String) (thread : Thread) :
    (edition.threadText focusId thread).Tolerant :=
  .bind (edition.tolerant_rowsEntries focusId _) fun _ => .pure _

theorem tolerant_threadOrNotice (focusId : String) (thread? : Option Thread) :
    (edition.threadOrNotice focusId thread?).Tolerant := by
  cases thread? with
  | none => exact .pure threadNotFound
  | some thread => exact edition.tolerant_threadText focusId thread

/-! ## Pages -/

theorem tolerant_textPage (text : String) : (edition.textPage text).Tolerant :=
  .bind (tolerant_expand _ text) fun _ => .pure _

theorem tolerant_noteText (event : Event) (engagement : Engagement) :
    (edition.noteText event engagement).Tolerant := by
  have parts : (edition.noteParts event engagement).Tolerant := by
    refine .bind (Naming.tolerant_profileName event.pubkey) fun author => ?_
    refine .bind (tolerant_expand _ event.content) fun expansion => ?_
    exact .bind (event.tolerant_linkLines _) fun _ => .pure _
  exact .bind parts fun _ => .pure _

theorem tolerant_notePage (id : String) : (edition.notePage id).Tolerant := by
  refine .bind (.fetchEvent id) fun found => ?_
  cases found with
  | none => exact .pure noteNotFound
  | some event =>
      exact .bind (Engagement.tolerant_tally event.id) fun engagement =>
        edition.tolerant_noteText event engagement

theorem tolerant_aboutExpansion (profile : Profile) : (aboutExpansion profile).Tolerant := by
  unfold aboutExpansion
  split
  · exact .bind (tolerant_expand _ _) fun _ => .pure _
  · exact .pure none

theorem tolerant_recentEntries (notes : List Event) : (edition.recentEntries notes).Tolerant := by
  induction notes with
  | nil => exact .pure []
  | cons note rest inductionHypothesis =>
      have first : (edition.recentNote note).Tolerant :=
        .bind (tolerant_summarize _ _) fun _ => .pure _
      exact .bind first fun _ => .bind inductionHypothesis fun _ => .pure _

theorem tolerant_profilePage (pubkey : String) : (edition.profilePage pubkey).Tolerant := by
  refine .bind (Naming.tolerant_profileName pubkey) fun name => ?_
  refine .bind (Naming.tolerant_profile pubkey) fun found => ?_
  refine .bind (tolerant_aboutExpansion _) fun about => ?_
  refine .bind (.eventsOrNone _) fun notes => ?_
  exact .bind (edition.tolerant_recentEntries notes) fun _ => .pure _

theorem tolerant_threadPage (focusId : String) : (edition.threadPage focusId).Tolerant := by
  refine .bind (Thread.tolerant_fetch focusId) fun found => ?_
  cases found with
  | none => exact .pure threadNotFound
  | some thread => exact .bind (edition.tolerant_threadText focusId thread) fun _ => .pure _

end Edition

/-! ## All operations -/

/-- The operations that write pages: of a text; of a note, by its identifier or as it is given; of
an author; of a thread, by the identifier of an event in it or as it is given, if there is one. -/
inductive Rendering where
  | textPage (text : String)
  | notePage (id : String)
  | note (event : Event) (engagement : Engagement)
  | profilePage (pubkey : String)
  | threadPage (focusId : String)
  | thread (focusId : String) (thread? : Option Thread)
deriving DecidableEq, Repr

namespace Rendering

def write (edition : Edition) : Rendering → Lookup String
  | .textPage text => edition.textPage text
  | .notePage id => edition.notePage id
  | .note event engagement => edition.noteText event engagement
  | .profilePage pubkey => edition.profilePage pubkey
  | .threadPage focusId => edition.threadPage focusId
  | .thread focusId thread? => edition.threadOrNotice focusId thread?

theorem tolerant_write (edition : Edition) (rendering : Rendering) :
    (rendering.write edition).Tolerant := by
  cases rendering with
  | textPage text => exact edition.tolerant_textPage text
  | notePage id => exact edition.tolerant_notePage id
  | note event engagement => exact edition.tolerant_noteText event engagement
  | profilePage pubkey => exact edition.tolerant_profilePage pubkey
  | threadPage focusId => exact edition.tolerant_threadPage focusId
  | thread focusId thread? => exact edition.tolerant_threadOrNotice focusId thread?

/-- In a context that is over, each operation writes over any store what it writes over an empty
one, and the same over a store that fails at every question and knows no relays. -/
theorem write_of_silence {σ : Type} (edition : Edition) (rendering : Rendering)
    (store : MemoryStore) (context : LookupContext) (ended : context.IsOver)
    (failing : Source σ)
    (fails : ∀ filter state, ∃ refusal, (failing.query filter state).1 = .error refusal)
    (noRelays : ∀ pubkey state, (failing.readRelays pubkey state).1 = []) (state : σ) :
    let page := rendering.write edition
    let bare := page.answer (MemoryStore.empty.answers .background)
    page.answer (store.answers context) = bare ∧ (page.run failing state).1 = bare := by
  intro page bare
  have tolerant : page.Tolerant := rendering.tolerant_write edition
  have empty := MemoryStore.silent_empty .background
  have failed : failing.Silent := ⟨fun filter state => .inr (fails filter state), noRelays⟩
  constructor
  · have same := tolerant.run_eq (store.silent_of_isOver ended) empty () ()
    rwa [Lookup.run_answersSource, Lookup.run_answersSource] at same
  · have same := tolerant.run_eq failed empty state ()
    rwa [Lookup.run_answersSource] at same

/-- The page of an author who has a name and a note, before and after the context is cancelled. -/
theorem write_of_silence_profilePage :
    let store := MemoryStore.empty.insertAll
      [{ id := "m", pubkey := "alice", kind := 0, createdAt := 1
         content := "\x7b\"name\":\"Alice\"\x7d" },
       { id := "n", pubkey := "alice", kind := 1, createdAt := 2, content := "hello" }]
    let cancelled := LookupContext.background.cancel
    let failing : Source Nat :=
      { query := fun _ asked => (.error (.backend "connection refused"), asked + 1)
        readRelays := fun _ asked => ([], asked) }
    let page := (Rendering.profilePage "alice").write ⟨{}, 60⟩
    cancelled.IsOver ∧
      page.answer (store.answers .background) =
        "# Alice\n\n## Recent notes\n* hello (just now)\n=> /note/n View note" ∧
      page.answer (store.answers cancelled) = "# alice" ∧ (page.run failing 0).1 = "# alice" := by
  intro store cancelled failing page
  have ended : cancelled.IsOver := .inl rfl
  have bare : page.answer (MemoryStore.empty.answers .background) = "# alice" := by
    decide +kernel
  obtain ⟨late, failed⟩ := write_of_silence ⟨{}, 60⟩ (.profilePage "alice") store cancelled ended
    failing (fun _ _ => ⟨_, rfl⟩) (fun _ _ => rfl) 0
  exact ⟨ended, by decide +kernel, late.trans bare, failed.trans bare⟩

/-! ## Stores filled in another order -/

/-- Over two stores that keep the same events, inserted in any two orders, and in which the same
relays were set, everything that is written, counted, assembled or resolved is the same, if no
author whose relays were not set has two relay lists of one time. -/
theorem write_of_reordered {left right : MemoryStore} (same : left.events.Perm right.events)
    (overrides : ∀ pubkey,
      left.relayOverrides.lookup pubkey = right.relayOverrides.lookup pubkey)
    (untied : left.Untied) (context : LookupContext) :
    let before := left.answers context
    let after := right.answers context
    (∀ (edition : Edition) (rendering : Rendering),
      (rendering.write edition).answer before = (rendering.write edition).answer after) ∧
    (∀ (edition : Edition) (focusId : String) (maxDepth depth : Nat) (thread : Thread),
      (edition.threadEntries focusId maxDepth depth thread).answer before =
        (edition.threadEntries focusId maxDepth depth thread).answer after) ∧
    (∀ id, (Engagement.tally id).answer before = (Engagement.tally id).answer after) ∧
    (∀ focusId, (Thread.fetch focusId).answer before = (Thread.fetch focusId).answer after) ∧
    ∀ token, (Entity.resolve token).answer before = (Entity.resolve token).answer after := by
  intro before after
  have alike : before = after := MemoryStore.answers_eq_of_reordered same overrides untied context
  rw [alike]
  exact ⟨fun _ _ => rfl, fun _ _ _ _ _ => rfl, fun _ => rfl, fun _ => rfl, fun _ => rfl⟩

/-- An author with two profiles of one time, of which the smaller identifier is taken, and with two
relay lists. -/
theorem write_of_reordered_profiles :
    let key := "3bf0c63fcb93463407af97a5e5ee64fa883d107ef9e558472c4eb9aaaefa459d"
    let profile : Event :=
      { id := "a", pubkey := key, kind := 0, createdAt := 1, content := "\x7b\"name\":\"Ann\"\x7d" }
    let other := { profile with id := "b", content := "\x7b\"name\":\"Bea\"\x7d" }
    let list : Event :=
      { id := "c", pubkey := key, kind := 10002, createdAt := 2, tags := [["r", "wss://r"]] }
    let older := { list with id := "d", createdAt := 1, tags := [] }
    let left := MemoryStore.empty.insertAll [profile, other, older, list]
    let right := (MemoryStore.empty.setReadRelays "x" []).insertAll [list, other, older, profile]
    let page := (Rendering.profilePage key).write ⟨{}, 60⟩
    left.events ≠ right.events ∧ (left.setReadRelays "x" []).Untied ∧
      page.answer ((left.setReadRelays "x" []).answers .background) =
        page.answer (right.answers .background) := by
  intro key profile other list older left right page
  have untied : (left.setReadRelays "x" []).Untied := by decide
  have same : (left.setReadRelays "x" []).events.Perm right.events := by decide
  exact ⟨by decide, untied, (write_of_reordered same (fun _ => rfl) untied .background).1 _ _⟩

end Rendering

end NostrCapsule
