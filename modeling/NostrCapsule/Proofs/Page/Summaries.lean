import NostrCapsule.Proofs.Page.DepthLimit
import NostrCapsule.Proofs.Page.NoteLines
import NostrCapsule.Proofs.Text.SingleSpaced

/-!
Contract: what a summary shows of a content, and the bullets that hold summaries.

A store may have any text as the name of what a content refers to.  Names stand in the content
before its white space is collapsed, and that happens before it is cut, so neither a name nor a cut
brings a line feed or a run of spaces into a summary.

Owns:
- the summary of a content, as a start of its collapsed expansion;
- the bullets of threads and of recent notes, and when they are one line each;
- `summaries_one_line`.

Does not own: the links below a bullet.
-/

namespace NostrCapsule

open Text

/-! ## Summaries -/

namespace Text

/-- What a cut leaves of a text with single spaces has single spaces, and the marker is all that
can stand behind it. -/
theorem exists_truncate_eq (limit : Nat) (marker : String) {text : String}
    (single : IsSingleSpaced text) :
    ∃ shown,
      (text.length ≤ limit ∧ shown = text ∧ truncate limit marker text = shown ∨
        limit < text.length ∧ shown = String.ofList (text.toList.take limit) ∧
          truncate limit marker text = shown ++ marker) ∧
      shown.length ≤ limit ∧ IsSingleSpaced shown := by
  by_cases fits : text.length ≤ limit
  · have whole : truncate limit marker text = text := if_pos fits
    exact ⟨text, .inl ⟨fits, rfl, whole⟩, fits, single⟩
  · have cut : truncate limit marker text = String.ofList (text.toList.take limit) ++ marker :=
      if_neg fits
    refine ⟨_, .inr ⟨Nat.lt_of_not_le fits, rfl, cut⟩, ?_, single.take limit⟩
    rw [String.length_ofList]
    exact List.length_take_le limit text.toList

end Text

section Summary

variable {σ : Type} (source : Source σ) (settings : Settings) (content : String) (state : σ)

theorem run_summarize :
    let expansion := (expandNames content).run source state
    (summarize settings content).run source state =
      (truncate settings.summaryLength settings.summaryEllipsis (collapse expansion.1.text),
        expansion.2) := by
  rw [summarize, Lookup.run_bind, Lookup.run_pure]

variable {settings}

theorem isOneLine_summarize (ellipsis : IsOneLine settings.summaryEllipsis) :
    IsOneLine ((summarize settings content).run source state).1 := by
  rw [run_summarize]
  dsimp only
  exact isOneLine_truncate _ ellipsis (isCollapsed_collapse _).single.isOneLine

end Summary

namespace Edition

/-! ## Bullets -/

section Bullets

variable {edition : Edition}

theorem isOneLine_indent (indent : IsOneLine edition.settings.threadIndent) (depth : Nat) :
    IsOneLine (edition.indent depth) :=
  isOneLine_repeated depth indent

theorem isOneLine_marksText_marks (focusId : String) (depth : Nat) (event : Event) :
    IsOneLine (marksText (marks focusId depth event)) := by
  rw [marksText_marks]
  split <;> split <;> decide

theorem isOneLine_bullet (indent : IsOneLine edition.settings.threadIndent) {summary : String}
    (line : IsOneLine summary) (focusId : String) (depth : Nat) (event : Event) :
    IsOneLine (edition.bullet focusId depth event summary) := by
  have mark : IsOneLine "* " := by decide
  have opening : IsOneLine " (" := by decide
  have closing : IsOneLine ")" := by decide
  have age : IsOneLine (edition.age event) := isOneLine_ageText event.createdAt edition.now
  simp only [bullet, isOneLine_append]
  exact ⟨⟨⟨⟨⟨⟨isOneLine_indent indent depth, mark⟩, line⟩, opening⟩, age⟩, closing⟩,
    isOneLine_marksText_marks focusId depth event⟩

end Bullets

/-! ## Entries -/

theorem recentEntries_eq_mapM (edition : Edition) (notes : List Event) :
    edition.recentEntries notes = List.flatten <$> notes.mapM edition.recentNote := by
  induction notes with
  | nil => rfl
  | cons note rest inductionHypothesis =>
      rw [recentEntries, inductionHypothesis, List.mapM_cons]
      simp only [map_eq_pure_bind, bind_assoc, pure_bind, List.flatten_cons]

section Entries

variable {σ : Type} (source : Source σ) {edition : Edition}

theorem exists_run_rowEntries (indent : IsOneLine edition.settings.threadIndent)
    (ellipsis : IsOneLine edition.settings.summaryEllipsis) (focusId : String) (row : Row)
    (state : σ) :
    ∃ first links, ((edition.rowEntries focusId row).run source state).1 = first :: links ∧
      IsOneLine first ∧
      ∀ depth event, row = .shown depth event → first = edition.bullet focusId depth event
        ((summarize edition.settings event.content).run source state).1 := by
  cases row with
  | shown depth event =>
      refine ⟨_, _, by rw [rowEntries, Lookup.run_bind, Lookup.run_bind, Lookup.run_pure], ?_, ?_⟩
      · exact isOneLine_bullet indent (isOneLine_summarize source event.content state ellipsis)
          focusId depth event
      · rintro _ _ ⟨⟩
        rfl
  | hidden depth =>
      refine ⟨_, [], rfl, ?_, fun _ _ same => Row.noConfusion same⟩
      exact isOneLine_append.mpr ⟨isOneLine_indent indent depth, by decide⟩

theorem exists_run_recentNote (ellipsis : IsOneLine edition.settings.summaryEllipsis)
    (note : Event) (state : σ) :
    ∃ first, ((edition.recentNote note).run source state).1 = [first, note.ownLink] ∧
      IsOneLine first ∧
      first = "* " ++ ((summarize edition.settings note.content).run source state).1 ++ " ("
        ++ edition.age note ++ ")" := by
  have mark : IsOneLine "* " := by decide
  have opening : IsOneLine " (" := by decide
  have closing : IsOneLine ")" := by decide
  have age : IsOneLine (edition.age note) := isOneLine_ageText note.createdAt edition.now
  refine ⟨_, by rw [recentNote, Lookup.run_bind, Lookup.run_pure], ?_, rfl⟩
  simp only [isOneLine_append]
  exact ⟨⟨⟨⟨mark, isOneLine_summarize source note.content state ellipsis⟩, opening⟩, age⟩, closing⟩

end Entries

/-- A summary is the collapsed expansion of the content, or the first characters of it and the
ellipsis.  What comes from the content is within the limit; its white space is single spaces, none
of them in front.  So if neither the indent nor the ellipsis has a line feed, each row of a thread
and each recent note begins with one line, which is its bullet. -/
theorem summaries_one_line {σ : Type} (source : Source σ) (edition : Edition) :
    let limit := edition.settings.summaryLength
    let ellipsis := edition.settings.summaryEllipsis
    let summary (content : String) (state : σ) : String :=
      ((summarize edition.settings content).run source state).1
    (∀ content state,
      let expansion := ((expandNames content).run source state).1.text
      ∃ collapsed shown,
        (∀ other, IsCollapsed expansion other ↔ other = collapsed) ∧
        (collapsed.length ≤ limit ∧ shown = collapsed ∧ summary content state = shown ∨
          limit < collapsed.length ∧ shown = String.ofList (collapsed.toList.take limit) ∧
            summary content state = shown ++ ellipsis) ∧
        shown.length ≤ limit ∧ IsSingleSpaced shown ∧ IsOneLine shown) ∧
    (IsOneLine edition.settings.threadIndent → IsOneLine ellipsis →
      (∀ focusId maxDepth depth (thread : Thread) state, ∃ parts,
        ((edition.threadEntries focusId maxDepth depth thread).run source state).1 =
          parts.flatten ∧
        List.Forall₂ (fun row part => ∃ first links, part = first :: links ∧ IsOneLine first ∧
            ∀ level event, row = .shown level event →
              ∃ start, first = edition.bullet focusId level event (summary event.content start))
          (thread.rows (effectiveDepth maxDepth) depth) parts) ∧
      ∀ notes state, ∃ parts,
        ((edition.recentEntries notes).run source state).1 = parts.flatten ∧
        List.Forall₂ (fun note part => ∃ first, part = [first, note.ownLink] ∧ IsOneLine first ∧
            ∃ start, first =
              "* " ++ summary note.content start ++ " (" ++ edition.age note ++ ")")
          notes parts) := by
  intro limit ellipsis summary
  refine ⟨?_, ?_⟩
  · intro content state expansion
    have single : IsSingleSpaced (collapse expansion) := (isCollapsed_collapse expansion).single
    obtain ⟨shown, cut, short, spaced⟩ := exists_truncate_eq limit ellipsis single
    refine ⟨collapse expansion, shown, fun _ => isCollapsed_iff, ?_, short, spaced,
      spaced.isOneLine⟩
    simp only [summary, run_summarize]
    exact cut
  · intro indent marker
    refine ⟨?_, ?_⟩
    · intro focusId maxDepth depth thread state
      rw [threadEntries, rowsEntries_eq_mapM, Lookup.run_map]
      refine ⟨_, rfl, (Lookup.forall₂_run_mapM source _ _ state).imp ?_⟩
      rintro row part ⟨start, rfl⟩
      obtain ⟨first, links, entries, line, same⟩ :=
        exists_run_rowEntries source indent marker focusId row start
      exact ⟨first, links, entries, line, fun level event shown => ⟨start, same level event shown⟩⟩
    · intro notes state
      rw [recentEntries_eq_mapM, Lookup.run_map]
      refine ⟨_, rfl, (Lookup.forall₂_run_mapM source _ _ state).imp ?_⟩
      rintro note part ⟨start, rfl⟩
      obtain ⟨first, entries, line, same⟩ := exists_run_recentNote source marker note start
      exact ⟨first, entries, line, start, same⟩

/-- A name with a line feed and a line separator stands in the text, and the cut is at the space
that is left of them. -/
theorem summaries_one_line_broken_name :
    let key := "7e7e9c42a91bfef19fa929e5fda1b72e0ebc1a4c1141673e2794234d86addf4e"
    let store := MemoryStore.empty.insertAll
      [{ id := "m", pubkey := key, kind := 0, createdAt := 1
         content := "\x7b\"name\":\"A\\n \\u2028B\"\x7d" }]
    let source := (store.answers .background).source
    let edition : Edition := ⟨{ summaryLength := 5 }, 0⟩
    let note : Event :=
      { id := "n", pubkey := key, kind := 1, createdAt := 0
        content := "by nostr:npub10elfcs4fr0l0r8af98jlmgdh9c8tcxjvz9qkw038js35mp4dma8qzvjptg" }
    ((expandNames note.content).run source ()).1.text = "by A\n \u2028B" ∧
      IsOneLine edition.settings.threadIndent ∧ IsOneLine edition.settings.summaryEllipsis ∧
      ((edition.recentEntries [note]).run source ()).1 = ["* by A ... (just now)", note.ownLink] ∧
      IsOneLine "* by A ... (just now)" := by
  intro key store source edition note
  have indent : IsOneLine edition.settings.threadIndent := by decide
  have ellipsis : IsOneLine edition.settings.summaryEllipsis := by decide
  have written : ((edition.recentEntries [note]).run source ()).1 =
      ["* by A ... (just now)", note.ownLink] := by
    decide +kernel
  obtain ⟨_, bullets⟩ := summaries_one_line source edition
  obtain ⟨_, recent⟩ := bullets indent ellipsis
  obtain ⟨parts, entries, each⟩ := recent [note] ()
  rw [written] at entries
  refine ⟨by decide +kernel, indent, ellipsis, written, ?_⟩
  cases each with
  | cons led none =>
      cases none
      obtain ⟨first, rfl, line, _⟩ := led
      cases entries
      exact line

end Edition

end NostrCapsule
