import Mathlib.Data.List.Permutation
import NostrCapsule.Page.Document
import NostrCapsule.Proofs.Page.DepthLimit
import NostrCapsule.Proofs.Page.Structure
import NostrCapsule.Proofs.Thread.Fetching

/-!
Contract: which bullets of a thread page are marked.

The root alone has depth zero, and it is always shown.  A fetched thread holds the event that the
reader came for, and no other event with its identifier; so there is one bullet with that mark, or
none if the event lies too deep.

Owns:
- `Row.marks`, and which rows of a thread have a mark;
- the entries of rows over a store that always answers alike;
- `Edition.withWidth`, and that a thread page is the same at every width;
- `threadPage_marks`.

Does not own: the thread that is fetched.
-/

namespace NostrCapsule

/-! ## Rows with a mark -/

def Row.marks (focusId : String) : Row → List String
  | .shown depth event => Edition.marks focusId depth event
  | .hidden _ => []

/-- The row is the bullet of the root. -/
def Row.IsRoot (focusId : String) (row : Row) : Prop :=
  "root" ∈ row.marks focusId

/-- The row is the bullet of the event that the reader came for. -/
def Row.IsFocus (focusId : String) (row : Row) : Prop :=
  "you are here" ∈ row.marks focusId

namespace Row

variable {focusId : String} {depth : Nat} {event : Event}

instance (row : Row) : Decidable (row.IsRoot focusId) :=
  inferInstanceAs (Decidable ("root" ∈ row.marks focusId))

instance (row : Row) : Decidable (row.IsFocus focusId) :=
  inferInstanceAs (Decidable ("you are here" ∈ row.marks focusId))

@[simp] theorem isRoot_shown : (shown depth event).IsRoot focusId ↔ depth = 0 := by
  unfold IsRoot marks Edition.marks
  by_cases top : depth = 0 <;> by_cases focus : event.id = focusId <;> simp [top, focus]

@[simp] theorem isFocus_shown : (shown depth event).IsFocus focusId ↔ event.id = focusId := by
  unfold IsFocus marks Edition.marks
  by_cases top : depth = 0 <;> by_cases focus : event.id = focusId <;> simp [top, focus]

@[simp] theorem not_isRoot_hidden : ¬(hidden depth).IsRoot focusId :=
  List.not_mem_nil

@[simp] theorem not_isFocus_hidden : ¬(hidden depth).IsFocus focusId :=
  List.not_mem_nil

end Row

namespace Forest

theorem map_snd_outline (depth : Nat) (forest : Forest) :
    (forest.outline depth).map Prod.snd = forest.preorder := by
  induction forest generalizing depth with
  | empty => rfl
  | branch event replies siblings repliesHypothesis siblingsHypothesis =>
      rw [outline, preorder, List.map_cons, List.map_append, repliesHypothesis, siblingsHypothesis]

/-- Below the top there is no bullet of the root. -/
theorem not_isRoot_of_mem_rows {focusId : String} {limit depth : Nat} {forest : Forest}
    (deep : depth ≠ 0) {row : Row} (member : row ∈ forest.rows limit depth) :
    ¬row.IsRoot focusId := by
  rw [rows_eq_filterMap_outline] at member
  obtain ⟨entry, listed, made⟩ := List.mem_filterMap.mp member
  have below := le_of_mem_outline listed
  unfold Row.ofOutline? at made
  split at made
  · cases made
    rw [Row.isRoot_shown]
    omega
  split at made
  · cases made
    exact Row.not_isRoot_hidden
  · cases made

/-- The bullets of the event that the reader came for are those of the events with its identifier,
as far as these lie above the limit. -/
theorem filter_isFocus_rows (focusId : String) (limit depth : Nat) (forest : Forest) :
    (forest.rows limit depth).filter (fun row => row.IsFocus focusId) =
      ((forest.outline depth).filter fun entry => entry.2.id = focusId).filterMap
        fun entry => if entry.1 < limit then some (.shown entry.1 entry.2) else none := by
  rw [rows_eq_filterMap_outline, List.filter_filterMap, List.filterMap_filter]
  apply List.filterMap_congr
  intro entry _
  unfold Row.ofOutline?
  by_cases above : entry.1 < limit
  · by_cases focus : entry.2.id = focusId <;> simp [above, focus]
  · by_cases first : entry.1 = max limit depth <;> simp [above, first]

end Forest

theorem effectiveDepth_pos (depth : Nat) : 0 < effectiveDepth depth := by
  unfold effectiveDepth defaultThreadDepth
  split <;> omega

namespace Thread

variable {thread : Thread} {focusId : String} {limit : Nat}

theorem rows_eq_cons (positive : 0 < limit) :
    thread.rows limit 0 = .shown 0 thread.root :: thread.replies.rows limit 1 := by
  rw [rows, toForest, Forest.rows, Forest.rows, List.append_nil, if_neg (by omega)]

/-- In a thread around an event there is one place with its identifier, and the event is there. -/
theorem IsAround.exists_filter_outline {store : MemoryStore} {focus : Event}
    (around : thread.IsAround store focus) :
    ∃ depth, thread.outline.filter (fun entry => entry.2.id = focus.id) = [(depth, focus)] := by
  have listed := around.mem_focus
  have distinct := around.nodup_ids
  rw [preorder, ← Forest.map_snd_outline 0] at listed distinct
  obtain ⟨⟨depth, event⟩, place, rfl⟩ := List.mem_map.mp listed
  rw [List.map_map] at distinct
  exact ⟨depth, filter_key_eq_singleton distinct place⟩

theorem filter_isRoot_rows (positive : 0 < limit) :
    (thread.rows limit 0).filter (fun row => row.IsRoot focusId) = [.shown 0 thread.root] := by
  have below : (thread.replies.rows limit 1).filter (fun row => row.IsRoot focusId) = [] := by
    rw [List.filter_eq_nil_iff]
    intro row member
    simpa using Forest.not_isRoot_of_mem_rows Nat.one_ne_zero member
  rw [rows_eq_cons positive, List.filter_cons_of_pos (by simp), below]

/-- The root and the event that the reader came for have one bullet exactly if they are the
same. -/
theorem exists_isRoot_isFocus_iff (positive : 0 < limit) :
    (∃ row ∈ thread.rows limit 0, row.IsRoot focusId ∧ row.IsFocus focusId) ↔
      thread.root.id = focusId := by
  rw [rows_eq_cons positive]
  constructor
  · intro both
    obtain ⟨row, member, root, focus⟩ := both
    rcases List.mem_cons.mp member with rfl | later
    · exact Row.isFocus_shown.mp focus
    · exact absurd root (Forest.not_isRoot_of_mem_rows Nat.one_ne_zero later)
  · intro same
    exact ⟨_, List.mem_cons_self, Row.isRoot_shown.mpr rfl, Row.isFocus_shown.mpr same⟩

end Thread

/-! ## Entries -/

namespace Edition

theorem answer_rowsEntries (edition : Edition) (focusId : String) (answers : Answers)
    (rows : List Row) :
    (edition.rowsEntries focusId rows).answer answers =
      rows.flatMap fun row => (edition.rowEntries focusId row).answer answers := by
  induction rows with
  | nil => rfl
  | cons row rest inductionHypothesis =>
      rw [rowsEntries, Lookup.answer_bind, Lookup.answer_bind, Lookup.answer_pure,
        inductionHypothesis, List.flatMap_cons]

/-- The entries of a row: a bullet, which ends in the marks of the row, and links. -/
theorem answer_rowEntries_shown (edition : Edition) (focusId : String) (answers : Answers)
    (depth : Nat) (event : Event) :
    (edition.rowEntries focusId (.shown depth event)).answer answers =
      (edition.indent depth ++ "* " ++ (summarize edition.settings event.content).answer answers
          ++ " (" ++ edition.age event ++ ")"
          ++ if (Row.shown depth event).IsRoot focusId then
              if (Row.shown depth event).IsFocus focusId then " [root, you are here]"
              else " [root]"
            else if (Row.shown depth event).IsFocus focusId then " [you are here]" else "")
        :: (event.linkLines edition.settings).answer answers := by
  simp only [Row.isRoot_shown, Row.isFocus_shown, ← marksText_marks]
  rw [rowEntries, Lookup.answer_bind, Lookup.answer_bind, Lookup.answer_pure]
  rfl

/-! ## The page -/

def withWidth (edition : Edition) (width : Nat) : Edition :=
  { edition with settings := { edition.settings with lineWidth := width } }

/-- The heading of a thread page is structure, which is not broken. -/
theorem finish_threadHeading (edition : Edition) :
    edition.finish ["# Thread", ""] = "# Thread\n" := by
  have document : Text.unlines ["# Thread", ""] = "# Thread\n" := by decide
  rw [finish, document]
  apply Reflow.reflow_eq_self
  decide +kernel

theorem threadEntries_withWidth (edition : Edition) (width maxDepth depth : Nat)
    (focusId : String) (thread : Thread) :
    (edition.withWidth width).threadEntries focusId maxDepth depth thread =
      edition.threadEntries focusId maxDepth depth thread := by
  have same : (edition.withWidth width).rowEntries focusId = edition.rowEntries focusId := by
    funext row
    cases row <;> rfl
  rw [threadEntries, threadEntries, rowsEntries_eq_mapM, rowsEntries_eq_mapM, same]

/-- A thread page asks and says the same at every width. -/
theorem threadPage_withWidth (edition : Edition) (width : Nat) (focusId : String) :
    (edition.withWidth width).threadPage focusId = edition.threadPage focusId := by
  have text (thread : Thread) :
      (edition.withWidth width).threadText focusId thread = edition.threadText focusId thread := by
    rw [threadText, threadText, threadEntries_withWidth]
    rfl
  simp only [threadPage, finish_threadHeading, text]

theorem answer_threadPage {edition : Edition} {focusId : String} {answers : Answers}
    {thread : Thread} (fetched : (Thread.fetch focusId).answer answers = some thread) :
    (edition.threadPage focusId).answer answers =
      "# Thread\n\n" ++ Text.unlines
        ((edition.threadEntries focusId edition.settings.maxThreadDepth 0 thread).answer answers) := by
  have heading : "# Thread\n" ++ "\n" = "# Thread\n\n" := by decide
  rw [threadPage, Lookup.answer_bind, fetched]
  simp only [Lookup.answer_bind, Lookup.answer_pure, threadText, finish_threadHeading, heading]

/-- The marks on the page of the thread around a stored event.  After the heading the page has the
entries of the rows of that thread, and a bullet ends in the marks of its row, in brackets.  The
first row is the one bullet of the root.  The event has one place in the thread; if this is above
the limit, its bullet is the one that says that the reader is here, else no bullet says so.  One
bullet has both marks exactly if the event is the root.  The width changes nothing. -/
theorem threadPage_marks (store : MemoryStore) (context : LookupContext)
    (live : context.check = .ok ()) (edition : Edition) (focus : Event)
    (stored : focus ∈ store.events) :
    let answers := store.answers context
    let maxDepth := edition.settings.maxThreadDepth
    let limit := if maxDepth = 0 then 10 else maxDepth
    ∃ thread depth,
      (Thread.fetch focus.id).answer answers = some thread ∧
      thread.outline.filter (fun entry => entry.2.id = focus.id) = [(depth, focus)] ∧
      let rows := thread.rows limit 0
      (edition.threadPage focus.id).answer answers =
        "# Thread\n\n" ++ Text.unlines
          (rows.flatMap fun row => (edition.rowEntries focus.id row).answer answers) ∧
      (∀ level, (edition.rowEntries focus.id (.hidden level)).answer answers =
        [edition.indent level ++ "… additional replies hidden"]) ∧
      (∀ level event, (edition.rowEntries focus.id (.shown level event)).answer answers =
        (edition.indent level ++ "* " ++ (summarize edition.settings event.content).answer answers
            ++ " (" ++ edition.age event ++ ")"
            ++ if (Row.shown level event).IsRoot focus.id then
                if (Row.shown level event).IsFocus focus.id then " [root, you are here]"
                else " [root]"
              else if (Row.shown level event).IsFocus focus.id then " [you are here]" else "")
          :: (event.linkLines edition.settings).answer answers) ∧
      rows.head? = some (.shown 0 thread.root) ∧
      rows.filter (fun row => row.IsRoot focus.id) = [.shown 0 thread.root] ∧
      rows.filter (fun row => row.IsFocus focus.id) =
        (if depth < limit then [.shown depth focus] else []) ∧
      ((∃ row ∈ rows, row.IsRoot focus.id ∧ row.IsFocus focus.id) ↔ thread.root = focus) ∧
      ∀ width, (edition.withWidth width).threadPage focus.id = edition.threadPage focus.id := by
  intro answers maxDepth limit
  have serves := store.serves_answers live
  have found : ((Lookup.fetchEvent focus.id).run answers.source ()).1 = some focus := by
    rw [MemoryStore.run_fetchEvent_of_answered (serves _ _)]
    exact MemoryStore.event?_eq_some_iff.mpr ⟨stored, rfl⟩
  obtain ⟨thread, fetched, around⟩ := Thread.exists_isAround_of_found serves.falters found
  rw [Lookup.run_answersSource] at fetched
  obtain ⟨depth, place⟩ := around.exists_filter_outline
  have positive : 0 < limit := effectiveDepth_pos maxDepth
  refine ⟨thread, depth, fetched, place, ?_, fun level => rfl,
    answer_rowEntries_shown edition focus.id answers, ?_, Thread.filter_isRoot_rows positive, ?_,
    ?_, fun width => threadPage_withWidth edition width focus.id⟩
  · rw [answer_threadPage fetched, threadEntries, answer_rowsEntries]
    rfl
  · rw [Thread.rows_eq_cons positive, List.head?_cons]
  · rw [Thread.rows, Forest.filter_isFocus_rows, ← Thread.outline, place]
    by_cases above : depth < limit <;> simp [above]
  · rw [Thread.exists_isRoot_isFocus_iff positive]
    exact ⟨MemoryStore.eq_of_id_eq around.root_stored stored, congrArg Event.id⟩

/-- A reply to a root has the mark at a greatest depth of two, and has no bullet at one. -/
theorem threadPage_marks_reply :
    let root : Event := { id := "r", pubkey := "", kind := 1, createdAt := 0, content := "Where?" }
    let focus : Event :=
      { id := "f", pubkey := "", kind := 1, createdAt := 60, content := "Here."
        tags := [["e", "r", "", "root"]] }
    let store := MemoryStore.empty.insertAll [focus, root]
    let thread : Thread := ⟨root, .branch focus .empty .empty⟩
    let page := fun maxDepth : Nat =>
      (Edition.threadPage ⟨{ maxThreadDepth := maxDepth }, 60⟩ "f").answer (store.answers .background)
    (Thread.fetch "f").answer (store.answers .background) = some thread ∧
      (thread.rows 2 0).filter (fun row => row.IsFocus "f") = [.shown 1 focus] ∧
      (thread.rows 1 0).filter (fun row => row.IsFocus "f") = [] ∧
      page 2 = "# Thread\n\n* Where? (1m ago) [root]\n=> /note/r View note\n"
        ++ "  * Here. (just now) [you are here]\n=> /note/f View note" ∧
      page 1 = "# Thread\n\n* Where? (1m ago) [root]\n=> /note/r View note\n"
        ++ "  … additional replies hidden" := by
  intro root focus store thread page
  have stored : focus ∈ store.events := by decide +kernel
  have fetched : (Thread.fetch "f").answer (store.answers .background) = some thread := by
    decide_cbv
  have placed : thread.outline.filter (fun entry => entry.2.id = "f") = [(1, focus)] := by
    decide +kernel
  obtain ⟨_, _, again, once, text, _, _, _, _, shown, _, _⟩ :=
    threadPage_marks store .background rfl ⟨{ maxThreadDepth := 2 }, 60⟩ focus stored
  cases fetched.symm.trans again
  cases placed.symm.trans once
  obtain ⟨_, _, again, once, cutText, _, _, _, _, hidden, _, _⟩ :=
    threadPage_marks store .background rfl ⟨{ maxThreadDepth := 1 }, 60⟩ focus stored
  cases fetched.symm.trans again
  cases placed.symm.trans once
  exact ⟨fetched, shown, hidden, text.trans (by decide +kernel),
    cutText.trans (by decide +kernel)⟩

end Edition

end NostrCapsule
