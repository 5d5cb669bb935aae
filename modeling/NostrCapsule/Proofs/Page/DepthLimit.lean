import NostrCapsule.Page.Conversation
import NostrCapsule.Proofs.Lookup.Laws

/-!
Contract: a thread on a page is its outline, cut where a depth is reached.

The outline lists all events in preorder with their depths.  An event above the limit has a row of
its own; where the limit is first reached there is a mark, and below it nothing.  Since a row asks
only for what its own event needs, equal rows ask the same questions.

Owns:
- the rows of a forest as a part of its outline, and their number;
- `SameAbove`, for forests that differ at the limit and below it only;
- the entries of a thread from those of the threads of its replies (`threadEntries_eq_rec`);
- `threadEntries_eq_outline_cut`.

Does not own: summaries and links.
-/

namespace NostrCapsule

/-! ## Rows -/

namespace Row

def isShown : Row → Bool
  | .shown _ _ => true
  | .hidden _ => false

def isHidden : Row → Bool
  | .shown _ _ => false
  | .hidden _ => true

/-- The row of an event in an outline whose top has a depth.  The limit is first reached at the
limit itself or, if the top is deeper than that, at the top. -/
def ofOutline? (limit top : Nat) (entry : Nat × Event) : Option Row :=
  if entry.1 < limit then some (.shown entry.1 entry.2)
  else if entry.1 = max limit top then some (.hidden entry.1)
  else none

section Outline

variable {limit top : Nat} {entry : Nat × Event}

theorem ofOutline?_above (above : entry.1 < limit) :
    ofOutline? limit top entry = some (.shown entry.1 entry.2) := by
  unfold ofOutline?
  rw [if_pos above]

theorem ofOutline?_at (first : entry.1 = max limit top) :
    ofOutline? limit top entry = some (.hidden entry.1) := by
  unfold ofOutline?
  rw [if_neg (by omega), if_pos first]

theorem ofOutline?_deeper (deeper : max limit top < entry.1) :
    ofOutline? limit top entry = none := by
  unfold ofOutline?
  rw [if_neg (by omega), if_neg (by omega)]

theorem ofOutline?_succ (above : top < limit) :
    ofOutline? limit (top + 1) = ofOutline? limit top := by
  funext entry
  unfold ofOutline?
  rw [Nat.max_eq_left (by omega), Nat.max_eq_left (by omega)]

end Outline

end Row

namespace Forest

theorem le_of_mem_outline {depth : Nat} {forest : Forest} {entry : Nat × Event}
    (member : entry ∈ forest.outline depth) : depth ≤ entry.1 := by
  induction forest generalizing depth with
  | empty => cases member
  | branch event replies siblings repliesHypothesis siblingsHypothesis =>
      rw [outline, List.mem_cons, List.mem_append] at member
      rcases member with rfl | below | beside
      · exact Nat.le_refl _
      · exact Nat.le_of_succ_le (repliesHypothesis below)
      · exact siblingsHypothesis beside

theorem rows_eq_filterMap_outline (limit depth : Nat) (forest : Forest) :
    forest.rows limit depth = (forest.outline depth).filterMap (Row.ofOutline? limit depth) := by
  induction forest generalizing depth with
  | empty => rfl
  | branch event replies siblings repliesHypothesis siblingsHypothesis =>
      rw [rows, outline, List.filterMap_cons, List.filterMap_append, siblingsHypothesis,
        repliesHypothesis]
      by_cases reached : limit ≤ depth
      · -- The replies all lie deeper than the mark, so none of them has a row.
        have below : (replies.outline (depth + 1)).filterMap (Row.ofOutline? limit depth) = [] := by
          apply List.filterMap_eq_nil_iff.mpr
          intro entry member
          have deeper := le_of_mem_outline member
          exact Row.ofOutline?_deeper (by omega)
        rw [if_pos reached, Row.ofOutline?_at (Nat.max_eq_right reached).symm, below]
        rfl
      · -- Above the limit it does not matter from which top the replies are looked at.
        have above : depth < limit := by omega
        rw [if_neg reached, Row.ofOutline?_above above, Row.ofOutline?_succ above]
        rfl

theorem countP_isShown_rows (limit depth : Nat) (forest : Forest) :
    (forest.rows limit depth).countP Row.isShown =
      (forest.outline depth).countP fun entry => entry.1 < limit := by
  rw [rows_eq_filterMap_outline, List.countP_filterMap]
  apply List.countP_congr
  intro entry _
  unfold Row.ofOutline?
  by_cases above : entry.1 < limit
  · simp [above, Row.isShown]
  · by_cases first : entry.1 = max limit depth
    · simp [above, ← first, Row.isShown]
    · simp [above, first]

theorem countP_isHidden_rows (limit depth : Nat) (forest : Forest) :
    (forest.rows limit depth).countP Row.isHidden =
      (forest.outline depth).countP fun entry => entry.1 = max limit depth := by
  rw [rows_eq_filterMap_outline, List.countP_filterMap]
  apply List.countP_congr
  intro entry _
  unfold Row.ofOutline?
  by_cases above : entry.1 < limit
  · have other : entry.1 ≠ max limit depth := by omega
    simp [above, other, Row.isHidden]
  · by_cases first : entry.1 = max limit depth
    · simp [above, ← first, Row.isHidden]
    · simp [above, first]

/-! ## Forests that agree above a depth -/

/-- Two forests whose top has a depth have the same events above the limit, and as many trees
hidden at the same places. -/
inductive SameAbove (limit : Nat) : Nat → Forest → Forest → Prop where
  | empty {depth : Nat} : SameAbove limit depth .empty .empty
  | shown {depth : Nat} {event : Event} {replies otherReplies siblings otherSiblings : Forest}
      (above : depth < limit) (below : SameAbove limit (depth + 1) replies otherReplies)
      (beside : SameAbove limit depth siblings otherSiblings) :
      SameAbove limit depth (.branch event replies siblings)
        (.branch event otherReplies otherSiblings)
  | hidden {depth : Nat} {event otherEvent : Event}
      {replies otherReplies siblings otherSiblings : Forest} (reached : limit ≤ depth)
      (beside : SameAbove limit depth siblings otherSiblings) :
      SameAbove limit depth (.branch event replies siblings)
        (.branch otherEvent otherReplies otherSiblings)

theorem SameAbove.rows_eq {limit depth : Nat} {left right : Forest}
    (same : SameAbove limit depth left right) : left.rows limit depth = right.rows limit depth := by
  induction same with
  | empty => rfl
  | shown above below beside belowHypothesis besideHypothesis =>
      rw [rows, rows, belowHypothesis, besideHypothesis]
  | hidden reached beside besideHypothesis =>
      rw [rows, rows, if_pos reached, if_pos reached, besideHypothesis]

end Forest

/-! ## Entries -/

namespace Edition

variable (edition : Edition) (focusId : String)

theorem rowsEntries_eq_mapM (rows : List Row) :
    edition.rowsEntries focusId rows = List.flatten <$> rows.mapM (edition.rowEntries focusId) := by
  induction rows with
  | nil => rfl
  | cons row rest inductionHypothesis =>
      rw [rowsEntries, inductionHypothesis, List.mapM_cons]
      simp only [map_eq_pure_bind, bind_assoc, pure_bind, List.flatten_cons]

theorem rowsEntries_append (rows others : List Row) :
    edition.rowsEntries focusId (rows ++ others) = (do
      let first ← edition.rowsEntries focusId rows
      let second ← edition.rowsEntries focusId others
      pure (first ++ second)) := by
  simp only [rowsEntries_eq_mapM, List.mapM_append, map_eq_pure_bind, bind_assoc, pure_bind,
    List.flatten_append]

theorem effectiveDepth_effectiveDepth (maxDepth : Nat) :
    effectiveDepth (effectiveDepth maxDepth) = effectiveDepth maxDepth := by
  unfold effectiveDepth
  split <;> rfl

/-- The entries of a forest are those of its top trees, each with the same greatest depth. -/
theorem rowsEntries_rows_eq_mapM_threads (maxDepth depth : Nat) (forest : Forest) :
    edition.rowsEntries focusId (forest.rows (effectiveDepth maxDepth) depth) =
      List.flatten <$> forest.threads.mapM (edition.threadEntries focusId maxDepth depth) := by
  induction forest with
  | empty => rfl
  | branch event replies siblings _ siblingsHypothesis =>
      have first : edition.threadEntries focusId maxDepth depth ⟨event, replies⟩ =
          edition.rowsEntries focusId
            (if effectiveDepth maxDepth ≤ depth then [.hidden depth]
              else .shown depth event :: replies.rows (effectiveDepth maxDepth) (depth + 1)) := by
        rw [threadEntries, Thread.rows, Thread.toForest, Forest.rows, Forest.rows, List.append_nil]
      rw [Forest.rows, rowsEntries_append, ← first, siblingsHypothesis, Forest.threads,
        List.mapM_cons]
      simp only [map_eq_pure_bind, bind_assoc, pure_bind, List.flatten_cons]

/-- A thread is one mark at the limit; above it, it is a bullet with links, and then the threads
of the replies one deeper, for which the limit may be taken as it is or as the one it stands
for. -/
theorem threadEntries_eq_rec (maxDepth depth : Nat) (thread : Thread) :
    edition.threadEntries focusId maxDepth depth thread =
      if effectiveDepth maxDepth ≤ depth then edition.rowEntries focusId (.hidden depth)
      else (do
        let first ← edition.rowEntries focusId (.shown depth thread.root)
        let below ← thread.replies.threads.mapM
          (edition.threadEntries focusId (effectiveDepth maxDepth) (depth + 1))
        pure (first ++ below.flatten)) := by
  have below := rowsEntries_rows_eq_mapM_threads edition focusId (effectiveDepth maxDepth)
    (depth + 1) thread.replies
  rw [effectiveDepth_effectiveDepth] at below
  rw [threadEntries, Thread.rows, Thread.toForest, Forest.rows, Forest.rows, List.append_nil]
  by_cases reached : effectiveDepth maxDepth ≤ depth
  · rw [if_pos reached, if_pos reached]
    rfl
  · rw [if_neg reached, if_neg reached, rowsEntries, below]
    simp only [map_eq_pure_bind, bind_assoc, pure_bind]

theorem marksText_marks (depth : Nat) (event : Event) :
    marksText (marks focusId depth event) =
      if depth = 0 then if event.id = focusId then " [root, you are here]" else " [root]"
      else if event.id = focusId then " [you are here]" else "" := by
  unfold marks
  by_cases top : depth = 0
  · by_cases focus : event.id = focusId
    · rw [if_pos top, if_pos focus, if_pos top, if_pos focus]
      rfl
    · rw [if_pos top, if_neg focus, if_pos top, if_neg focus]
      rfl
  · by_cases focus : event.id = focusId
    · rw [if_neg top, if_pos focus, if_neg top, if_pos focus]
      rfl
    · rw [if_neg top, if_neg focus, if_neg top, if_neg focus]
      rfl

/-- A thread on a page is its outline, cut at the limit, one row after the other: a bullet and
its links for each event above the limit, one mark where the limit is first reached.  What lies
at the limit or below it is neither shown nor asked about. -/
theorem threadEntries_eq_outline_cut (maxDepth depth : Nat) (thread : Thread) :
    let limit := if maxDepth = 0 then 10 else maxDepth
    let outline := thread.toForest.outline depth
    let rows := outline.filterMap (Row.ofOutline? limit depth)
    let indent (level : Nat) : String :=
      String.join (List.replicate level edition.settings.threadIndent)
    edition.threadEntries focusId maxDepth depth thread =
        List.flatten <$> rows.mapM (edition.rowEntries focusId) ∧
      (∀ level, edition.rowEntries focusId (.hidden level) =
        pure [indent level ++ "… additional replies hidden"]) ∧
      (∀ level event, edition.rowEntries focusId (.shown level event) = do
        let summary ← summarize edition.settings event.content
        let links ← event.linkLines edition.settings
        pure ((indent level ++ "* " ++ summary ++ " (" ++ ageText event.createdAt edition.now ++ ")"
          ++ if level = 0 then if event.id = focusId then " [root, you are here]" else " [root]"
            else if event.id = focusId then " [you are here]" else "") :: links)) ∧
      rows.countP Row.isShown = outline.countP (fun entry => entry.1 < limit) ∧
      rows.countP Row.isHidden = outline.countP (fun entry => entry.1 = max limit depth) ∧
      ∀ other : Thread, Forest.SameAbove limit depth thread.toForest other.toForest →
        edition.threadEntries focusId maxDepth depth other =
          edition.threadEntries focusId maxDepth depth thread := by
  intro limit outline rows indent
  have cut : thread.rows limit depth = rows :=
    Forest.rows_eq_filterMap_outline limit depth thread.toForest
  have indented (level : Nat) : edition.indent level = indent level :=
    Text.repeated_eq_join level edition.settings.threadIndent
  refine ⟨?_, ?_, ?_, ?_, ?_, ?_⟩
  · show edition.rowsEntries focusId (thread.rows limit depth) = _
    rw [cut, rowsEntries_eq_mapM]
  · intro level
    rw [rowEntries, indented]
    rfl
  · intro level event
    simp only [rowEntries, bullet, age, indented, marksText_marks]
  · rw [← cut]
    exact Forest.countP_isShown_rows limit depth thread.toForest
  · rw [← cut]
    exact Forest.countP_isHidden_rows limit depth thread.toForest
  · intro other same
    show edition.rowsEntries focusId (other.rows limit depth) =
      edition.rowsEntries focusId (thread.rows limit depth)
    rw [Thread.rows, Thread.rows, same.rows_eq]

/-- Whatever stands at the limit, and however much is below it, there is the one mark. -/
theorem threadEntries_hidden_reply :
    let event (id : String) : Event := { id, pubkey := "", kind := 1, createdAt := 0 }
    let edition : Edition := ⟨{}, 60⟩
    let below : Forest := .branch (event "d") .empty .empty
    let thread : Thread := ⟨event "a", .branch (event "b") .empty .empty⟩
    let other : Thread := ⟨event "a", .branch (event "c") below .empty⟩
    Forest.SameAbove 1 0 thread.toForest other.toForest ∧
      (other.toForest.outline 0).filterMap (Row.ofOutline? 1 0) =
        [.shown 0 (event "a"), .hidden 1] ∧
      edition.threadEntries "a" 1 0 other = edition.threadEntries "a" 1 0 thread := by
  intro event edition below thread other
  have same : Forest.SameAbove 1 0 thread.toForest other.toForest :=
    .shown Nat.one_pos (.hidden (Nat.le_refl 1) .empty) .empty
  obtain ⟨_, _, _, _, _, unseen⟩ := threadEntries_eq_outline_cut edition "a" 1 0 thread
  exact ⟨same, rfl, unseen other same⟩

end Edition

end NostrCapsule
