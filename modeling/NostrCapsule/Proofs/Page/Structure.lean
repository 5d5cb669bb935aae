import Mathlib.Data.List.Basic
import Mathlib.Data.List.Flatten
import NostrCapsule.Page.Reflow
import NostrCapsule.Proofs.Text.Blank
import NostrCapsule.Proofs.Text.OneLine
import NostrCapsule.Proofs.Text.Words

/-!
Contract: which structure a document has after its prose was broken to a width.

Lines with structure pass unchanged, so none is lost.  But a line break may come to stand in front
of a word that begins with a mark, and white space after an asterisk becomes a space, which makes
it a bullet; so prose can turn into structure.

Owns:
- `structuralLines`, and `BeginsMarked` for words that have structure once they stand on a line;
- the lines of a reflowed document;
- `structuralLines_reflow`, which says when structure is kept.

Does not own: how many words stand on a line.
-/

namespace NostrCapsule

def structuralLines (document : String) : List String :=
  (Text.linesOf document).filter isStructural

namespace Reflow

/-- A line that is broken: neither white space only nor structure. -/
def IsProse (line : String) : Prop :=
  Text.isAllBlank line = false ∧ isStructural line = false

/-- Words that carry structure once they stand on a line: the first one begins with a fence, link
or heading mark, or it is an asterisk with another word after it. -/
def BeginsMarked : List String → Prop
  | [] => False
  | word :: rest =>
      "```".toList <+: word.toList ∨ "=>".toList <+: word.toList ∨ "#".toList <+: word.toList ∨
        (word = "*" ∧ rest ≠ [])

instance (line : String) : Decidable (IsProse line) :=
  inferInstanceAs (Decidable (_ ∧ _))

instance : DecidablePred BeginsMarked
  | [] => inferInstanceAs (Decidable False)
  | _ :: _ => inferInstanceAs (Decidable (_ ∨ _))

/-! ## Words on a line -/

section Line

variable {mark word tail : List Char}

/-- What follows white space takes no part in a mark that has none. -/
theorem prefix_append_iff (letters : ∀ character ∈ mark, Text.isBlank character = false)
    (ends : ∀ character, tail.head? = some character → Text.isBlank character = true) :
    mark <+: word ++ tail ↔ mark <+: word := by
  induction mark generalizing word with
  | nil => simp
  | cons character rest inductionHypothesis =>
      rw [List.forall_mem_cons] at letters
      cases word with
      | nil =>
          cases tail with
          | nil => rfl
          | cons separator later =>
              have blank := ends separator rfl
              have other : character ≠ separator := by
                rintro rfl
                rw [letters.1] at blank
                cases blank
              simp [other]
      | cons first others =>
          rw [List.cons_append, List.cons_prefix_cons, List.cons_prefix_cons,
            inductionHypothesis letters.2]

end Line

def AreWords (words : List String) : Prop :=
  ∀ word ∈ words, word.toList ≠ [] ∧ ∀ character ∈ word.toList, Text.isBlank character = false

theorem toList_intercalate_cons (word : String) (rest : List String) :
    ∃ tail, (" ".intercalate (word :: rest)).toList = word.toList ++ tail ∧
      (∀ character, tail.head? = some character → character = ' ') ∧ (tail = [] ↔ rest = []) := by
  cases rest with
  | nil => exact ⟨[], by simp⟩
  | cons second later =>
      refine ⟨' ' :: (" ".intercalate (second :: later)).toList, ?_, by simp, by simp⟩
      rw [String.intercalate_cons_cons, String.toList_append, String.toList_append,
        List.append_assoc]
      rfl

/-- The bullet's mark takes the space after an asterisk along. -/
theorem bullet_prefix_iff {word : String} {tail : List Char} (nonempty : word.toList ≠ [])
    (letters : ∀ character ∈ word.toList, Text.isBlank character = false)
    (ends : ∀ character, tail.head? = some character → character = ' ') :
    "* ".toList <+: word.toList ++ tail ↔ word = "*" ∧ tail ≠ [] := by
  rw [← String.toList_inj]
  generalize word.toList = characters at nonempty letters
  have mark : "* ".toList = ['*', ' '] := rfl
  have asterisk : "*".toList = ['*'] := rfl
  rw [mark, asterisk]
  match characters with
  | [] => exact absurd rfl nonempty
  | [first] =>
      cases tail with
      | nil => simp
      | cons separator later =>
          have space := ends separator rfl
          simp [space, eq_comm]
  | first :: second :: others =>
      have letter := letters second (by simp)
      have other : ' ' ≠ second := by
        rintro rfl
        exact absurd letter (by decide)
      simp [other]

theorem isStructural_intercalate_iff {words : List String} (letters : AreWords words) :
    isStructural (" ".intercalate words) = true ↔ BeginsMarked words := by
  cases words with
  | nil => simp [isStructural, BeginsMarked, Text.trimStartChars, structuralMarks]
  | cons word rest =>
      obtain ⟨tail, joined, ends, last⟩ := toList_intercalate_cons word rest
      obtain ⟨nonempty, clean⟩ := letters word List.mem_cons_self
      have blankEnds : ∀ character, tail.head? = some character →
          Text.isBlank character = true := by
        intro character head
        rw [ends character head]
        decide
      have trimmed : Text.trimStartChars (word.toList ++ tail) = word.toList ++ tail := by
        apply Text.trimStartChars_of_head
        rw [List.head?_append_of_ne_nil _ nonempty]
        exact fun first leads => clean first (List.mem_of_head? leads)
      have plain : ∀ mark ∈ ["```", "=>", "#"], mark.toList.any Text.isBlank = false := by
        decide
      have inWord : ∀ mark ∈ ["```", "=>", "#"],
          (mark.toList <+: word.toList ++ tail ↔ mark.toList <+: word.toList) := by
        intro mark member
        have clear := List.any_eq_false.mp (plain mark member)
        exact prefix_append_iff (fun character inside => by simpa using clear character inside)
          blankEnds
      simp only [isStructural, joined, trimmed, structuralMarks, List.any_cons, List.any_nil,
        Bool.or_false, Bool.or_eq_true, List.isPrefixOf_iff_prefix, BeginsMarked]
      rw [inWord "```" (by simp), inWord "=>" (by simp), inWord "#" (by simp),
        bullet_prefix_iff nonempty clean ends, ne_eq, last]

/-! ## Filling lines -/

theorem flatten_group (width : Nat) (line : List String) (used : Nat) (words : List String) :
    (group width line used words).flatten = line.reverse ++ words := by
  induction words generalizing line used with
  | nil => simp [group]
  | cons word rest inductionHypothesis =>
      rw [group]
      split
      · rw [inductionHypothesis, List.reverse_cons, List.append_assoc, List.singleton_append]
      · rw [List.flatten_cons, inductionHypothesis]
        rfl

/-- Lines are filled with all words in their order. -/
theorem flatten_fill (width : Nat) (words : List String) : (fill width words).flatten = words := by
  cases words with
  | nil => rfl
  | cons word rest => exact flatten_group width [word] word.length rest

theorem areWords_of_mem_fill {width : Nat} {line : String} {words : List String}
    (filled : words ∈ fill width (Text.words line)) : AreWords words := by
  intro word member
  have listed : word ∈ Text.words line := by
    rw [← flatten_fill width (Text.words line)]
    exact List.mem_flatten.mpr ⟨words, filled, member⟩
  exact Text.mem_words listed

/-! ## One line -/

theorem reflowLine_of_prose {width : Nat} {line : String} (prose : IsProse line) :
    reflowLine width line = (fill width (Text.words line)).map (" ".intercalate ·) := by
  simp [reflowLine, prose.1, prose.2]

theorem reflowLine_of_not_prose {width : Nat} {line : String} (kept : ¬IsProse line) :
    reflowLine width line = [line] := by
  unfold reflowLine
  rw [if_pos]
  by_contra broken
  simp only [Bool.or_eq_true, not_or, Bool.not_eq_true] at broken
  exact kept broken

theorem reflowLine_ne_nil (width : Nat) (line : String) : reflowLine width line ≠ [] := by
  by_cases prose : IsProse line
  · rw [reflowLine_of_prose prose]
    intro none
    have words := flatten_fill width (Text.words line)
    rw [List.map_eq_nil_iff.mp none, List.flatten_nil, eq_comm, Text.words_eq_nil_iff,
      prose.1] at words
    cases words
  · rw [reflowLine_of_not_prose prose]
    exact List.cons_ne_nil _ _

theorem isOneLine_of_mem_reflowLine {width : Nat} {line piece : String}
    (oneLine : Text.IsOneLine line) (member : piece ∈ reflowLine width line) :
    Text.IsOneLine piece := by
  by_cases prose : IsProse line
  · rw [reflowLine_of_prose prose] at member
    obtain ⟨words, filled, rfl⟩ := List.mem_map.mp member
    apply (Text.isOneLine_intercalate (by decide)).mpr
    intro word inside
    exact Text.isOneLine_of_not_blank (areWords_of_mem_fill filled word inside).2
  · rw [reflowLine_of_not_prose prose, List.mem_singleton] at member
    rwa [member]

/-- A line keeps its structure, and gets no new one exactly if it is not broken into lines that
begin marked. -/
theorem filter_reflowLine (width : Nat) (line : String) :
    ([line].filter isStructural).Sublist ((reflowLine width line).filter isStructural) ∧
      ((reflowLine width line).filter isStructural = [line].filter isStructural ↔
        (IsProse line → ∀ words ∈ fill width (Text.words line), ¬BeginsMarked words)) := by
  by_cases prose : IsProse line
  · have plain : [line].filter isStructural = [] := by simp [prose.2]
    rw [plain, reflowLine_of_prose prose, List.filter_eq_nil_iff]
    refine ⟨List.nil_sublist _, ?_⟩
    simp only [List.forall_mem_map, prose, forall_const]
    apply forall₂_congr
    intro words filled
    rw [isStructural_intercalate_iff (areWords_of_mem_fill filled)]
  · rw [reflowLine_of_not_prose prose]
    simp [prose]

/-! ## Documents -/

theorem linesOf_reflow {width : Nat} (positive : width ≠ 0) (document : String) :
    Text.linesOf (reflow width document) =
      (Text.linesOf document).flatMap (reflowLine width) := by
  unfold reflow
  rw [if_neg positive, Text.linesOf_unlines]
  · intro none
    have first := List.exists_mem_of_ne_nil _ (Text.linesOf_ne_nil document)
    obtain ⟨line, member⟩ := first
    exact reflowLine_ne_nil width line (List.flatMap_eq_nil_iff.mp none line member)
  · intro piece member
    obtain ⟨line, inside, broken⟩ := List.mem_flatMap.mp member
    exact isOneLine_of_mem_reflowLine (Text.isOneLine_of_mem_linesOf inside) broken

/-- A document stays if each of its lines does. -/
theorem reflow_eq_self_of_kept {width : Nat} {document : String}
    (kept : ∀ line ∈ Text.linesOf document, reflowLine width line = [line]) :
    reflow width document = document := by
  unfold reflow
  split
  · rfl
  · rw [List.flatMap_congr kept, List.flatMap_singleton', Text.unlines_linesOf]

/-- A document without prose is the same at every width. -/
theorem reflow_eq_self {document : String} (plain : ∀ line ∈ Text.linesOf document, ¬IsProse line)
    (width : Nat) : reflow width document = document := by
  apply reflow_eq_self_of_kept
  exact fun line member => reflowLine_of_not_prose (plain line member)

end Reflow

/-- Lists that are put together from parts, of which each is at least as long as its counterpart,
are equal only part by part. -/
theorem flatMap_eq_flatMap_iff {α β : Type} {shorter longer : α → List β}
    (within : ∀ item, (shorter item).Sublist (longer item)) {items : List α} :
    items.flatMap longer = items.flatMap shorter ↔ ∀ item ∈ items, longer item = shorter item := by
  induction items with
  | nil => simp
  | cons first rest inductionHypothesis =>
      rw [List.flatMap_cons, List.flatMap_cons, List.forall_mem_cons, ← inductionHypothesis]
      constructor
      · intro equal
        have firstWithin := (within first).length_le
        have restWithin := (List.Sublist.flatMap_right rest fun item _ => within item).length_le
        have sizes := congrArg List.length equal
        rw [List.length_append, List.length_append] at sizes
        exact List.append_inj equal (by omega)
      · intro parts
        rw [parts.1, parts.2]

/-- The lines with structure stay, in their order.  They are all there is exactly if no line of
prose is broken into lines that begin marked. -/
theorem structuralLines_reflow (width : Nat) (document : String) :
    (structuralLines document).Sublist (structuralLines (reflow width document)) ∧
      (structuralLines (reflow width document) = structuralLines document ↔
        width = 0 ∨ ∀ line ∈ Text.linesOf document, Reflow.IsProse line →
          ∀ words ∈ Reflow.fill width (Text.words line), ¬Reflow.BeginsMarked words) := by
  by_cases zero : width = 0
  · subst zero
    have same : reflow 0 document = document := rfl
    simp [same]
  · have before : structuralLines document =
        (Text.linesOf document).flatMap fun line => [line].filter isStructural := by
      rw [← List.filter_flatMap, List.flatMap_singleton']
      rfl
    have after : structuralLines (reflow width document) =
        (Text.linesOf document).flatMap
          fun line => (Reflow.reflowLine width line).filter isStructural := by
      rw [structuralLines, Reflow.linesOf_reflow zero, List.filter_flatMap]
    have within := fun line => (Reflow.filter_reflowLine width line).1
    rw [before, after, flatMap_eq_flatMap_iff within]
    refine ⟨List.Sublist.flatMap_right _ fun line _ => within line, ?_⟩
    rw [or_iff_right zero]
    exact forall₂_congr fun line _ => (Reflow.filter_reflowLine width line).2

/-- A tag in the middle of a line that is wide enough. -/
theorem structuralLines_reflow_wide :
    structuralLines (reflow 10 "# News\nsee #nostr\nnow") = ["# News"] := by
  have unmarked : ∀ line ∈ Text.linesOf "# News\nsee #nostr\nnow", Reflow.IsProse line →
      ∀ words ∈ Reflow.fill 10 (Text.words line), ¬Reflow.BeginsMarked words := by
    decide +kernel
  rw [(structuralLines_reflow 10 "# News\nsee #nostr\nnow").2.mpr (.inr unmarked)]
  decide

/-- Where the line is too narrow, the tag comes to stand in front and becomes a heading. -/
theorem not_structuralLines_reflow_eq :
    ¬∀ width document, structuralLines (reflow width document) = structuralLines document := by
  intro claimed
  have kept := claimed 6 "see #nostr"
  revert kept
  decide +kernel

/-- White space after an asterisk becomes a space, and the line a bullet. -/
example : structuralLines (reflow 80 "*\titem") = ["* item"] := by
  decide +kernel

end NostrCapsule
