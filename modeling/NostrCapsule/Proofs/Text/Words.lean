import Mathlib.Data.List.Basic
import Mathlib.Data.List.Flatten
import Mathlib.Data.List.TakeWhile
import NostrCapsule.Text.Basic

/-!
Contract: words are read off a text from the left.

Owns:
- the first word of a text and the rest after it, and what words are made of;
- the words of texts that white space joins, among which the lines of a text are.

Does not own: how words are put on lines.
-/

namespace NostrCapsule.Text

theorem wordChars_nil : wordChars [] = [] := by
  simp [wordChars]

theorem wordChars_cons_blank {character : Char} (blank : isBlank character = true)
    (rest : List Char) : wordChars (character :: rest) = wordChars rest := by
  simp [wordChars, List.splitOnP_cons_eq_if_modifyHead, blank]

theorem isBlank_behind_word {characters later : List Char} {separator : Char}
    (behind : characters.dropWhile (!isBlank ·) = separator :: later) :
    isBlank separator = true := by
  have first := List.head?_dropWhile_not (!isBlank ·) characters
  rw [behind] at first
  simpa using first

/-- A text that begins with a letter begins with a word, which goes on to the next white space. -/
theorem wordChars_cons_letter {character : Char} (letter : isBlank character = false)
    (rest : List Char) :
    wordChars (character :: rest) =
      (character :: rest.takeWhile (!isBlank ·)) :: wordChars (rest.dropWhile (!isBlank ·)) := by
  have letters : ∀ other ∈ character :: rest.takeWhile (!isBlank ·), isBlank other = false := by
    intro other member
    rcases List.mem_cons.mp member with rfl | inside
    · exact letter
    · simpa using List.mem_takeWhile_imp inside
  have whole : character :: rest =
      character :: rest.takeWhile (!isBlank ·) ++ rest.dropWhile (!isBlank ·) := by
    rw [List.cons_append, List.takeWhile_append_dropWhile]
  cases after : rest.dropWhile (!isBlank ·) with
  | nil =>
      rw [after, List.append_nil] at whole
      rw [whole, wordChars_nil, wordChars, List.splitOnP_eq_singleton letters]
      rfl
  | cons separator later =>
      have blank : isBlank separator = true := isBlank_behind_word after
      rw [after] at whole
      rw [whole, wordChars_cons_blank blank, wordChars, wordChars,
        List.splitOnP_append_cons_of_forall_mem letters separator blank]
      rfl

/-- Reading from the left, a text ends, goes on after a blank, or goes on after a word. -/
theorem wordChars_induction {motive : List Char → Prop} (nil : motive [])
    (blank : ∀ character rest, isBlank character = true → motive rest →
      motive (character :: rest))
    (letter : ∀ character rest, isBlank character = false →
      motive (rest.dropWhile (!isBlank ·)) → motive (character :: rest))
    (characters : List Char) : motive characters := by
  induction size : characters.length using Nat.strong_induction_on generalizing characters with
  | _ size inductionHypothesis =>
      cases characters with
      | nil => exact nil
      | cons character rest =>
          subst size
          cases kind : isBlank character with
          | true => exact blank character rest kind (inductionHypothesis _ (by simp) rest rfl)
          | false =>
              have shorter := (List.dropWhile_sublist (!isBlank ·) (l := rest)).length_le
              apply letter character rest kind
              exact inductionHypothesis _ (by rw [List.length_cons]; omega) _ rfl

theorem mem_wordChars {characters word : List Char} (member : word ∈ wordChars characters) :
    word ≠ [] ∧ ∀ character ∈ word, isBlank character = false := by
  induction characters using wordChars_induction with
  | nil =>
      rw [wordChars_nil] at member
      cases member
  | blank character rest kind inductionHypothesis =>
      rw [wordChars_cons_blank kind] at member
      exact inductionHypothesis member
  | letter character rest kind inductionHypothesis =>
      rw [wordChars_cons_letter kind] at member
      rcases List.mem_cons.mp member with rfl | later
      · refine ⟨List.cons_ne_nil _ _, ?_⟩
        intro other inside
        rcases List.mem_cons.mp inside with rfl | following
        · exact kind
        · simpa using List.mem_takeWhile_imp following
      · exact inductionHypothesis later

theorem wordChars_eq_nil_iff {characters : List Char} :
    wordChars characters = [] ↔ characters.all isBlank = true := by
  induction characters using wordChars_induction with
  | nil => simp [wordChars_nil]
  | blank character rest kind inductionHypothesis =>
      rw [wordChars_cons_blank kind, inductionHypothesis, List.all_cons, kind, Bool.true_and]
  | letter character rest kind inductionHypothesis =>
      rw [wordChars_cons_letter kind, List.all_cons, kind, Bool.false_and]
      simp

/-! ## Words of texts -/

theorem mem_words {text word : String} (member : word ∈ words text) :
    word.toList ≠ [] ∧ ∀ character ∈ word.toList, isBlank character = false := by
  obtain ⟨characters, inside, rfl⟩ := List.mem_map.mp member
  rw [String.toList_ofList]
  exact mem_wordChars inside

theorem words_eq_nil_iff {text : String} : words text = [] ↔ isAllBlank text = true := by
  rw [words, List.map_eq_nil_iff, wordChars_eq_nil_iff, isAllBlank]

theorem words_of_letters {word : String} (nonempty : word.toList ≠ [])
    (letters : ∀ character ∈ word.toList, isBlank character = false) : words word = [word] := by
  rw [words, wordChars, List.splitOnP_eq_singleton letters,
    List.filter_cons_of_pos (by simpa using nonempty), List.filter_nil, List.map_singleton,
    String.ofList_toList]

/-! ## Words of joined texts -/

theorem wordChars_append_cons {separator : Char} (blank : isBlank separator = true)
    (front back : List Char) :
    wordChars (front ++ separator :: back) = wordChars front ++ wordChars back := by
  rw [wordChars, List.splitOnP_append_cons _ _ blank, List.filter_append]
  rfl

/-- White space between texts keeps their words apart. -/
theorem words_intercalate {separator : String} {mark : Char} (spelled : separator.toList = [mark])
    (blank : isBlank mark = true) (parts : List String) :
    words (separator.intercalate parts) = parts.flatMap words := by
  induction parts with
  | nil => simp [words, wordChars_nil]
  | cons part others inductionHypothesis =>
      cases others with
      | nil => simp
      | cons second later =>
          rw [List.flatMap_cons, ← inductionHypothesis, String.intercalate_cons_cons, words,
            String.toList_append, String.toList_append, spelled, List.append_assoc,
            List.singleton_append, wordChars_append_cons blank, List.map_append]
          rfl

/-- Words with single spaces between them are read as these words. -/
theorem words_intercalate_of_letters {parts : List String}
    (letters : ∀ part ∈ parts,
      part.toList ≠ [] ∧ ∀ character ∈ part.toList, isBlank character = false) :
    words (" ".intercalate parts) = parts := by
  rw [words_intercalate (rfl : " ".toList = [' ']) rfl]
  calc
    parts.flatMap words = parts.flatMap fun part => [part] :=
      List.flatMap_congr fun part member =>
        words_of_letters (letters part member).1 (letters part member).2
    _ = parts := List.flatMap_singleton' parts

/-- A text has the words of its lines. -/
theorem flatMap_words_linesOf (text : String) : (linesOf text).flatMap words = words text := by
  have joined := words_intercalate (rfl : "\n".toList = ['\n']) rfl (linesOf text)
  rw [← joined]
  exact congrArg words (unlines_linesOf text)

end NostrCapsule.Text
