import NostrCapsule.Proofs.Text.Blank
import NostrCapsule.Proofs.Text.OneLine
import NostrCapsule.Proofs.Text.Words

/-!
Contract: a text with its white space collapsed is the words of the text with single spaces.

Owns:
- `IsSingleSpaced`, which holds of every start of a text that it holds of;
- `IsCollapsed`, and `isCollapsed_iff`, by which a text has one collapsed form.

Does not own: the length to which a text is cut.
-/

namespace NostrCapsule.Text

structure IsSpaced (characters : List Char) : Prop where
  spaces : ∀ character ∈ characters, isBlank character = true → character = ' '
  apart : ¬[' ', ' '] <:+: characters

/-- White space is single spaces, and there is none in front. -/
structure IsSingleSpaced (text : String) : Prop extends IsSpaced text.toList where
  front : text.toList.head? ≠ some ' '

namespace IsSpaced

variable {characters : List Char}

theorem of_infix {part : List Char} (spaced : IsSpaced characters) (inside : part <:+: characters) :
    IsSpaced part where
  spaces character member := spaced.spaces character (inside.subset member)
  apart pair := spaced.apart (pair.trans inside)

theorem of_letters (letters : ∀ character ∈ characters, isBlank character = false) :
    IsSpaced characters where
  spaces character member blank := by
    rw [letters character member] at blank
    cases blank
  apart pair := by
    have space := letters ' ' (pair.subset List.mem_cons_self)
    exact absurd space (by decide)

/-- Behind a space there is a letter or nothing. -/
theorem not_blank_behind_space {rest : List Char} (spaced : IsSpaced (' ' :: rest))
    {character : Char} (first : rest.head? = some character) : isBlank character = false := by
  rw [← Bool.not_eq_true]
  intro blank
  obtain ⟨later, rfl⟩ := List.head?_eq_some_iff.mp first
  have space := spaced.spaces character (by simp) blank
  subst space
  exact spaced.apart ⟨[], later, rfl⟩

/-- A word, a space and a text that begins with a word make up a text with its spaces apart. -/
theorem word_append {word rest : List Char}
    (letters : ∀ character ∈ word, isBlank character = false) (spaced : IsSpaced rest)
    (front : rest.head? ≠ some ' ') : IsSpaced (word ++ ' ' :: rest) := by
  constructor
  · intro character member blank
    rcases List.mem_append.mp member with inWord | behind
    · rw [letters character inWord] at blank
      cases blank
    · rcases List.mem_cons.mp behind with space | later
      · exact space
      · exact spaced.spaces character later blank
  · induction word with
    | nil =>
        rw [List.nil_append, List.infix_cons_iff, not_or]
        refine ⟨?_, spaced.apart⟩
        rintro ⟨later, same⟩
        rw [← (List.cons.inj same).2] at front
        exact front rfl
    | cons first others inductionHypothesis =>
        rw [List.forall_mem_cons] at letters
        rw [List.cons_append, List.infix_cons_iff, not_or]
        refine ⟨?_, inductionHypothesis letters.2⟩
        rintro ⟨later, same⟩
        rw [← (List.cons.inj same).1] at letters
        exact absurd letters.1 (by decide)

end IsSpaced

namespace IsSingleSpaced

variable {text : String}

theorem isOneLine (single : IsSingleSpaced text) : IsOneLine text := by
  intro present
  exact absurd (single.spaces '\n' present rfl) (by decide)

theorem take (single : IsSingleSpaced text) (limit : Nat) :
    IsSingleSpaced (String.ofList (text.toList.take limit)) := by
  have start := List.take_prefix limit text.toList
  refine ⟨?_, ?_⟩
  · rw [String.toList_ofList]
    exact single.toIsSpaced.of_infix start.isInfix
  · rw [String.toList_ofList, List.head?_take]
    split
    · simp
    · exact single.front

end IsSingleSpaced

/-! ## Collapsed texts -/

/-- A text has the words of another one, single spaces between them and none at either end. -/
structure IsCollapsed (text collapsed : String) : Prop where
  words : words collapsed = words text
  single : IsSingleSpaced collapsed
  back : collapsed.toList.getLast? ≠ some ' '

/-- Single spaces between words leave none at either end. -/
theorem single_back_intercalate {parts : List String}
    (letters : ∀ part ∈ parts,
      part.toList ≠ [] ∧ ∀ character ∈ part.toList, isBlank character = false) :
    IsSingleSpaced (" ".intercalate parts) ∧
      (" ".intercalate parts).toList.getLast? ≠ some ' ' := by
  have ends {part : String} (plain : ∀ character ∈ part.toList, isBlank character = false) :
      part.toList.head? ≠ some ' ' ∧ part.toList.getLast? ≠ some ' ' :=
    ⟨fun first => absurd (plain ' ' (List.mem_of_head? first)) (by decide),
      fun last => absurd (plain ' ' (List.mem_of_getLast? last)) (by decide)⟩
  induction parts with
  | nil => exact ⟨⟨⟨by simp, by simp⟩, by simp⟩, by simp⟩
  | cons part rest inductionHypothesis =>
      rw [List.forall_mem_cons] at letters
      obtain ⟨⟨nonempty, plain⟩, others⟩ := letters
      cases rest with
      | nil =>
          rw [String.intercalate_singleton]
          exact ⟨⟨.of_letters plain, (ends plain).1⟩, (ends plain).2⟩
      | cons second later =>
          obtain ⟨single, back⟩ := inductionHypothesis others
          have joined : (" ".intercalate (part :: second :: later)).toList =
              part.toList ++ ' ' :: (" ".intercalate (second :: later)).toList := by
            rw [String.intercalate_cons_cons, String.toList_append, String.toList_append,
              List.append_assoc]
            rfl
          refine ⟨⟨?_, ?_⟩, ?_⟩
          · rw [joined]
            exact .word_append plain single.toIsSpaced single.front
          · rw [joined, List.head?_append_of_ne_nil _ nonempty]
            exact (ends plain).1
          · have filled : (" ".intercalate (second :: later)).toList ≠ [] := by
              intro empty
              have read := words_intercalate_of_letters others
              rw [String.toList_eq_nil_iff.mp empty, words_eq_nil_iff.mpr rfl] at read
              cases read
            rw [joined, List.getLast?_append_cons, List.getLast?_cons_of_ne_nil filled]
            exact back

/-- A text with its white space collapsed has a form of its own. -/
theorem isCollapsed_collapse (text : String) : IsCollapsed text (collapse text) where
  words := words_intercalate_of_letters fun _ => mem_words
  single := (single_back_intercalate fun _ => mem_words).1
  back := (single_back_intercalate fun _ => mem_words).2

theorem getLast?_ne_of_suffix {characters part : List Char}
    (back : characters.getLast? ≠ some ' ') (ending : part <:+ characters) :
    part.getLast? ≠ some ' ' := by
  rintro last
  obtain ⟨front, rfl⟩ := ending
  apply back
  rw [List.getLast?_append, last]
  rfl

/-- The words of a text with its spaces apart and none at the end, joined by spaces, are the text
without the space in front. -/
theorem intercalate_wordChars {characters : List Char} (spaced : IsSpaced characters)
    (back : characters.getLast? ≠ some ' ') :
    [' '].intercalate (wordChars characters) = trimStartChars characters := by
  induction characters using wordChars_induction with
  | nil => simp [wordChars_nil, trimStartChars]
  | blank character rest kind inductionHypothesis =>
      have ending := List.suffix_cons character rest
      rw [wordChars_cons_blank kind, trimStartChars, List.dropWhile_cons_of_pos kind]
      exact inductionHypothesis (spaced.of_infix ending.isInfix) (getLast?_ne_of_suffix back ending)
  | letter character rest kind inductionHypothesis =>
      have whole : rest.takeWhile (!isBlank ·) ++ rest.dropWhile (!isBlank ·) = rest :=
        List.takeWhile_append_dropWhile
      have trimmed : trimStartChars (character :: rest) = character :: rest :=
        trimStartChars_of_head (by rintro first ⟨⟩; exact kind)
      have ending : rest.dropWhile (!isBlank ·) <:+ character :: rest :=
        (List.dropWhile_suffix _).trans (List.suffix_cons character rest)
      have laterSpaced := spaced.of_infix ending.isInfix
      have laterBack := getLast?_ne_of_suffix back ending
      have joined := inductionHypothesis laterSpaced laterBack
      rw [wordChars_cons_letter kind, trimmed]
      cases after : rest.dropWhile (!isBlank ·) with
      | nil =>
          rw [after, List.append_nil] at whole
          rw [wordChars_nil, whole]
          simp
      | cons separator later =>
          have blank : isBlank separator = true := isBlank_behind_word after
          rw [after] at whole laterSpaced laterBack joined
          have space : separator = ' ' :=
            laterSpaced.spaces separator List.mem_cons_self blank
          subst space
          have started : trimStartChars (' ' :: later) = later := by
            rw [trimStartChars, List.dropWhile_cons_of_pos blank]
            exact trimStartChars_of_head fun _ => laterSpaced.not_blank_behind_space
          rw [started] at joined
          have others : wordChars (' ' :: later) ≠ [] := by
            intro none
            rw [none] at joined
            subst joined
            exact laterBack rfl
          calc
            _ = character :: (rest.takeWhile (!isBlank ·) ++ ' ' :: later) := by
              rw [List.intercalate_cons_of_ne_nil others, joined, List.append_assoc]
              rfl
            _ = character :: rest := congrArg (character :: ·) whole

/-- A text has one collapsed form. -/
theorem isCollapsed_iff {text collapsed : String} :
    IsCollapsed text collapsed ↔ collapsed = collapse text := by
  constructor
  · rintro ⟨same, single, back⟩
    have trimmed : trimStartChars collapsed.toList = collapsed.toList := by
      apply trimStartChars_of_head
      intro first leads
      rw [← Bool.not_eq_true]
      intro blank
      have space := single.spaces first (List.mem_of_head? leads) blank
      exact single.front (space ▸ leads)
    have characters : (words collapsed).map String.toList = wordChars collapsed.toList := by
      simp [words, Function.comp_def]
    apply String.toList_inj.mp
    calc
      collapsed.toList = [' '].intercalate (wordChars collapsed.toList) := by
        rw [intercalate_wordChars single.toIsSpaced back, trimmed]
      _ = (collapse text).toList := by
        rw [collapse, ← same, String.toList_intercalate, characters]
        rfl
  · rintro rfl
    exact isCollapsed_collapse text

end NostrCapsule.Text
