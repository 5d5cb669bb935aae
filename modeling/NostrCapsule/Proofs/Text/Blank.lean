import Mathlib.Data.List.Basic
import NostrCapsule.Text.Basic

/-!
Contract: trimming takes off the white space around a text, and nothing else.

Owns: a text as what trimming leaves of it between two texts of white space, and the text that
trimming finds between two such texts.

Does not own: white space inside a text.
-/

namespace NostrCapsule.Text

/-! ## Characters -/

section Characters

variable {front middle back characters : List Char}

theorem trimStartChars_append (blank : ∀ character ∈ front, isBlank character = true)
    (rest : List Char) : trimStartChars (front ++ rest) = trimStartChars rest :=
  List.dropWhile_append_of_pos blank

/-- A text that does not begin with white space loses nothing in front. -/
theorem trimStartChars_of_head (letter : ∀ first ∈ characters.head?, isBlank first = false) :
    trimStartChars characters = characters := by
  cases characters with
  | nil => rfl
  | cons first rest => exact List.dropWhile_cons_of_neg (by simp [letter first rfl])

theorem trimStartChars_of_letters (letters : ∀ character ∈ characters, isBlank character = false) :
    trimStartChars characters = characters :=
  trimStartChars_of_head fun first leads => letters first (List.mem_of_head? leads)

/-- What trimming finds between white space, if it has none itself. -/
theorem trimChars_append (frontBlank : ∀ character ∈ front, isBlank character = true)
    (letters : ∀ character ∈ middle, isBlank character = false)
    (backBlank : ∀ character ∈ back, isBlank character = true) :
    trimChars (front ++ (middle ++ back)) = middle := by
  unfold trimChars
  rw [trimStartChars_append frontBlank]
  cases middle with
  | nil =>
      have blank := trimStartChars_append backBlank []
      rw [List.append_nil] at blank
      rw [List.nil_append, blank]
      rfl
  | cons first rest =>
      have started : trimStartChars (first :: rest ++ back) = first :: rest ++ back := by
        apply trimStartChars_of_head
        rintro leading ⟨⟩
        exact letters first List.mem_cons_self
      have backwards : ∀ character ∈ back.reverse, isBlank character = true := fun _ member =>
        backBlank _ (List.mem_reverse.mp member)
      have others : ∀ character ∈ (first :: rest).reverse, isBlank character = false :=
        fun _ member => letters _ (List.mem_reverse.mp member)
      rw [started, List.reverse_append, trimStartChars_append backwards,
        trimStartChars_of_letters others, List.reverse_reverse]

theorem exists_blank_append_trimStartChars (characters : List Char) :
    ∃ front, (∀ character ∈ front, isBlank character = true) ∧
      characters = front ++ trimStartChars characters :=
  ⟨characters.takeWhile isBlank, List.all_eq_true.mp List.all_takeWhile,
    List.takeWhile_append_dropWhile.symm⟩

end Characters

/-! ## Texts -/

theorem trim_append {front middle back : String} (frontBlank : isAllBlank front = true)
    (letters : ∀ character ∈ middle.toList, isBlank character = false)
    (backBlank : isAllBlank back = true) : trim (front ++ (middle ++ back)) = middle := by
  unfold isAllBlank at frontBlank backBlank
  rw [List.all_eq_true] at frontBlank backBlank
  rw [trim, String.toList_append, String.toList_append,
    trimChars_append frontBlank letters backBlank, String.ofList_toList]

/-- A text is what trimming leaves of it, with white space on either side. -/
theorem exists_blank_around_trim (text : String) :
    ∃ front back, isAllBlank front = true ∧ isAllBlank back = true ∧
      text = front ++ (trim text ++ back) := by
  obtain ⟨front, frontBlank, split⟩ := exists_blank_append_trimStartChars text.toList
  obtain ⟨back, backBlank, splitBack⟩ :=
    exists_blank_append_trimStartChars (trimStartChars text.toList).reverse
  refine ⟨String.ofList front, String.ofList back.reverse, ?_, ?_, ?_⟩
  · rw [isAllBlank, String.toList_ofList, List.all_eq_true]
    exact frontBlank
  · rw [isAllBlank, String.toList_ofList, List.all_eq_true]
    exact fun _ member => backBlank _ (List.mem_reverse.mp member)
  · have inner := congrArg List.reverse splitBack
    rw [List.reverse_reverse, List.reverse_append] at inner
    rw [← String.toList_inj]
    simp only [String.toList_append, String.toList_ofList, trim, trimChars]
    rw [← inner, ← split]

end NostrCapsule.Text
