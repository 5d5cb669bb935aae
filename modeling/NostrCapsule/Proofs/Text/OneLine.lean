import NostrCapsule.Text.Basic

/-!
Contract: texts without a line feed, and how they stand in larger texts.

Owns:
- `IsOneLine`, for texts that are put together, for parts of them and for numbers;
- the lines of joined lines.

Does not own: the entries of pages.
-/

namespace NostrCapsule.Text

def IsOneLine (text : String) : Prop :=
  '\n' ∉ text.toList

instance (text : String) : Decidable (IsOneLine text) :=
  inferInstanceAs (Decidable ('\n' ∉ text.toList))

@[simp] theorem isOneLine_append {left right : String} :
    IsOneLine (left ++ right) ↔ IsOneLine left ∧ IsOneLine right := by
  simp [IsOneLine, not_or]

@[simp] theorem isOneLine_ofList {characters : List Char} :
    IsOneLine (String.ofList characters) ↔ '\n' ∉ characters := by
  rw [IsOneLine, String.toList_ofList]

/-- Joined texts have no line feed exactly if none of them has one. -/
theorem isOneLine_intercalate {separator : String} (between : IsOneLine separator)
    {texts : List String} :
    IsOneLine (separator.intercalate texts) ↔ ∀ text ∈ texts, IsOneLine text := by
  induction texts with
  | nil => simp [IsOneLine]
  | cons first rest inductionHypothesis =>
      cases rest with
      | nil => simp
      | cons second later =>
          rw [String.intercalate_cons_cons, isOneLine_append, isOneLine_append,
            inductionHypothesis, List.forall_mem_cons]
          simp [between]

theorem isOneLine_of_not_blank {text : String}
    (letters : ∀ character ∈ text.toList, isBlank character = false) : IsOneLine text := by
  intro present
  exact absurd (letters '\n' present) (by decide)

theorem isOneLine_repeated (count : Nat) {text : String} (whole : IsOneLine text) :
    IsOneLine (repeated count text) := by
  intro present
  rw [repeated_eq_join, String.toList_join] at present
  obtain ⟨copy, member, inside⟩ := List.mem_flatMap.mp present
  rw [List.eq_of_mem_replicate member] at inside
  exact whole inside

/-! ## Lines -/

/-- Joined lines are cut into the same lines again. -/
theorem linesOf_unlines {lines : List String} (nonempty : lines ≠ [])
    (each : ∀ line ∈ lines, IsOneLine line) : linesOf (unlines lines) = lines := by
  have characters : (unlines lines).toList = ['\n'].intercalate (lines.map String.toList) :=
    String.toList_intercalate
  rw [linesOf, characters, List.splitOn_intercalate]
  · simp [Function.comp_def]
  · intro line member
    obtain ⟨text, inside, rfl⟩ := List.mem_map.mp member
    exact each text inside
  · simpa using nonempty

theorem linesOf_ne_nil (text : String) : linesOf text ≠ [] := by
  simp [linesOf, List.splitOn_ne_nil]

theorem not_mem_of_mem_splitOn {separator : Char} {characters piece : List Char}
    (member : piece ∈ characters.splitOn separator) : separator ∉ piece := by
  induction characters generalizing piece with
  | nil =>
      rw [List.splitOn_nil, List.mem_singleton] at member
      simp [member]
  | cons character rest inductionHypothesis =>
      rw [List.splitOn_cons_eq_if_modifyHead] at member
      by_cases cut : character = separator
      · rw [if_pos (beq_iff_eq.mpr cut)] at member
        rcases List.mem_cons.mp member with rfl | later
        · simp
        · exact inductionHypothesis later
      · rw [if_neg (by simpa using cut)] at member
        obtain ⟨first, others, pieces⟩ :=
          List.exists_cons_of_ne_nil (List.splitOn_ne_nil separator rest)
        rw [pieces, List.modifyHead_cons] at member
        rcases List.mem_cons.mp member with rfl | later
        · have clean : separator ∉ first := inductionHypothesis (by simp [pieces])
          simp [clean, Ne.symm cut]
        · exact inductionHypothesis (by simp [pieces, later])

theorem isOneLine_of_mem_linesOf {text line : String} (member : line ∈ linesOf text) :
    IsOneLine line := by
  obtain ⟨characters, piece, rfl⟩ := List.mem_map.mp member
  rw [isOneLine_ofList]
  exact not_mem_of_mem_splitOn piece

/-! ## Parts of a text -/

theorem trimChars_subset (characters : List Char) : trimChars characters ⊆ characters := by
  intro character member
  unfold trimChars trimStartChars at member
  rw [List.mem_reverse] at member
  have inner := List.dropWhile_subset _ member
  rw [List.mem_reverse] at inner
  exact List.dropWhile_subset _ inner

theorem isOneLine_trim {text : String} (whole : IsOneLine text) : IsOneLine (trim text) := by
  rw [trim, isOneLine_ofList]
  exact fun present => whole (trimChars_subset _ present)

theorem isOneLine_of_trimmed? {text trimmed : String} (whole : IsOneLine text)
    (found : trimmed? text = some trimmed) : IsOneLine trimmed := by
  unfold trimmed? at found
  split at found
  · cases found
  · cases found
    exact isOneLine_trim whole

theorem isOneLine_of_firstLine? {text line : String} (found : firstLine? text = some line) :
    IsOneLine line := by
  obtain ⟨piece, member, trimmed⟩ := List.exists_of_findSome?_eq_some found
  exact isOneLine_of_trimmed? (isOneLine_of_mem_linesOf member) trimmed

theorem isOneLine_truncate (limit : Nat) {marker text : String} (mark : IsOneLine marker)
    (whole : IsOneLine text) : IsOneLine (truncate limit marker text) := by
  unfold truncate
  split
  · exact whole
  · rw [isOneLine_append, isOneLine_ofList]
    exact ⟨fun present => whole (List.mem_of_mem_take present), mark⟩

theorem isOneLine_shortId {id : String} (whole : IsOneLine id) : IsOneLine (shortId id) := by
  rw [shortId, isOneLine_append, isOneLine_ofList]
  exact ⟨fun present => whole (List.mem_of_mem_take present), by decide⟩

theorem isOneLine_shortKey {key : String} (whole : IsOneLine key) : IsOneLine (shortKey key) := by
  unfold shortKey
  split
  · exact whole
  · simp only [isOneLine_append, isOneLine_ofList]
    exact ⟨⟨fun present => whole (List.mem_of_mem_take present), by decide⟩,
      fun present => whole (List.mem_of_mem_drop present)⟩

/-! ## Numbers -/

theorem isOneLine_toString_nat (value : Nat) : IsOneLine (toString value) := by
  rw [Nat.toString_eq_ofList_toDigits, isOneLine_ofList]
  intro present
  have digit := Nat.isDigit_of_mem_toDigits (by decide) (by decide) present
  exact absurd digit (by decide)

theorem isOneLine_toString_int (value : Int) : IsOneLine (toString value) := by
  cases value with
  | ofNat size => exact isOneLine_toString_nat size
  | negSucc size =>
      show IsOneLine ("-" ++ toString (size + 1))
      rw [isOneLine_append]
      exact ⟨by decide, isOneLine_toString_nat _⟩

end NostrCapsule.Text
