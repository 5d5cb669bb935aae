import Mathlib.Data.List.Basic
import NostrCapsule.Proofs.Reference.Places
import NostrCapsule.Proofs.Reference.Shape
import NostrCapsule.Text.Basic

/-!
Contract: a character that no reference can hold keeps what stands on its two sides apart.

Looking for a reference goes forward from its scheme and stops at the first character that cannot
belong to it.  So a character that belongs to none is a piece of its own, whatever stands next to
it.

Owns:
- `Separates`, for such characters, among which white space is;
- `pieces_append`: text behind such a character is cut as if it stood alone.

Does not own: characters that end one reference and belong to another.
-/

namespace NostrCapsule

/-! ## Stopping -/

private theorem takeWhile_append_stop {α : Type} {property : α → Bool} {stop : α}
    (stops : property stop = false) (before after : List α) :
    (before ++ stop :: after).takeWhile property = before.takeWhile property := by
  induction before with
  | nil => exact List.takeWhile_cons_of_neg (by simp [stops])
  | cons first rest inductionHypothesis =>
      rw [List.cons_append, List.takeWhile_cons, List.takeWhile_cons, inductionHypothesis]

private theorem dropWhile_append_stop {α : Type} {property : α → Bool} {stop : α}
    (stops : property stop = false) (before after : List α) :
    (before ++ stop :: after).dropWhile property = before.dropWhile property ++ stop :: after := by
  induction before with
  | nil => exact List.dropWhile_cons_of_neg (by simp [stops])
  | cons first rest inductionHypothesis =>
      rw [List.cons_append, List.dropWhile_cons, List.dropWhile_cons, inductionHypothesis]
      split <;> rfl

/-! ## Separating characters -/

namespace Reference

/-- A character that stands in no reference. -/
structure Separates (character : Char) : Prop where
  scheme : character ∉ scheme.toList
  front : ∀ name ∈ names, character ∉ name.toList ++ ['1']
  body : isBody character = false

theorem separates_of_isBlank {character : Char} (blank : Text.isBlank character = true) :
    Separates character := by
  have absent {characters : List Char} (solid : characters.any Text.isBlank = false) :
      character ∉ characters := fun present =>
    List.any_eq_false.mp solid character present blank
  refine ⟨absent (by decide), ?_, ?_⟩
  · have solid : ∀ name ∈ names, (name.toList ++ ['1']).any Text.isBlank = false := by decide
    exact fun name listed => absent (solid name listed)
  · rw [← Bool.not_eq_true, isBody_iff_mem_alphabet]
    exact absent (by decide)

section Separator

variable {separator : Char} (separates : Separates separator) (before after : List Char)

include separates

theorem tokenNamed?_append {name : String} (listed : name ∈ names) :
    tokenNamed? (before ++ separator :: after) name =
      (tokenNamed? before name).map fun found => (found.1, found.2 ++ separator :: after) := by
  unfold tokenNamed?
  dsimp only
  rw [Text.afterPrefix?_append_of_not_mem (separates.front name listed)]
  cases Text.afterPrefix? (name.toList ++ ['1']) before with
  | none => rfl
  | some rest =>
      simp only [Option.map_some, Option.bind_some, takeWhile_append_stop separates.body,
        dropWhile_append_stop separates.body]
      split <;> rfl

theorem referenceAt?_append :
    referenceAt? (before ++ separator :: after) =
      (referenceAt? before).map fun found => (found.1, found.2 ++ separator :: after) := by
  rw [referenceAt?, Text.afterPrefix?_append_of_not_mem separates.scheme, Option.bind_map,
    referenceAt?, Option.map_bind]
  congr 1
  funext rest
  rw [Function.comp_apply, Function.comp_apply, List.map_findSome?, ← List.head?_filterMap,
    ← List.head?_filterMap]
  apply congrArg List.head?
  apply List.filterMap_congr
  exact fun name listed => tokenNamed?_append separates rest after listed

end Separator

/-! ## Pieces -/

theorem pieces_nil : pieces [] = [] := by
  rw [pieces]

theorem pieces_of_referenceAt? {characters token rest : List Char}
    (found : referenceAt? characters = some (token, rest)) :
    pieces characters = .reference (String.ofList token) :: pieces rest := by
  cases characters with
  | nil => cases found
  | cons character later =>
      rw [pieces]
      split
      · next foundHere =>
          rw [found] at foundHere
          cases foundHere
          rfl
      · next nothing =>
          rw [found] at nothing
          cases nothing

theorem pieces_cons_of_none {character : Char} {later : List Char}
    (nothing : referenceAt? (character :: later) = none) :
    pieces (character :: later) = .plain character :: pieces later := by
  rw [pieces]
  split
  · next found =>
      rw [nothing] at found
      cases found
  · rfl

theorem pieces_append_separator {separator : Char} (separates : Separates separator)
    (before after : List Char) :
    pieces (before ++ separator :: after) =
      pieces before ++ .plain separator :: pieces after := by
  have kept := referenceAt?_append separates
  fun_induction pieces before with
  | case1 => exact pieces_cons_of_none (kept [] after)
  | case2 character later token rest found inductionHypothesis =>
      have foundHere := kept (character :: later) after
      rw [found] at foundHere
      rw [pieces_of_referenceAt? foundHere, inductionHypothesis, List.cons_append]
  | case3 character later nothing inductionHypothesis =>
      have nothingHere := kept (character :: later) after
      rw [nothing] at nothingHere
      rw [List.cons_append] at nothingHere ⊢
      rw [pieces_cons_of_none nothingHere, inductionHypothesis, List.cons_append]

/-- Text behind a separating character is cut as if it stood alone. -/
theorem pieces_append {front : List Char}
    (ends : ∀ character ∈ front.getLast?, Separates character) (later : List Char) :
    pieces (front ++ later) = pieces front ++ pieces later := by
  rcases List.eq_nil_or_concat front with rfl | ⟨before, separator, rfl⟩
  · rw [List.nil_append, pieces_nil, List.nil_append]
  · rw [List.concat_eq_append] at ends ⊢
    have separates : Separates separator := ends separator (by simp)
    rw [List.append_assoc, List.singleton_append, pieces_append_separator separates,
      pieces_append_separator separates, pieces_nil, List.append_assoc, List.singleton_append]

end Reference

end NostrCapsule
