/-!
Contract: a computation that may refuse, taken apart at its steps.

Owns: what a chain of two steps gives when the first one is known, what is known of both when the
chain succeeds, results as optional values, and lists that are read item by item.

Does not own: any cause of a refusal.
-/

namespace NostrCapsule.Refusal

variable {ε α β : Type}

@[simp] theorem ok_bind (value : α) (next : α → Except ε β) :
    (Except.ok value >>= next) = next value := rfl

@[simp] theorem error_bind (refusal : ε) (next : α → Except ε β) :
    (Except.error refusal >>= next) = .error refusal := rfl

/-- A chain succeeds exactly if both of its steps do. -/
theorem bind_eq_ok_iff {first : Except ε α} {next : α → Except ε β} {value : β} :
    (first >>= next) = .ok value ↔ ∃ middle, first = .ok middle ∧ next middle = .ok value := by
  cases first with
  | error refusal => simp
  | ok middle => simp

theorem map_eq_ok_iff {first : Except ε α} {change : α → β} {value : β} :
    first.map change = .ok value ↔ ∃ middle, first = .ok middle ∧ change middle = value := by
  cases first with
  | error refusal => simp [Except.map]
  | ok middle => simp [Except.map]

theorem map_eq_error_iff {first : Except ε α} {change : α → β} {refusal : ε} :
    first.map change = .error refusal ↔ first = .error refusal := by
  cases first with
  | error other => simp [Except.map]
  | ok middle => simp [Except.map]

theorem toOption_eq_some_iff {result : Except ε α} {value : α} :
    result.toOption = some value ↔ result = .ok value := by
  cases result with
  | error refusal => simp [Except.toOption]
  | ok other => simp [Except.toOption]

theorem isSome_toOption (result : Except ε α) : result.toOption.isSome = result.isOk := by
  cases result <;> rfl

/-- If items are read back as what they are written as, so are lists of them. -/
theorem mapM_eq_some_iff {read : α → Option β} {write : β → α}
    (inverse : ∀ {item value}, read item = some value ↔ item = write value) {items : List α}
    {values : List β} : items.mapM read = some values ↔ items = values.map write := by
  induction items generalizing values with
  | nil => cases values <;> simp
  | cons item rest inductionHypothesis =>
      rw [List.mapM_cons]
      cases values with
      | nil => simp [Option.bind_eq_some_iff]
      | cons value others =>
          simp [Option.bind_eq_some_iff, inverse, inductionHypothesis]

end NostrCapsule.Refusal
