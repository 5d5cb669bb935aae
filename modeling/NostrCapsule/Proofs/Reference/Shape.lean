import NostrCapsule.Proofs.Text.Ascii
import NostrCapsule.Reference.Scan

/-!
Contract: what stands where a reference is seen.

A reference is seen exactly where the scheme, a name, the separator and letters stand, and it is
taken to its end: no letter follows it.  No two names can be seen in one place, since each ends at
its separator.

Owns:
- the letters behind the separator, against those of the alphabet;
- `IsToken`, and `referenceAt?_eq_some_iff`.

Does not own: where in a text references are looked for.
-/

namespace NostrCapsule.Reference

/-! ## Letters -/

theorem isBody_iff_mem_alphabet {character : Char} :
    isBody character = true ↔ character ∈ Bech32.alphabet := by
  constructor
  · intro body
    have ascii : character.toNat < 128 := by
      simp only [isBody, Bool.or_eq_true, Bool.and_eq_true, beq_iff_eq, decide_eq_true_eq,
        Char.le_def, UInt32.le_iff_toNat_le] at body
      change character.val.toNat < 128
      rcases body with ((((rfl | body) | rfl) | body) | body) | body
      all_goals first | decide | exact Nat.lt_of_le_of_lt body.2 (by decide)
    exact Text.of_ascii (fun character => isBody character = true → character ∈ Bech32.alphabet)
      (by decide) ascii body
  · have each : Bech32.alphabet.all isBody = true := by decide
    exact List.all_eq_true.mp each character

/-! ## Names -/

/-- The name of a token is what stands before the first separator. -/
theorem takeWhile_of_name {name : String} (listed : name ∈ names) (later : List Char) :
    (name.toList ++ '1' :: later).takeWhile (· != '1') = name.toList := by
  have plain : ∀ name ∈ names, name.toList.all (· != '1') = true := by decide
  rw [List.takeWhile_append_of_pos (List.all_eq_true.mp (plain name listed)),
    List.takeWhile_cons_of_neg (by decide), List.append_nil]

theorem tokenNamed?_eq_none {name other : String} (listed : name ∈ names) (given : other ∈ names)
    (different : other ≠ name) (later : List Char) :
    tokenNamed? (name.toList ++ '1' :: later) other = none := by
  unfold tokenNamed?
  dsimp only
  cases found : Text.afterPrefix? (other.toList ++ ['1']) (name.toList ++ '1' :: later) with
  | none => rfl
  | some rest =>
      have whole := Text.eq_append_of_afterPrefix? found
      rw [List.append_assoc, List.singleton_append] at whole
      have same := congrArg (List.takeWhile (· != '1')) whole
      rw [takeWhile_of_name listed, takeWhile_of_name given] at same
      exact absurd (String.toList_inj.mp same).symm different

theorem tokenNamed?_of_body {name : String} {body rest : List Char} (filled : body ≠ [])
    (inside : ∀ character ∈ body, isBody character = true)
    (stops : ∀ character ∈ rest.head?, isBody character = false) :
    tokenNamed? (name.toList ++ '1' :: body ++ rest) name =
      some (name.toList ++ '1' :: body, rest) := by
  have regrouped : name.toList ++ '1' :: body ++ rest =
      name.toList ++ ['1'] ++ (body ++ rest) := by
    simp
  have ended : rest.takeWhile isBody = [] ∧ rest.dropWhile isBody = rest := by
    cases rest with
    | nil => exact ⟨rfl, rfl⟩
    | cons first later => simp [stops first rfl]
  unfold tokenNamed?
  dsimp only
  rw [regrouped, Text.afterPrefix?_append, Option.bind_some,
    List.takeWhile_append_of_pos inside, List.dropWhile_append_of_pos inside, ended.1, ended.2,
    List.append_nil, if_neg (by simpa using filled), List.append_assoc, List.singleton_append]

/-! ## Tokens -/

/-- A name, the separator, and at least one letter. -/
def IsToken (token : List Char) : Prop :=
  ∃ name ∈ names, ∃ body, token = name.toList ++ '1' :: body ∧ body ≠ [] ∧
    ∀ character ∈ body, isBody character = true

/-- A token that is seen is taken up to the first character that is none of its letters. -/
theorem referenceAt?_eq_some_iff {characters token rest : List Char} :
    referenceAt? characters = some (token, rest) ↔
      characters = scheme.toList ++ (token ++ rest) ∧ IsToken token ∧
        ∀ character ∈ rest.head?, isBody character = false := by
  constructor
  · intro found
    refine ⟨eq_append_of_referenceAt? found, ?_⟩
    obtain ⟨afterScheme, _, found⟩ := Option.bind_eq_some_iff.mp found
    obtain ⟨name, listed, found⟩ := List.exists_of_findSome?_eq_some found
    obtain ⟨afterFront, _, found⟩ := Option.bind_eq_some_iff.mp found
    dsimp only at found
    split at found
    · cases found
    · next filled =>
        cases found
        refine ⟨⟨name, listed, afterFront.takeWhile isBody, ?_, ?_, ?_⟩, ?_⟩
        · rw [List.append_assoc, List.singleton_append]
        · exact fun empty => filled (by rw [empty]; rfl)
        · exact List.all_eq_true.mp List.all_takeWhile
        · intro character first
          have stopped := List.head?_dropWhile_not isBody afterFront
          rw [first] at stopped
          exact stopped
  · rintro ⟨rfl, ⟨name, listed, body, rfl, filled, inside⟩, stops⟩
    rw [referenceAt?, Text.afterPrefix?_append, Option.bind_some, List.findSome?_eq_some_iff]
    obtain ⟨earlier, later, split⟩ := List.append_of_mem listed
    refine ⟨earlier, name, later, split, tokenNamed?_of_body filled inside stops, ?_⟩
    intro other present
    have distinct : (earlier ++ name :: later).Nodup := split ▸ (by decide : names.Nodup)
    have different : other ≠ name :=
      (List.nodup_append.mp distinct).2.2 other present name List.mem_cons_self
    have given : other ∈ names := split ▸ List.mem_append_left _ present
    rw [List.append_assoc, List.cons_append]
    exact tokenNamed?_eq_none listed given different _

end NostrCapsule.Reference
