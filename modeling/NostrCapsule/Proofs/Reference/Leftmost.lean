import Mathlib.Data.List.Pairwise
import Mathlib.Data.List.Nodup
import NostrCapsule.Proofs.Reference.Shape
import NostrCapsule.Proofs.Reference.Separation

/-!
Contract: the references that a scan finds are the leftmost ones that do not overlap.

Text is cut from left to right.  A place at which nothing is found is passed with one character, so
that no later shape is jumped over; a reference that is found is taken whole, so that a shape can
only be missed if it begins inside one.

Owns:
- `ReferenceMatch.StandsIn` and `Reference.StartsAt`, where the shape of a reference stands;
- `Reference.IsLeftmost`, that a list of references holds them as they come, and that a text has
  one such list;
- `scan_leftmost`.

Does not own: what becomes of a reference that is found.
-/

namespace NostrCapsule

/-- A reference stands in a text: the scheme and its token, as far as letters go. -/
def ReferenceMatch.StandsIn (text : String) (found : ReferenceMatch) : Prop :=
  ∃ front back, text = front ++ (found.spelling ++ back) ∧
    found.start = front.utf8ByteSize ∧
    found.stop = (front ++ found.spelling).utf8ByteSize ∧
    Reference.IsToken found.token.toList ∧
    ∀ character ∈ back.toList.head?, Reference.isBody character = false

namespace Reference

/-- The scheme and a token stand at a place. -/
def StartsAt (text : String) (place : Nat) : Prop :=
  ∃ front token back, text = front ++ (scheme ++ token ++ back) ∧ IsToken token.toList ∧
    place = front.utf8ByteSize

/-- References of a text, one after the other, such that each place where one starts is the start of
one of them or lies inside one. -/
structure IsLeftmost (text : String) (found : List ReferenceMatch) : Prop where
  shaped : ∀ each ∈ found, each.StandsIn text
  ordered : found.Pairwise fun earlier later => earlier.stop ≤ later.start
  complete : ∀ place, StartsAt text place →
    ∃ each ∈ found, each.start = place ∨ (each.start < place ∧ place < each.stop)

/-! ## Places where the shape stands -/

theorem IsToken.append {token more : List Char} (shaped : IsToken token)
    (inside : ∀ character ∈ more, isBody character = true) : IsToken (token ++ more) := by
  obtain ⟨name, listed, body, rfl, filled, each⟩ := shaped
  refine ⟨name, listed, body ++ more, by simp, by simp [filled], ?_⟩
  intro character member
  exact (List.mem_append.mp member).elim (each character) (inside character)

/-- Where the scheme and a token stand, a reference is seen. -/
theorem exists_referenceAt?_of_isToken {token : List Char} (shaped : IsToken token)
    (later : List Char) :
    ∃ found, referenceAt? (scheme.toList ++ (token ++ later)) = some found := by
  refine ⟨(token ++ later.takeWhile isBody, later.dropWhile isBody),
    referenceAt?_eq_some_iff.mpr ⟨?_, ?_, ?_⟩⟩
  · rw [List.append_assoc, List.takeWhile_append_dropWhile]
  · exact shaped.append (List.all_eq_true.mp List.all_takeWhile)
  · intro character first
    have stopped := List.head?_dropWhile_not isBody later
    rw [first] at stopped
    exact stopped

/-- Two cuts of a text at one place are the same. -/
theorem append_inj_of_utf8ByteSize_eq {front back other rest : String}
    (same : front ++ back = other ++ rest) (size : front.utf8ByteSize = other.utf8ByteSize) :
    front = other ∧ back = rest := by
  have octets := congrArg Text.octetsOf same
  rw [Text.octetsOf_append, Text.octetsOf_append] at octets
  have parts := List.append_inj octets size
  exact ⟨Text.octetsOf_injective parts.1, Text.octetsOf_injective parts.2⟩

end Reference

namespace ReferenceMatch.StandsIn

variable {text : String} {found other : ReferenceMatch}

theorem start_lt_stop (stands : found.StandsIn text) : found.start < found.stop := by
  obtain ⟨front, back, -, starts, stops, -⟩ := stands
  have long : scheme.utf8ByteSize = 6 := by decide
  rw [starts, stops, spelling, String.utf8ByteSize_append, String.utf8ByteSize_append]
  omega

theorem startsAt (stands : found.StandsIn text) : Reference.StartsAt text found.start := by
  obtain ⟨front, back, whole, starts, -, shaped, -⟩ := stands
  exact ⟨front, found.token, back, whole, shaped, starts⟩

theorem isBoundary (stands : found.StandsIn text) :
    Text.IsBoundary text found.start ∧ Text.IsBoundary text found.stop := by
  obtain ⟨front, back, rfl, starts, stops, -⟩ := stands
  exact ⟨Text.isBoundary_iff.mpr ⟨front, found.spelling ++ back, rfl, starts⟩,
    Text.isBoundary_iff.mpr ⟨front ++ found.spelling, back, (String.append_assoc ..).symm, stops⟩⟩

/-- At one place stands one reference, since it goes as far as it can. -/
theorem unique (stands : found.StandsIn text) (standsToo : other.StandsIn text)
    (same : found.start = other.start) : found = other := by
  obtain ⟨front, back, whole, starts, stops, shaped, ends⟩ := stands
  obtain ⟨before, after, wholeToo, startsToo, stopsToo, shapedToo, endsToo⟩ := standsToo
  obtain ⟨rfl, behind⟩ :=
    Reference.append_inj_of_utf8ByteSize_eq (whole.symm.trans wholeToo)
      (starts.symm.trans (same.trans startsToo))
  have seen := Reference.referenceAt?_eq_some_iff.mpr ⟨rfl, shaped, ends⟩
  have seenToo := Reference.referenceAt?_eq_some_iff.mpr ⟨rfl, shapedToo, endsToo⟩
  have characters := congrArg String.toList behind
  simp only [spelling, String.toList_append, List.append_assoc] at characters
  rw [characters, seenToo] at seen
  have token : found.token = other.token :=
    String.toList_inj.mp (congrArg Prod.fst (Option.some.inj seen)).symm
  cases found
  cases other
  simp only [spelling] at starts startsToo stops stopsToo token
  rw [starts, startsToo, stops, stopsToo, token]

end ReferenceMatch.StandsIn

namespace Reference

/-! ## What a scan finds -/

theorem standsIn_of_mem_matchesFrom {characters : List Char} {found : ReferenceMatch}
    (front : String) (member : found ∈ matchesFrom front.utf8ByteSize (pieces characters)) :
    found.StandsIn (front ++ String.ofList characters) := by
  fun_induction pieces characters generalizing front with
  | case1 => cases member
  | case2 character later token rest seen inductionHypothesis =>
      obtain ⟨whole, shaped, ends⟩ := referenceAt?_eq_some_iff.mp seen
      have spelled : String.ofList (character :: later) =
          scheme ++ String.ofList token ++ String.ofList rest := by
        rw [whole, String.ofList_append, String.ofList_append, String.ofList_toList,
          String.append_assoc]
      rw [spelled]
      rcases List.mem_cons.mp member with rfl | member
      · refine ⟨front, String.ofList rest, rfl, rfl, (String.utf8ByteSize_append ..).symm, ?_, ?_⟩
        · rwa [String.toList_ofList]
        · rwa [String.toList_ofList]
      · rw [← String.append_assoc]
        apply inductionHypothesis
        rwa [String.utf8ByteSize_append]
  | case3 character later unseen inductionHypothesis =>
      rw [String.ofList_cons, ← String.append_assoc]
      apply inductionHypothesis
      rwa [String.utf8ByteSize_append, String.utf8ByteSize_singleton]

theorem le_start_of_mem_matchesFrom {offset : Nat} {pieces : List Piece} {found : ReferenceMatch}
    (member : found ∈ matchesFrom offset pieces) : offset ≤ found.start := by
  induction pieces generalizing offset with
  | nil => cases member
  | cons piece rest inductionHypothesis =>
      cases piece with
      | plain character => exact Nat.le_trans (Nat.le_add_right _ _) (inductionHypothesis member)
      | reference token =>
          rcases List.mem_cons.mp member with rfl | later
          · exact Nat.le_refl _
          · exact Nat.le_trans (Nat.le_add_right _ _) (inductionHypothesis later)

theorem pairwise_matchesFrom (offset : Nat) (pieces : List Piece) :
    (matchesFrom offset pieces).Pairwise fun earlier later => earlier.stop ≤ later.start := by
  induction pieces generalizing offset with
  | nil => exact List.Pairwise.nil
  | cons piece rest inductionHypothesis =>
      cases piece with
      | plain character => exact inductionHypothesis _
      | reference token =>
          exact List.Pairwise.cons (fun later member => le_start_of_mem_matchesFrom member)
            (inductionHypothesis _)

/-- One of two cuts comes first: at the end of its front or later the other one is made, or
before. -/
theorem append_eq_append_cases {α : Type} {front back other rest : List α}
    (same : front ++ back = other ++ rest) :
    (∃ beyond, other = front ++ beyond ∧ back = beyond ++ rest) ∨
      ∃ inside, inside ≠ [] ∧ front = other ++ inside := by
  rcases List.append_eq_append_iff.mp same with behind | ⟨inside, taken, left⟩
  · exact .inl behind
  · by_cases none : inside = []
    · subst none
      exact .inl ⟨[], by simp [taken], by simp [left]⟩
    · exact .inr ⟨inside, none, taken⟩

/-- A shape in the text is met where it begins, unless a reference that was seen before reaches
beyond its beginning. -/
theorem exists_mem_matchesFrom {characters before token after : List Char} (offset : Nat)
    (shaped : IsToken token) (whole : characters = before ++ (scheme.toList ++ (token ++ after))) :
    ∃ found ∈ matchesFrom offset (pieces characters),
      found.start = offset + (String.ofList before).utf8ByteSize ∨
        (found.start < offset + (String.ofList before).utf8ByteSize ∧
          offset + (String.ofList before).utf8ByteSize < found.stop) := by
  have present {part : List Char} (some : part ≠ []) : 0 < (String.ofList part).utf8ByteSize := by
    rw [Nat.pos_iff_ne_zero, ne_eq, String.utf8ByteSize_eq_zero_iff, String.ofList_eq_empty_iff]
    exact some
  fun_induction pieces characters generalizing offset before with
  | case1 =>
      have spelled : scheme.toList ≠ [] := by decide
      simp [spelled] at whole
  | case2 character later seenToken rest seen inductionHypothesis =>
      have split := (eq_append_of_referenceAt? seen).symm.trans whole
      rw [← List.append_assoc] at split
      rcases append_eq_append_cases split with ⟨beyond, rfl, left⟩ | ⟨inside, some, taken⟩
      · obtain ⟨found, member, place⟩ :=
          inductionHypothesis (offset + (scheme ++ String.ofList seenToken).utf8ByteSize) left
        refine ⟨found, List.mem_cons_of_mem _ member, ?_⟩
        rwa [String.ofList_append, String.utf8ByteSize_append, String.ofList_append,
          String.ofList_toList, ← Nat.add_assoc]
      · -- The shape begins inside the reference, or both begin here.
        have size : (scheme ++ String.ofList seenToken).utf8ByteSize =
            (String.ofList before).utf8ByteSize + (String.ofList inside).utf8ByteSize := by
          rw [← String.utf8ByteSize_append, ← String.ofList_append, ← taken, String.ofList_append,
            String.ofList_toList]
        have reaches := present some
        refine ⟨_, List.mem_cons_self, ?_⟩
        by_cases here : before = []
        · subst here
          exact .inl rfl
        · have starts := present here
          exact .inr ⟨by simp only; omega, by simp only; omega⟩
  | case3 character later unseen inductionHypothesis =>
      cases before with
      | nil =>
          obtain ⟨found, seen⟩ := exists_referenceAt?_of_isToken shaped after
          rw [List.nil_append] at whole
          rw [whole, seen] at unseen
          cases unseen
      | cons first others =>
          rw [List.cons_append, List.cons.injEq] at whole
          obtain ⟨rfl, behind⟩ := whole
          obtain ⟨found, member, place⟩ := inductionHypothesis (offset + character.utf8Size) behind
          refine ⟨found, member, ?_⟩
          rwa [String.ofList_cons, String.utf8ByteSize_append, String.utf8ByteSize_singleton,
            ← Nat.add_assoc]

theorem isLeftmost_scan (text : String) : IsLeftmost text (scan text) := by
  rw [scan_eq_matchesFrom]
  refine ⟨?_, pairwise_matchesFrom 0 _, ?_⟩
  · intro each member
    have stands := standsIn_of_mem_matchesFrom "" member
    rwa [String.empty_append, String.ofList_toList] at stands
  · rintro place ⟨front, token, back, rfl, shaped, rfl⟩
    have met := exists_mem_matchesFrom 0 shaped
      (by simp : (front ++ (scheme ++ token ++ back)).toList =
        front.toList ++ (scheme.toList ++ (token.toList ++ back.toList)))
    rwa [Nat.zero_add, String.ofList_toList] at met

/-! ## There is one such list -/

section Unique

variable {text : String} {left right : List ReferenceMatch}

/-- References of one list do not overlap, whichever comes first. -/
theorem IsLeftmost.apart (leftmost : IsLeftmost text left) {each other : ReferenceMatch}
    (member : each ∈ left) (memberToo : other ∈ left) (different : each ≠ other) :
    each.stop ≤ other.start ∨ other.stop ≤ each.start := by
  have either : left.Pairwise fun each other =>
      each.stop ≤ other.start ∨ other.stop ≤ each.start := leftmost.ordered.imp .inl
  have : Std.Symm fun each other : ReferenceMatch =>
      each.stop ≤ other.start ∨ other.stop ≤ each.start := ⟨fun _ _ => Or.symm⟩
  exact either.forall member memberToo different

/-- By induction on the place: what a list has at an earlier place the other one has too, so nothing
is in the way of the reference here. -/
theorem IsLeftmost.subset (leftmost : IsLeftmost text left) (leftmostToo : IsLeftmost text right)
    {each : ReferenceMatch} (member : each ∈ left) : each ∈ right := by
  induction place : each.start using Nat.strongRecOn generalizing left right each with
  | _ place inductionHypothesis =>
      subst place
      have stands := leftmost.shaped each member
      obtain ⟨other, memberOther, here | ⟨before, beyond⟩⟩ :=
        leftmostToo.complete each.start stands.startsAt
      · rwa [stands.unique (leftmostToo.shaped other memberOther) here.symm]
      · have shared : other ∈ left :=
          inductionHypothesis other.start before leftmostToo leftmost memberOther rfl
        have different : other ≠ each := by
          rintro rfl
          omega
        have long := stands.start_lt_stop
        have apart := leftmost.apart shared member different
        omega

theorem IsLeftmost.increasing (leftmost : IsLeftmost text left) :
    left.Pairwise fun earlier later => earlier.start < later.start :=
  leftmost.ordered.imp_of_mem fun member _ apart =>
    Nat.lt_of_lt_of_le (leftmost.shaped _ member).start_lt_stop apart

theorem IsLeftmost.unique (leftmost : IsLeftmost text left) (leftmostToo : IsLeftmost text right) :
    left = right := by
  have nodup {found : List ReferenceMatch} (leftmost : IsLeftmost text found) : found.Nodup :=
    leftmost.increasing.imp fun before same => by
      rw [same] at before
      exact Nat.lt_irrefl _ before
  have same : left.Perm right :=
    (List.perm_ext_iff_of_nodup (nodup leftmost) (nodup leftmostToo)).mpr fun each =>
      ⟨leftmost.subset leftmostToo, leftmostToo.subset leftmost⟩
  refine same.eq_of_pairwise ?_ leftmost.increasing leftmostToo.increasing
  intro each other _ _ before after
  omega

end Unique

/-- A scan finds the leftmost references that do not overlap, and nothing else: each has the shape
of a reference and is taken as far as its letters go, and a place where the shape stands is the
start of a reference that is found or lies inside one.  Each lies between two characters of the
text and spells the scheme with its token, and looking for the scheme before anything else hides
none. -/
theorem scan_leftmost (text : String) :
    (∀ found, IsLeftmost text found ↔ found = scan text) ∧
      (∀ found ∈ scan text, found.start < found.stop ∧
        (Text.IsBoundary text found.start ∧ Text.IsBoundary text found.stop) ∧
        Text.slice? text found.start found.stop = some (scheme ++ found.token)) ∧
      scan text = matchesFrom 0 (piecesOf text) := by
  have leftmost := isLeftmost_scan text
  refine ⟨fun found => ⟨fun other => other.unique leftmost, fun same => same ▸ leftmost⟩, ?_,
    scan_eq_matchesFrom text⟩
  intro found member
  have stands := leftmost.shaped found member
  exact ⟨stands.start_lt_stop, stands.isBoundary, slice?_of_mem_scan member⟩

/-- A scheme twice, a token that ends at a letter that is none of its own, one without letters, and
a reference whose token takes in the first letter of another one. -/
theorem scan_leftmost_near_misses :
    let text := "é nostr:nostr:note1qqbq nostr:npub1 nostr:note1qnostr:note1x"
    IsLeftmost text [⟨9, 22, "note1qq"⟩, ⟨37, 50, "note1qn"⟩] ∧
      Text.slice? text 37 50 = some "nostr:note1qn" ∧
      StartsAt text 49 ∧ ∃ found ∈ scan text, found.start < 49 ∧ 49 < found.stop := by
  intro text
  have found : scan text = [⟨9, 22, "note1qq"⟩, ⟨37, 50, "note1qn"⟩] := by decide +kernel
  obtain ⟨leftmost, spelled, -⟩ := scan_leftmost text
  have last : ⟨37, 50, "note1qn"⟩ ∈ scan text := by simp [found]
  have starts : StartsAt text 49 := by
    refine ⟨"é nostr:nostr:note1qqbq nostr:npub1 nostr:note1q", "note1x", "", by decide +kernel, ?_,
      by decide +kernel⟩
    exact ⟨"note", by decide, ['x'], by decide, by decide,
      List.forall_mem_singleton.mpr (by decide)⟩
  refine ⟨(leftmost _).mpr found.symm, (spelled _ last).2.2, starts, ?_⟩
  obtain ⟨each, member, here | inside⟩ := ((leftmost _).mpr rfl).complete 49 starts
  · rw [found] at member
    simp only [List.mem_cons, List.not_mem_nil, or_false] at member
    rcases member with rfl | rfl
    · cases here
    · cases here
  · exact ⟨each, member, inside⟩

end Reference

end NostrCapsule
