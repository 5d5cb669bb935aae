import NostrCapsule.Proofs.Reference.Leftmost
import NostrCapsule.Proofs.Reference.WrittenToken

/-!
Contract: references that stand next to each other.

A reference takes in every letter that follows, and the scheme begins with one.  So a reference
takes the first letter of a scheme that touches it: what is left is no scheme, and a token with a
letter too many is no token.  One character that is no letter keeps the two apart.

Owns:
- `Pointer.isOk_ofToken_append_of_toToken`: letters behind a written token;
- the pieces of two references that touch, and of two that do not;
- `expand_neighbours`.

Does not own: references between white space.
-/

namespace NostrCapsule

variable {σ : Type}

/-! ## Letters behind a token -/

/-- One to five letters behind a written token make it unreadable. -/
theorem Pointer.isOk_ofToken_append_of_toToken {pointer : Pointer} {token more : String}
    (written : pointer.toToken = .ok token) (filled : more ≠ "") (short : more.length ≤ 5)
    (letters : ∀ character ∈ more.toList, Reference.isBody character = true) :
    (ofToken (token ++ more)).isOk = false := by
  obtain ⟨octets, _, encoded⟩ := toToken_eq_ok_iff.mp written
  have unread := Bech32.isOk_decode_append_of_encode (isCanonicalPrefix_tokenPrefix pointer.kind)
    encoded filled short fun character member =>
      Reference.isBody_iff_mem_alphabet.mp (letters character member)
  rw [ofToken]
  cases decoded : Bech32.decode (token ++ more) with
  | error fault => rfl
  | ok found =>
      rw [decoded] at unread
      cases unread

namespace Reference

/-! ## Touching references -/

theorem IsToken.colon_not_mem {token : List Char} (shaped : IsToken token) : ':' ∉ token := by
  obtain ⟨name, listed, body, rfl, _, letters⟩ := shaped
  have plain : ∀ name ∈ names, ':' ∉ name.toList := by decide
  rw [List.mem_append, List.mem_cons, not_or, not_or]
  refine ⟨plain name listed, by decide, ?_⟩
  exact fun member => absurd (letters _ member) (by decide)

/-- Without its first letter, a reference has no scheme in it. -/
theorem not_scheme_isInfix_of_isToken {token : List Char} (shaped : IsToken token) :
    ¬ scheme.toList <:+: "ostr:".toList ++ token := by
  rintro ⟨before, after, whole⟩
  have behind : ((before ++ scheme.toList ++ after).drop 5) = token := by
    rw [whole]
    rfl
  have regrouped : before ++ scheme.toList ++ after =
      (before ++ "nostr".toList) ++ ':' :: after := by
    simp [scheme]
  have long : 5 ≤ (before ++ "nostr".toList).length := by
    simp
  rw [regrouped, List.drop_append_of_le_length long] at behind
  apply shaped.colon_not_mem
  rw [← behind]
  exact List.mem_append_right _ List.mem_cons_self

theorem isBody_first_letter_of_scheme : ∀ character ∈ "n".toList, isBody character = true :=
  List.all_eq_true.mp (by decide)

/-- With nothing but letters between, the second scheme loses its first letter to the token. -/
theorem piecesOf_of_letters_between {token between : String} (shaped : IsToken token.toList)
    (letters : ∀ character ∈ between.toList, isBody character = true) (other : String) :
    piecesOf (scheme ++ token ++ (between ++ (scheme ++ other))) =
      .reference (token ++ between ++ "n") :: piecesOf ("ostr:" ++ other) := by
  have regrouped : scheme ++ token ++ (between ++ (scheme ++ other)) =
      scheme ++ (token ++ between ++ "n") ++ ("ostr:" ++ other) := by
    have split : scheme = "n" ++ "ostr:" := by decide
    nth_rewrite 2 [split]
    simp only [String.append_assoc]
  have lengthened : IsToken (token ++ between ++ "n").toList := by
    rw [String.toList_append, String.toList_append]
    exact (shaped.append letters).append isBody_first_letter_of_scheme
  rw [regrouped, piecesOf_reference_append lengthened]
  intro character first
  rw [String.toList_append] at first
  cases first
  decide

theorem scan_of_letters_between {token between other : String} (shaped : IsToken token.toList)
    (letters : ∀ character ∈ between.toList, isBody character = true)
    (shapedToo : IsToken other.toList) :
    scan (scheme ++ token ++ (between ++ (scheme ++ other))) =
      [⟨0, (scheme ++ (token ++ between ++ "n")).utf8ByteSize, token ++ between ++ "n"⟩] := by
  have absent : ¬ scheme.toList <:+: ("ostr:" ++ other).toList := by
    rw [String.toList_append]
    exact not_scheme_isInfix_of_isToken shapedToo
  rw [scan_eq_matchesFrom, piecesOf_of_letters_between shaped letters, matchesFrom, Nat.zero_add,
    piecesOf, matchesFrom_of_absent _ absent]

/-! ## References that do not touch -/

theorem referenceAt?_of_not_letter {character : Char} (outside : isBody character = false)
    (later : List Char) : referenceAt? (character :: later) = none := by
  cases found : referenceAt? (character :: later) with
  | none => rfl
  | some parts =>
      have first := congrArg List.head? (eq_append_of_referenceAt? found)
      cases first
      cases outside

/-- No reference begins with a character that is no letter. -/
theorem pieces_append_of_no_letters {front : List Char}
    (outside : ∀ character ∈ front, isBody character = false) (later : List Char) :
    pieces (front ++ later) = front.map .plain ++ pieces later := by
  induction front with
  | nil => rfl
  | cons character rest inductionHypothesis =>
      obtain ⟨first, others⟩ := List.forall_mem_cons.mp outside
      rw [List.cons_append, pieces_cons_of_none (referenceAt?_of_not_letter first _),
        inductionHypothesis others]
      rfl

theorem textOf_map_plain (characters : List Char) :
    textOf (characters.map .plain) = String.ofList characters := by
  simp [textOf, List.flatMap_map, Piece.chars]

theorem matchesFrom_map_plain (offset : Nat) (characters : List Char) :
    matchesFrom offset (characters.map .plain) = [] := by
  induction characters generalizing offset with
  | nil => rfl
  | cons character rest inductionHypothesis => exact inductionHypothesis _

section Apart

variable {token between other : String} (shaped : IsToken token.toList)
  (shapedToo : IsToken other.toList) (filled : between ≠ "")
  (outside : ∀ character ∈ between.toList, isBody character = false)

include shaped shapedToo filled outside

/-- With no letter but something between, both references are pieces of their own. -/
theorem piecesOf_of_no_letters_between :
    piecesOf (scheme ++ token ++ (between ++ (scheme ++ other))) =
      .reference token :: (between.toList.map .plain ++ [.reference other]) := by
  have last : piecesOf (scheme ++ other) = [.reference other] := by
    have alone : piecesOf (scheme ++ other ++ "") = .reference other :: piecesOf "" :=
      piecesOf_reference_append shapedToo (by simp)
    rw [String.append_empty] at alone
    rw [alone, piecesOf, String.toList_empty, pieces_nil]
  have stops : ∀ character ∈ (between ++ (scheme ++ other)).toList.head?,
      isBody character = false := by
    intro character first
    rw [String.toList_append,
      List.head?_append_of_ne_nil _ (filled ∘ String.toList_eq_nil_iff.mp)] at first
    exact outside character (List.mem_of_mem_head? first)
  rw [piecesOf_reference_append shaped stops, piecesOf, String.toList_append,
    pieces_append_of_no_letters outside, ← piecesOf, last]

theorem scan_of_no_letters_between :
    scan (scheme ++ token ++ (between ++ (scheme ++ other))) =
      [⟨0, (scheme ++ token).utf8ByteSize, token⟩,
        ⟨(scheme ++ token ++ between).utf8ByteSize,
          (scheme ++ token ++ (between ++ (scheme ++ other))).utf8ByteSize, other⟩] := by
  rw [scan_eq_matchesFrom, piecesOf_of_no_letters_between shaped shapedToo filled outside,
    matchesFrom, Nat.zero_add, matchesFrom_append, matchesFrom_map_plain, textOf_map_plain,
    String.ofList_toList]
  simp only [matchesFrom, List.nil_append, String.utf8ByteSize_append, Nat.add_assoc]

end Apart

end Reference

/-! ## Expansion -/

theorem Expansion.ofPieces_map_plain (glossary : Glossary) (format : Entity → String)
    (text : String) (back : List Piece) :
    ofPieces glossary format (text.toList.map .plain ++ back) =
      { text := text ++ (ofPieces glossary format back).text
        entities := (ofPieces glossary format back).entities } := by
  have same : (text.toList.map Piece.plain).flatMap (glossary.replacement format) =
      text.toList := by
    simp [List.flatMap_map, Glossary.replacement, Piece.token?, Piece.chars]
  have none : (text.toList.map Piece.plain).filterMap glossary.entityOf? = [] := by
    simp [List.filterMap_map, Glossary.entityOf?, Piece.token?]
  simp only [ofPieces, List.flatMap_append, List.filterMap_append, same, none, List.nil_append,
    String.ofList_append, String.ofList_toList]

/-- A written token has an entity wherever it is named. -/
theorem Glossary.exists_lookup_of_toToken {glossary : Glossary} {source : Source σ}
    {pointer : Pointer} {token : String} (written : pointer.toToken = .ok token)
    (named : ∃ asked, glossary.lookup token =
      ((Entity.resolve token).run source asked).1.toOption) :
    ∃ entity, glossary.lookup token = some entity ∧
      ∃ asked, ((Entity.resolve token).run source asked).1 = .ok entity := by
  obtain ⟨asked, found⟩ := named
  have read := Pointer.ofToken_of_toToken written
  rw [Entity.run_resolve_of_ok read] at found
  refine ⟨_, found, asked, ?_⟩
  rw [Entity.run_resolve_of_ok read]

section Expand

variable {first second : Pointer} {token other between : String}
  (written : first.toToken = .ok token) (writtenToo : second.toToken = .ok other)
  (format : Entity → String) (source : Source σ) (state : σ)

include written writtenToo

theorem run_expand_of_letters_between (short : between.length ≤ 4)
    (letters : ∀ character ∈ between.toList, Reference.isBody character = true) :
    ((expand format (scheme ++ token ++ (between ++ (scheme ++ other)))).run source state).1 =
      { text := scheme ++ token ++ (between ++ (scheme ++ other)), entities := [] } := by
  have found := Reference.scan_of_letters_between (Pointer.isToken_of_toToken written) letters
    (Pointer.isToken_of_toToken writtenToo)
  have tokens := congrArg (List.map ReferenceMatch.token) found
  rw [Reference.map_token_scan] at tokens
  apply run_expand_of_unread
  rw [tokens, List.map_singleton, List.forall_mem_singleton, String.append_assoc]
  apply Pointer.isOk_ofToken_append_of_toToken written
  · simp
  · rw [String.length_append]
    exact Nat.succ_le_succ short
  · rw [String.toList_append]
    exact List.forall_mem_append.mpr ⟨letters, Reference.isBody_first_letter_of_scheme⟩

theorem run_expand_of_no_letters_between (filled : between ≠ "")
    (outside : ∀ character ∈ between.toList, Reference.isBody character = false) :
    ∃ left right : Entity,
      (∃ asked, ((Entity.resolve token).run source asked).1 = .ok left) ∧
      (∃ asked, ((Entity.resolve other).run source asked).1 = .ok right) ∧
      ((expand format (scheme ++ token ++ (between ++ (scheme ++ other)))).run source state).1 =
        { text := format left ++ between ++ format right, entities := [left, right] } := by
  have cut := Reference.piecesOf_of_no_letters_between (Pointer.isToken_of_toToken written)
    (Pointer.isToken_of_toToken writtenToo) filled outside
  obtain ⟨glossary, expansion, named⟩ := exists_glossary_expand format
    (scheme ++ token ++ (between ++ (scheme ++ other))) source state
  rw [cut] at expansion named
  obtain ⟨left, leftNamed, leftResolved⟩ :=
    glossary.exists_lookup_of_toToken written (named token (by simp [Piece.token?]))
  obtain ⟨right, rightNamed, rightResolved⟩ :=
    glossary.exists_lookup_of_toToken writtenToo (named other (by simp [Piece.token?]))
  refine ⟨left, right, leftResolved, rightResolved, expansion.trans ?_⟩
  have front := Expansion.ofPieces_append_reference leftNamed format []
    (between.toList.map .plain ++ [.reference other])
  have back := Expansion.ofPieces_append_reference rightNamed format [] []
  have nothing : Expansion.ofPieces glossary format [] = { text := "", entities := [] } := rfl
  rw [List.nil_append] at front back
  rw [front, Expansion.ofPieces_map_plain, back, nothing]
  simp only [String.empty_append, String.append_empty, List.nil_append, String.append_assoc]

end Expand

/-- Two references with nothing between them are both lost: the first takes the first letter of the
second scheme, so that it resolves no more and no second one is found, and the text stays as it is.
Up to four letters between them do not help.  Any text without letters between them, if only one
character, keeps them apart, and both are replaced. -/
theorem expand_neighbours {first second : Pointer} {token other : String}
    (written : first.toToken = .ok token) (writtenToo : second.toToken = .ok other)
    (format : Entity → String) (source : Source σ) (state : σ) :
    let joined (between : String) := scheme ++ token ++ (between ++ (scheme ++ other))
    (∀ between : String, between.length ≤ 4 →
      (∀ character ∈ between.toList, Reference.isBody character = true) →
        Reference.scan (joined between) =
            [⟨0, (scheme ++ (token ++ between ++ "n")).utf8ByteSize, token ++ between ++ "n"⟩] ∧
          ((expand format (joined between)).run source state).1 =
            { text := joined between, entities := [] }) ∧
    ∀ between : String, between ≠ "" →
      (∀ character ∈ between.toList, Reference.isBody character = false) →
        Reference.scan (joined between) =
            [⟨0, (scheme ++ token).utf8ByteSize, token⟩,
              ⟨(scheme ++ token ++ between).utf8ByteSize, (joined between).utf8ByteSize, other⟩] ∧
          ∃ left right : Entity,
            (∃ asked, ((Entity.resolve token).run source asked).1 = .ok left) ∧
            (∃ asked, ((Entity.resolve other).run source asked).1 = .ok right) ∧
            ((expand format (joined between)).run source state).1 =
              { text := format left ++ between ++ format right, entities := [left, right] } := by
  have shaped := Pointer.isToken_of_toToken written
  have shapedToo := Pointer.isToken_of_toToken writtenToo
  intro joined
  constructor
  · intro between short letters
    exact ⟨Reference.scan_of_letters_between shaped letters shapedToo,
      run_expand_of_letters_between written writtenToo format source state short letters⟩
  · intro between filled outside
    exact ⟨Reference.scan_of_no_letters_between shaped shapedToo filled outside,
      run_expand_of_no_letters_between written writtenToo format source state filled outside⟩

/-- A key and a note, side by side and with a comma between. -/
theorem expand_neighbours_key_note :
    let key : Pointer := .pubkey ⟨List.replicate 32 7, rfl⟩
    let note : Pointer := .note ⟨List.replicate 32 0xab, rfl⟩
    let token := "npub1qurswpc8qurswpc8qurswpc8qurswpc8qurswpc8qurswpc8qursnvjvl7"
    let other := "note14w46h2at4w46h2at4w46h2at4w46h2at4w46h2at4w46h2at4w4sfreljc"
    let source := (MemoryStore.empty.answers .background).source
    let joined (between : String) := scheme ++ token ++ (between ++ (scheme ++ other))
    key.toToken = .ok token ∧ note.toToken = .ok other ∧
      (Reference.scan (joined "")).map ReferenceMatch.token = [token ++ "n"] ∧
      ((expandNames (joined "")).run source ()).1 = { text := joined "", entities := [] } ∧
      (Reference.scan (joined ",")).map ReferenceMatch.token = [token, other] ∧
      ((expandNames (joined ",")).run source ()).1.text =
        "07070707...07070707,Note abababab..." := by
  intro key note token other source joined
  have written : key.toToken = .ok token := by
    decide +kernel
  have writtenToo : note.toToken = .ok other := by
    decide +kernel
  obtain ⟨touching, apart⟩ :=
    expand_neighbours written writtenToo Entity.displayName source ()
  have comma : ∀ character ∈ ",".toList, Reference.isBody character = false := by
    have none : ",".toList.any Reference.isBody = false := by decide
    simpa only [Bool.not_eq_true] using List.any_eq_false.mp none
  obtain ⟨lost, unchanged⟩ := touching "" (by decide) (List.forall_mem_nil _)
  obtain ⟨kept, left, right, ⟨⟨⟩, leftResolved⟩, ⟨⟨⟩, rightResolved⟩, replaced⟩ :=
    apart "," (by decide) comma
  have leftName : ((Entity.resolve token).run source ()).1.map Entity.displayName =
      .ok "07070707...07070707" := by
    decide +kernel
  have rightName : ((Entity.resolve other).run source ()).1.map Entity.displayName =
      .ok "Note abababab..." := by
    decide +kernel
  rw [leftResolved] at leftName
  rw [rightResolved] at rightName
  refine ⟨written, writtenToo, ?_, unchanged, ?_, ?_⟩
  · rw [lost]
    rfl
  · rw [kept]
    rfl
  · rw [expandNames, replaced, Except.ok.inj leftName, Except.ok.inj rightName]
    rfl

/-- Two written references side by side are not both found. -/
theorem not_map_token_scan_neighbours :
    ¬ ∀ (first second : Pointer) (token other : String),
      first.toToken = .ok token → second.toToken = .ok other →
        (Reference.scan (scheme ++ token ++ (scheme ++ other))).map ReferenceMatch.token =
          [token, other] := by
  intro claimed
  let token := "note14w46h2at4w46h2at4w46h2at4w46h2at4w46h2at4w46h2at4w4sfreljc"
  let note : Pointer := .note ⟨List.replicate 32 0xab, rfl⟩
  have written : note.toToken = .ok token := by
    decide +kernel
  have found : (Reference.scan (scheme ++ token ++ (scheme ++ token))).map ReferenceMatch.token =
      [token ++ "n"] := by
    decide +kernel
  have both := claimed note note token token written written
  rw [found] at both
  revert both
  decide

end NostrCapsule
