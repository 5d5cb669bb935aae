import NostrCapsule.Proofs.Reference.Steady

/-!
Contract: a token costs one question, however often it stands in a text.

Owns:
- `Naming.questionOf?`, the question about a token, and `Reference.askedTokens`, the tokens of a
  text about which there is one;
- `expandEach`, which resolves each occurrence by itself;
- `expand_asks_once`.

Does not own: what the answers are used for.
-/

namespace NostrCapsule

variable {σ : Type}

/-! ## Tokens with a question -/

def Naming.questionOf? (token : String) : Option Filter :=
  (Pointer.ofToken token).toOption.bind question?

namespace Reference

/-- A token that reads as a pointer other than an address whose kind no event can have. -/
def IsAsked (token : String) : Prop :=
  ∃ pointer, Pointer.ofToken token = .ok pointer ∧
    ∀ coordinates relays, pointer = .address coordinates relays → coordinates.kind.toNat ≤ 65535

theorem IsAsked.isOk_ofToken {token : String} (asked : IsAsked token) :
    (Pointer.ofToken token).isOk = true := by
  obtain ⟨pointer, read, _⟩ := asked
  rw [read]
  rfl

theorem isSome_questionOf?_iff {token : String} :
    (Naming.questionOf? token).isSome = true ↔ IsAsked token := by
  unfold Naming.questionOf? IsAsked
  cases read : Pointer.ofToken token with
  | error cause => simp [Except.toOption]
  | ok pointer =>
      rw [← not_iff_not, Bool.not_eq_true, Option.isSome_eq_false_iff, Option.isNone_iff_eq_none]
      apply Naming.question?_eq_none_iff.trans
      simp

instance : DecidablePred IsAsked :=
  fun _ => decidable_of_iff _ isSome_questionOf?_iff

/-- The tokens of a text's references about which there is a question, repeated ones included. -/
def askedTokens (text : String) : List String :=
  ((scan text).map ReferenceMatch.token).filter fun token => IsAsked token

/-- Among the tokens that read are all those with a question. -/
theorem filter_isAsked_readable (text : String) :
    ((readable text).map ReferenceMatch.token).filter (fun token => IsAsked token) =
      askedTokens text := by
  have reads : (readable text).map ReferenceMatch.token =
      ((scan text).map ReferenceMatch.token).filter fun token => (Pointer.ofToken token).isOk := by
    rw [List.filter_map]
    rfl
  rw [reads, List.filter_filter]
  apply List.filter_congr
  intro token _
  rw [Bool.and_eq_left_iff_imp]
  intro asked
  exact (of_decide_eq_true asked).isOk_ofToken

theorem distinct_askedTokens (text : String) :
    distinctBy id (askedTokens text) =
      (distinctBy id ((readable text).map ReferenceMatch.token)).filter
        fun token => IsAsked token := by
  rw [← filter_isAsked_readable]
  exact (filter_distinctBy id (fun token => decide (IsAsked token)) _).symm

/-- A list of tokens gives the questions about those of them that have one. -/
theorem map_some_filterMap_questionOf? (tokens : List String) :
    (tokens.filterMap Naming.questionOf?).map some =
      (tokens.filter fun token => IsAsked token).map Naming.questionOf? := by
  induction tokens with
  | nil => rfl
  | cons token rest inductionHypothesis =>
      by_cases asked : IsAsked token
      · obtain ⟨filter, question⟩ := Option.isSome_iff_exists.mp (isSome_questionOf?_iff.mpr asked)
        rw [List.filterMap_cons_some question, List.filter_cons_of_pos (by simpa using asked),
          List.map_cons, List.map_cons, question, inductionHypothesis]
      · have unasked : Naming.questionOf? token = none := by
          rw [← Option.not_isSome_iff_eq_none, isSome_questionOf?_iff]
          exact asked
        rw [List.filterMap_cons_none unasked, List.filter_cons_of_neg (by simpa using asked),
          inductionHypothesis]

end Reference

/-! ## Questions of an expansion -/

theorem Consultation.exchange?_bind_filter? (consultation : Consultation) :
    consultation.exchange?.bind Exchange.filter? = Naming.questionOf? consultation.token := by
  have asked := consultation.asked
  have question : Naming.questionOf? consultation.token =
      Naming.question? consultation.pointer := by
    rw [Naming.questionOf?, consultation.read]
    rfl
  rw [question, exchange?]
  cases filter : Naming.question? consultation.pointer with
  | none => rfl
  | some filter =>
      rw [filter, Option.isSome_some, Option.isSome_iff_exists] at asked
      obtain ⟨answer, answered⟩ := asked
      rw [answered]
      rfl

section Expand

variable (format : Entity → String) (text : String) (source : Source σ) (state : σ)

theorem filters_expand :
    (expand format text).filters source state =
      (distinctBy id ((Reference.readable text).map ReferenceMatch.token)).filterMap
        Naming.questionOf? := by
  obtain ⟨_, heard, _, _, _, tokens, transcript, _⟩ :=
    exists_consultations_expand format text source state
  rw [Lookup.filters, transcript, ← tokens, List.filterMap_filterMap, List.filterMap_map]
  apply List.filterMap_congr
  intro consultation _
  exact consultation.exchange?_bind_filter?

/-- The questions of an expansion are those about the distinct tokens, in order. -/
theorem map_some_filters_expand :
    ((expand format text).filters source state).map some =
      (distinctBy id (Reference.askedTokens text)).map Naming.questionOf? := by
  rw [filters_expand, Reference.map_some_filterMap_questionOf?, Reference.distinct_askedTokens]

theorem length_filters_expand :
    ((expand format text).filters source state).length =
      (Reference.askedTokens text).toFinset.card := by
  have lengths := congrArg List.length (map_some_filters_expand format text source state)
  rw [List.length_map, List.length_map, length_distinctBy_id] at lengths
  exact lengths

/-- An expansion never asks for relays. -/
theorem readRelays_not_mem_transcript_expand (pubkey : String) (relays : List String) :
    .readRelays pubkey relays ∉ (expand format text).transcript source state := by
  obtain ⟨_, heard, _, _, _, _, transcript, _⟩ :=
    exists_consultations_expand format text source state
  rw [transcript]
  intro member
  obtain ⟨consultation, _, exchange⟩ := List.mem_filterMap.mp member
  obtain ⟨filter, _, answered⟩ := Option.bind_eq_some_iff.mp exchange
  obtain ⟨answer, _, different⟩ := Option.map_eq_some_iff.mp answered
  cases different

end Expand

/-! ## Every occurrence by itself -/

def Piece.resolve : Piece → Lookup (Option Entity)
  | .plain _ => pure none
  | .reference token => do pure (← Entity.resolve token).toOption

/-- Replaces references piece by piece, and resolves each occurrence of a token by itself. -/
def expandEachPiece (format : Entity → String) : List Piece → Lookup Expansion
  | [] => pure ⟨"", []⟩
  | piece :: rest => do
      let found ← piece.resolve
      pure (.ofPiece format piece found ++ (← expandEachPiece format rest))

/-- Replaces the references in a text, and resolves each occurrence of a token by itself. -/
def expandEach (format : Entity → String) (text : String) : Lookup Expansion :=
  expandEachPiece format (Reference.piecesOf text)

namespace Source.Steady

variable {source : Source σ} (steady : source.Steady) (state other : σ)

include steady

theorem run_pieceResolve (piece : Piece) :
    (piece.resolve.run source state).1 = piece.token?.bind (source.entity? other) := by
  cases piece with
  | plain character => rfl
  | reference token =>
      rw [Piece.resolve, Lookup.run_bind, Lookup.run_pure]
      exact steady.entity?_eq state other token

theorem run_expandEachPiece (format : Entity → String) (pieces : List Piece) :
    ((expandEachPiece format pieces).run source state).1 =
      .naming (source.entity? other) format pieces := by
  induction pieces generalizing state with
  | nil => rfl
  | cons piece rest inductionHypothesis =>
      rw [expandEachPiece, Lookup.run_bind, Lookup.run_bind, Lookup.run_pure,
        Expansion.naming_cons, steady.run_pieceResolve state other]
      dsimp only
      rw [inductionHypothesis]

/-- A memo saves questions and changes nothing else. -/
theorem run_expand_eq_run_expandEach (format : Entity → String) (text : String) :
    ((expand format text).run source state).1 = ((expandEach format text).run source other).1 := by
  rw [steady.run_expand state other, expandEach, steady.run_expandEachPiece other other]

end Source.Steady

/-- Whatever a store answers, and whenever it fails, an expansion asks once about each distinct
token that reads as a pointer other than an address whose kind no event can have, in the order of
first occurrences, and never for relays; a store that counts its questions counts as many.  Over a
store that answers each filter alike, the result is the same as if every occurrence were resolved by
itself. -/
theorem expand_asks_once (format : Entity → String) (text : String) (source : Source σ)
    (state : σ) :
    ((expand format text).filters source state).map some =
        (distinctBy id (Reference.askedTokens text)).map Naming.questionOf? ∧
      ((expand format text).filters source state).length =
        (Reference.askedTokens text).toFinset.card ∧
      (∀ pubkey relays,
        .readRelays pubkey relays ∉ (expand format text).transcript source state) ∧
      (∀ (answers : Answers) (failure : StoreError) (meter : Meter),
        ((expand format text).run (answers.metered failure) meter).2.asked =
          meter.asked + (Reference.askedTokens text).toFinset.card) ∧
      (source.Steady → ∀ other,
        ((expand format text).run source state).1 =
          ((expandEach format text).run source other).1) := by
  refine ⟨map_some_filters_expand format text source state,
    length_filters_expand format text source state,
    readRelays_not_mem_transcript_expand format text source state, ?_, ?_⟩
  · intro answers failure meter
    rw [Lookup.asked_run_metered, length_filters_expand]
  · intro steady other
    exact steady.run_expand_eq_run_expandEach state other format text

/-- Of four references the first does not read, two are one key, and the third is an address of
kind 65536. -/
theorem expand_asks_once_key :
    let answers := MemoryStore.empty.answers .background
    let author := "7e7e9c42a91bfef19fa929e5fda1b72e0ebc1a4c1141673e2794234d86addf4e"
    let key := "npub10elfcs4fr0l0r8af98jlmgdh9c8tcxjvz9qkw038js35mp4dma8qzvjptg"
    let address :=
      "naddr1qqqqygr706wy92gmlmcel2ffuh76rdewp67p5nq3g9nnufu5ydxcdtwlfcpsgqqpqqqqghasjz"
    let text := s!"nostr:note1xyz nostr:{key} nostr:{address} nostr:{key}"
    (Reference.scan text).map ReferenceMatch.token = ["note1xyz", key, address, key] ∧
      answers.source.Steady ∧
      ((expand Entity.displayName text).filters answers.source ()).map some =
        [some (.byAuthor author .metadata 1)] ∧
      ((expand Entity.displayName text).run (answers.metered .cancelled)
        { remaining := some 0 }).2.asked = 1 ∧
      ((expand Entity.displayName text).run answers.source ()).1 =
        ((expandEach Entity.displayName text).run answers.source ()).1 := by
  intro answers author key address text
  have steady : answers.source.Steady := answers.steady_source
  have tokens : (Reference.scan text).map ReferenceMatch.token =
      ["note1xyz", key, address, key] := by
    decide +kernel
  have distinct : distinctBy id (Reference.askedTokens text) = [key] := by
    rw [Reference.askedTokens, tokens]
    decide +kernel
  have one : (Reference.askedTokens text).toFinset.card = 1 := by
    rw [← length_distinctBy_id, distinct]
    rfl
  obtain ⟨questions, _, _, counted, each⟩ :=
    expand_asks_once Entity.displayName text answers.source ()
  refine ⟨tokens, steady, ?_, ?_, each steady ()⟩
  · rw [questions, distinct]
    decide +kernel
  · rw [counted, one]

end NostrCapsule
