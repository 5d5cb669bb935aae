import NostrCapsule.Identifier.Spelling
import NostrCapsule.Proofs.Bech32.TextForm
import NostrCapsule.Proofs.Text.Ascii

/-!
Contract: a token means the same in capital and in small letters, and nothing if it mixes them.

Four places of a token depend on the case of letters: the mixture itself, the prefix in the
checksum, the letters of the body, and the kind that the prefix names.  The separator does not, for
it is no letter.  So folding each place on its own gives what folding the whole token gives.

Owns:
- `Bech32.readAsWritten`, which keeps the case of the prefix, and what it has to do with `decode`;
- `Pointer.ofToken_ignores_case`.

Does not own: texts that wrap a token.
-/

namespace NostrCapsule

namespace Bech32

/-! ## Reading place by place -/

/-- Reads prefix and octets from characters, and leaves the prefix as it is written.  It counts in
small letters for the checksum, and a letter of the body stands for one quintet in either case. -/
def readAsWritten (characters : List Char) : Except Fault (List Char × List UInt8) :=
  if lengthLimit < characters.length then .error .tooLong
  else if isMixedCase characters then .error .mixedCase
  else match splitSeparator characters with
    | none => .error .noSeparator
    | some (front, body) =>
        if !isPrefix front then .error .invalidPrefix
        else match body.mapM fun character => quintet? character.toLower with
          | none => .error .invalidLetter
          | some quintets =>
              if quintets.length < 6 then .error .missingChecksum
              else if isValid (front.map Char.toLower) quintets then
                .ok (front, octetsOfQuintets (quintets.take (quintets.length - 6)))
              else .error .wrongChecksum

private theorem toLower_bne_separator (character : Char) :
    (character.toLower != '1') = (character != '1') :=
  Text.apply_toLower (· != '1') (by decide) character

/-- The separator is no letter, so a text is cut at the same place in small letters. -/
theorem splitSeparator_map_toLower (characters : List Char) :
    splitSeparator (characters.map Char.toLower) =
      (splitSeparator characters).map fun (front, body) =>
        (front.map Char.toLower, body.map Char.toLower) := by
  have folded : (· != '1') ∘ Char.toLower = (· != '1') := funext toLower_bne_separator
  simp only [splitSeparator, ← List.map_reverse, List.takeWhile_map, List.dropWhile_map, folded]
  cases characters.reverse.dropWhile (· != '1') with
  | nil => rfl
  | cons separator front => simp

theorem isPrefix_map_toLower (front : List Char) :
    isPrefix (front.map Char.toLower) = isPrefix front := by
  have printable (character : Char) :
      (decide (33 ≤ character.toLower.toNat) && decide (character.toLower.toNat ≤ 126)) =
        (decide (33 ≤ character.toNat) && decide (character.toNat ≤ 126)) :=
    Text.apply_toLower
      (fun character => decide (33 ≤ character.toNat) && decide (character.toNat ≤ 126))
      (by decide) character
  simp only [isPrefix, List.isEmpty_map, List.length_map, List.all_map, Function.comp_def,
    printable]

/-- Reading in small letters throughout is reading as written, with the prefix in small letters. -/
theorem decodeChars_eq_readAsWritten (characters : List Char) :
    decodeChars characters =
      (readAsWritten characters).map fun (front, octets) => (front.map Char.toLower, octets) := by
  unfold decodeChars readAsWritten
  split
  · rfl
  split
  · rfl
  rw [splitSeparator_map_toLower]
  cases splitSeparator characters with
  | none => rfl
  | some parts =>
      obtain ⟨front, body⟩ := parts
      have letters : (body.map Char.toLower).mapM quintet? =
          body.mapM fun character => quintet? character.toLower := by
        simp [List.mapM_map, Function.comp_def]
      simp only [Option.map_some, isPrefix_map_toLower, letters]
      split
      · rfl
      cases body.mapM fun character => quintet? character.toLower with
      | none => rfl
      | some quintets =>
          dsimp only
          split
          · rfl
          split <;> rfl

/-! ## Two texts of the same letters -/

theorem isMixedCase_iff {characters : List Char} :
    isMixedCase characters = true ↔
      (∃ character ∈ characters, character.isLower = true) ∧
        ∃ character ∈ characters, character.isUpper = true := by
  rw [isMixedCase, Bool.and_eq_true, List.any_eq_true, List.any_eq_true]

/-- Texts of the same letters read alike, unless one of them mixes cases and the other does not. -/
theorem decodeChars_congr {left right : List Char}
    (same : left.map Char.toLower = right.map Char.toLower)
    (mixture : isMixedCase left = isMixedCase right) : decodeChars left = decodeChars right := by
  have size := congrArg List.length same
  rw [List.length_map, List.length_map] at size
  rw [decodeChars, decodeChars, size, mixture, same]

theorem decodeChars_of_isMixedCase {characters : List Char}
    (mixed : isMixedCase characters = true) :
    ∃ fault, (fault = .tooLong ∨ fault = .mixedCase) ∧
      decodeChars characters = .error fault := by
  rw [decodeChars, if_pos mixed]
  split
  · exact ⟨.tooLong, .inl rfl, rfl⟩
  · exact ⟨.mixedCase, .inr rfl, rfl⟩

end Bech32

namespace Pointer

variable {token : String}

/-! ## Tokens -/

/-- A token is read as it is written, and then the prefix is looked up in small letters. -/
theorem ofToken_eq_readAsWritten (token : String) :
    ofToken token =
      match Bech32.readAsWritten token.toList with
      | .error fault => .error (.bech32 fault.message)
      | .ok (front, octets) =>
          match PointerKind.ofPrefix? (String.ofList front).toLower with
          | none => .error (.unsupportedPrefix (String.ofList front).toLower)
          | some kind => ofOctets? kind octets := by
  have lowered (front : List Char) :
      String.ofList (front.map Char.toLower) = (String.ofList front).toLower := by
    rw [← String.toList_inj, Text.toList_toLower, String.toList_ofList, String.toList_ofList]
  rw [ofToken, Bech32.decode, Bech32.decodeChars_eq_readAsWritten]
  cases Bech32.readAsWritten token.toList with
  | error fault => rfl
  | ok found =>
      have name := lowered found.1
      dsimp only [Except.map]
      generalize String.ofList (found.1.map Char.toLower) = written at name ⊢
      subst name
      rfl

/-- Without capital letters, a token reads as it does in capital ones. -/
theorem ofToken_toUpper (small : ∀ character ∈ token.toList, character.isUpper = false) :
    ofToken token.toUpper = ofToken token := by
  have letters : token.toUpper.toList = token.toList.map Char.toUpper := by
    rw [String.toUpper, String.toList_map]
  have same : token.toUpper.toList.map Char.toLower = token.toList.map Char.toLower := by
    rw [letters, List.map_map]
    exact List.map_congr_left fun character _ => Text.toLower_toUpper character
  have unmixed : Bech32.isMixedCase token.toList = false := by
    rw [← Bool.not_eq_true, Bech32.isMixedCase_iff]
    rintro ⟨_, character, member, capital⟩
    rw [small character member] at capital
    cases capital
  have unmixedToo : Bech32.isMixedCase token.toUpper.toList = false := by
    rw [← Bool.not_eq_true, Bech32.isMixedCase_iff, letters]
    rintro ⟨⟨character, member, lower⟩, _⟩
    obtain ⟨original, _, rfl⟩ := List.mem_map.mp member
    rw [Text.isLower_toUpper] at lower
    cases lower
  have decoded := Bech32.decodeChars_congr same (unmixedToo.trans unmixed.symm)
  rw [ofToken, ofToken, Bech32.decode, Bech32.decode, decoded]

theorem ofToken_of_isMixedCase (mixed : Bech32.isMixedCase token.toList = true) :
    ∃ fault, (fault = Bech32.Fault.tooLong ∨ fault = .mixedCase) ∧
      ofToken token = .error (.bech32 fault.message) := by
  obtain ⟨fault, causes, refused⟩ := Bech32.decodeChars_of_isMixedCase mixed
  refine ⟨fault, causes, ?_⟩
  rw [ofToken, Bech32.decode, refused]
  rfl

/-- A token without capital letters reads as it does in capital ones: as the same pointer, or with
the same refusal, the name of an unknown prefix included.  A token with letters of both cases is
refused by the layer below, before anything of it is looked at.  Each place folds the case of its
letters on its own: the body letter by letter, the prefix for the checksum, and the prefix once more
where its kind is looked up and where it is reported. -/
theorem ofToken_ignores_case :
    (∀ token : String, (∀ character ∈ token.toList, character.isUpper = false) →
      ofToken token.toUpper = ofToken token) ∧
    (∀ token : String, ∀ small ∈ token.toList, ∀ capital ∈ token.toList,
      small.isLower = true → capital.isUpper = true →
      ∃ fault, (fault = Bech32.Fault.tooLong ∨ fault = .mixedCase) ∧
        ofToken token = .error (.bech32 fault.message)) ∧
    ∀ token, ofToken token =
      match Bech32.readAsWritten token.toList with
      | .error fault => .error (.bech32 fault.message)
      | .ok (front, octets) =>
          match PointerKind.ofPrefix? (String.ofList front).toLower with
          | none => .error (.unsupportedPrefix (String.ofList front).toLower)
          | some kind => ofOctets? kind octets := by
  refine ⟨fun token small => ofToken_toUpper small, ?_, ofToken_eq_readAsWritten⟩
  intro token small smallListed capital capitalListed isSmall isCapital
  apply ofToken_of_isMixedCase
  rw [Bech32.isMixedCase_iff]
  exact ⟨⟨small, smallListed, isSmall⟩, capital, capitalListed, isCapital⟩

/-- The token of a note reads in capital letters too, a secret key is refused under the same name,
and one capital letter among small ones is refused. -/
theorem ofToken_ignores_case_note :
    let note : Pointer := .note ⟨List.replicate 32 0xab, rfl⟩
    let token := "note14w46h2at4w46h2at4w46h2at4w46h2at4w46h2at4w46h2at4w4sfreljc"
    let mixed := "Note14w46h2at4w46h2at4w46h2at4w46h2at4w46h2at4w46h2at4w4sfreljc"
    let secret := "nsec10elfcs4fr0l0r8af98jlmgdh9c8tcxjvz9qkw038js35mp4dma8qw6eqda"
    (∀ text ∈ [token, secret], ∀ character ∈ text.toList, character.isUpper = false) ∧
      ofToken token.toUpper = .ok note ∧
      ofToken secret.toUpper = .error (.unsupportedPrefix "nsec") ∧
      ('N' ∈ mixed.toList ∧ 'o' ∈ mixed.toList) ∧
      ∃ fault, (fault = Bech32.Fault.tooLong ∨ fault = .mixedCase) ∧
        ofToken mixed = .error (.bech32 fault.message) := by
  intro note token mixed secret
  have small : ∀ text ∈ [token, secret], ∀ character ∈ text.toList, character.isUpper = false := by
    have listed : ∀ text ∈ [token, secret], text.toList.all (!·.isUpper) = true := by
      decide +kernel
    intro text member
    simpa using listed text member
  have read : ofToken token = .ok note := by
    decide +kernel
  have refused : ofToken secret = .error (.unsupportedPrefix "nsec") := by
    decide +kernel
  have capital : 'N' ∈ mixed.toList := by
    decide +kernel
  have other : 'o' ∈ mixed.toList := by
    decide +kernel
  obtain ⟨folded, mixture, _⟩ := ofToken_ignores_case
  refine ⟨small, ?_, ?_, ⟨capital, other⟩, mixture mixed 'o' other 'N' capital rfl rfl⟩
  · rw [folded token (small token (by simp)), read]
  · rw [folded secret (small secret (by simp)), refused]

end Pointer

end NostrCapsule
