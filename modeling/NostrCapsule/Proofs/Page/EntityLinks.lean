import NostrCapsule.Proofs.Identifier.CanonicalToken
import NostrCapsule.Proofs.Page.LinkLines
import NostrCapsule.Proofs.Reference.Glossary
import NostrCapsule.Store.Loading

/-!
Contract: the portal links of a reference lead to its token as it is spelled.

A pointer has one canonical token and may have other spellings: another order of the entries, an
entry more, the other variant of the checksum, capital letters.  A link is made from the text of the
reference, not from the pointer, so each spelling has links of its own.  No address ends in two
spellings of one pointer, for the separator shows where a token begins.

Owns:
- `Pointer.eq_of_suffix_of_ofToken`, a spelling at the end of another one;
- `Entity.portalLinks_follow_spelling`.

Does not own: the links that are made for events.
-/

namespace NostrCapsule

open Text

namespace Pointer

theorem decode_of_ofToken {token : String} {pointer : Pointer}
    (read : ofToken token = .ok pointer) :
    ∃ octets, Bech32.decode token = .ok (pointer.kind.tokenPrefix, octets) ∧
      pointer.HasShortTexts ∧ pointer.payloadSize ≤ octets.length := by
  obtain ⟨kind, octets, decoded, spelled⟩ := ofToken_eq_ok read
  obtain ⟨rfl, short, room⟩ := writable_of_ofOctets? spelled
  exact ⟨octets, decoded, short, room⟩

/-- What was read from a token can be written as one. -/
theorem isEncodable_of_ofToken {token : String} {pointer : Pointer}
    (read : ofToken token = .ok pointer) : pointer.IsEncodable := by
  obtain ⟨octets, decoded, short, room⟩ := decode_of_ofToken read
  obtain ⟨noLonger, fits⟩ := Bech32.length_encodeChars_le_of_decode decoded
  have size := Nat.le_trans noLonger fits
  rw [Bech32.length_encodeChars, String.length_toList] at size
  refine ⟨short, ?_⟩
  rw [tokenSize]
  omega

/-- In small letters, a text that ends in a spelling is cut where the prefix of the spelling ends,
whatever stands in front. -/
theorem splitSeparator_of_ofToken {token : String} {pointer : Pointer}
    (read : ofToken token = .ok pointer) (front : List Char) :
    ∃ body, Bech32.splitSeparator ((front ++ token.toList).map Char.toLower) =
      some (front.map Char.toLower ++ pointer.kind.tokenPrefix.toList, body) := by
  obtain ⟨_, decoded, _, _⟩ := decode_of_ofToken read
  obtain ⟨body, spelled, letters⟩ := Bech32.exists_body_of_decode decoded
  have separated : '1' ∉ body := fun member => absurd (letters _ member) (by decide)
  refine ⟨body, ?_⟩
  rw [List.map_append, spelled, ← List.append_assoc, Bech32.splitSeparator_append separated]

/-- A text that ends in one spelling of a pointer ends in no other. -/
theorem eq_of_suffix_of_ofToken {left right : String} {pointer : Pointer}
    (readLeft : ofToken left = .ok pointer) (readRight : ofToken right = .ok pointer)
    {front : List Char} (within : left.toList <:+ front ++ right.toList) : left = right := by
  obtain ⟨before, whole⟩ := within
  obtain ⟨_, cutLeft⟩ := splitSeparator_of_ofToken readLeft before
  obtain ⟨_, cutRight⟩ := splitSeparator_of_ofToken readRight front
  rw [whole, cutRight] at cutLeft
  have started := List.append_cancel_right (congrArg Prod.fst (Option.some.inj cutLeft))
  have places : before.length = front.length := by
    rw [← List.length_map Char.toLower, ← started, List.length_map]
  exact String.toList_injective (List.append_inj_right whole places)

end Pointer

namespace PortalLink

theorem ofPortal_injective {base : String} : Function.Injective fun identifier =>
    ofPortal identifier base := by
  intro left right same
  exact String.append_right_inj _ |>.mp (congrArg PortalLink.url same)

/-- Links to two identifiers are the same only if there are none. -/
theorem ofPortals_eq_ofPortals_iff {left right : String} {portals : List String} :
    ofPortals left portals = ofPortals right portals ↔ left = right ∨ usable portals = [] := by
  rw [ofPortals_eq, ofPortals_eq]
  cases usable portals with
  | nil => simp
  | cons portal rest =>
      constructor
      · intro same
        exact .inl (ofPortal_injective (List.cons.inj same).1)
      · rintro (rfl | empty)
        · rfl
        · cases empty

theorem exists_toList_url_of_mem_ofPortals {identifier : String} {portals : List String}
    {link : PortalLink} (member : link ∈ ofPortals identifier portals) :
    ∃ front, link.url.toList = front ++ identifier.toList := by
  obtain ⟨base, _, rfl⟩ := List.mem_map.mp member
  exact ⟨(withSlash base).toList, String.toList_append⟩

end PortalLink

namespace Entity

variable {σ : Type}

/-- A token that resolves has a canonical spelling, but the portal links of its entity are made from
the spelling that was read.  So they end in the canonical one exactly if the token is canonical, and
two spellings have the same links exactly if they are the same or there is no portal. -/
theorem portalLinks_follow_spelling (source : Source σ) (state : σ) {token : String}
    {entity : Entity} (resolved : ((resolve token).run source state).1 = .ok entity)
    (portals : List String) :
    ∃ pointer canonical, Pointer.ofToken token = .ok pointer ∧
      pointer.toToken = .ok canonical ∧
      PortalLink.ofEntity entity portals =
        (PortalLink.usable portals).map (fun portal =>
          PortalLink.ofPortal token (trim portal)) ∧
      (∀ link ∈ PortalLink.ofEntity entity portals,
        token.toList <:+ link.url.toList ∧
          (canonical.toList <:+ link.url.toList ↔ token = canonical)) ∧
      ∀ other otherEntity otherState, Pointer.ofToken other = .ok pointer →
        ((resolve other).run source otherState).1 = .ok otherEntity →
          (PortalLink.ofEntity otherEntity portals = PortalLink.ofEntity entity portals ↔
            other = token ∨ PortalLink.usable portals = []) := by
  obtain ⟨pointer, read, _, _, spelled, _⟩ := of_run_resolve resolved
  obtain ⟨canonical, written⟩ := Pointer.isEncodable_iff.mp (Pointer.isEncodable_of_ofToken read)
  have links : PortalLink.ofEntity entity portals = PortalLink.ofPortals token portals := by
    rw [PortalLink.ofEntity, identifier_of_spelling spelled]
  refine ⟨pointer, canonical, read, written, ?_, ?_, ?_⟩
  · rw [links, PortalLink.ofPortals_eq]
  · intro link member
    rw [links] at member
    obtain ⟨front, address⟩ := PortalLink.exists_toList_url_of_mem_ofPortals member
    rw [address]
    refine ⟨List.suffix_append _ _, ?_, ?_⟩
    · exact fun ends =>
        (Pointer.eq_of_suffix_of_ofToken (Pointer.ofToken_of_toToken written) read ends).symm
    · rintro rfl
      exact List.suffix_append _ _
  · intro other otherEntity otherState readOther resolvedOther
    obtain ⟨_, _, _, _, spelledOther, _⟩ := of_run_resolve resolvedOther
    rw [links, PortalLink.ofEntity, identifier_of_spelling spelledOther,
      PortalLink.ofPortals_eq_ofPortals_iff]

/-- The token of a key with the other variant of the checksum: its portal link does not end in the
token that is written for the key, and it is not the link that this token has. -/
theorem portalLinks_follow_spelling_modified :
    let key : PublicKey := ⟨[0x7e, 0x7e, 0x9c, 0x42, 0xa9, 0x1b, 0xfe, 0xf1, 0x9f, 0xa9, 0x29, 0xe5,
      0xfd, 0xa1, 0xb7, 0x2e, 0x0e, 0xbc, 0x1a, 0x4c, 0x11, 0x41, 0x67, 0x3e, 0x27, 0x94, 0x23,
      0x4d, 0x86, 0xad, 0xdf, 0x4e], rfl⟩
    let token := "npub10elfcs4fr0l0r8af98jlmgdh9c8tcxjvz9qkw038js35mp4dma8qhszdw2"
    let canonical := "npub10elfcs4fr0l0r8af98jlmgdh9c8tcxjvz9qkw038js35mp4dma8qzvjptg"
    let source := (MemoryStore.empty.answers .background).source
    let portals := ["https://njump.me"]
    let entityOf (spelling : String) : Entity :=
      { kind := .pubkey
        displayName := Text.shortKey key.text
        linkPath := Pointer.profilePath key.text
        spelling := scheme ++ spelling }
    ((resolve token).run source ()).1 = .ok (entityOf token) ∧
      (Pointer.pubkey key).toToken = .ok canonical ∧
      (∀ link ∈ PortalLink.ofEntity (entityOf token) portals,
        ¬ canonical.toList <:+ link.url.toList) ∧
      PortalLink.ofEntity (entityOf canonical) portals ≠
        PortalLink.ofEntity (entityOf token) portals := by
  intro key token canonical source portals entityOf
  have read : Pointer.ofToken token = .ok (.pubkey key) := by
    decide +kernel
  have written : (Pointer.pubkey key).toToken = .ok canonical := by
    decide +kernel
  have resolved : ((resolve token).run source ()).1 = .ok (entityOf token) := by
    decide +kernel
  have resolvedCanonical : ((resolve canonical).run source ()).1 = .ok (entityOf canonical) := by
    decide +kernel
  have different : canonical ≠ token := by
    decide +kernel
  have usable : PortalLink.usable portals ≠ [] := by
    decide +kernel
  obtain ⟨pointer, other, readAs, writtenAs, _, ends, others⟩ :=
    portalLinks_follow_spelling source () resolved portals
  cases readAs.symm.trans read
  cases writtenAs.symm.trans written
  refine ⟨resolved, written, ?_, ?_⟩
  · intro link member within
    exact different ((ends link member).2.mp within).symm
  · intro same
    have readCanonical := Pointer.ofToken_of_toToken written
    rcases (others canonical _ () readCanonical resolvedCanonical).mp same with equal | none
    · exact different equal
    · exact usable none

/-- The portal link of a key does not end in the token that is written for the key. -/
theorem not_canonical_of_mem_portalLinks :
    ¬ ∀ (store : MemoryStore) (token : String) (entity : Entity) (portals : List String),
      (resolve token).answer (store.answers .background) = .ok entity →
        ∀ link ∈ PortalLink.ofEntity entity portals,
          ∃ canonical, canonicalToken token = .ok canonical ∧
            canonical.toList <:+ link.url.toList := by
  intro claimed
  let key := "7e7e9c42a91bfef19fa929e5fda1b72e0ebc1a4c1141673e2794234d86addf4e"
  let token := "npub10elfcs4fr0l0r8af98jlmgdh9c8tcxjvz9qkw038js35mp4dma8qhszdw2"
  let entity : Entity :=
    { kind := .pubkey
      displayName := "7e7e9c42...86addf4e"
      linkPath := "/profile/" ++ key
      spelling := "nostr:" ++ token }
  have resolved : (resolve token).answer (MemoryStore.empty.answers .background) = .ok entity := by
    decide +kernel
  have links : PortalLink.ofEntity entity ["https://njump.me/"] =
      [⟨"https://njump.me/" ++ token, "View on njump.me"⟩] := by
    decide +kernel
  have written : canonicalToken token =
      .ok "npub10elfcs4fr0l0r8af98jlmgdh9c8tcxjvz9qkw038js35mp4dma8qzvjptg" := by
    decide +kernel
  obtain ⟨canonical, writtenAs, ends⟩ := claimed .empty token entity _ resolved _
    (links ▸ List.mem_cons_self)
  cases writtenAs.symm.trans written
  revert ends
  decide +kernel

end Entity

end NostrCapsule
