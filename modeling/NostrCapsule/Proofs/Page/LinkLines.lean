import NostrCapsule.Proofs.Identifier.OneLine
import NostrCapsule.Proofs.Page.PortalIdentifier

/-!
Contract: a link line is broken by its label only, or by the address that it leads to.

The links of an event are made from its identifiers and from the settings.  So they are one line
each, as long as the addresses of the portals are.

Owns: link lines, links to portals with their number, and the links of an event.

Does not own: labels.
-/

namespace NostrCapsule

open Text

/-! ## Link lines -/

@[simp] theorem isOneLine_linkLine {url label : String} :
    IsOneLine (linkLine url label) ↔ IsOneLine url ∧ IsOneLine label := by
  have mark : IsOneLine "=> " := by decide
  have space : IsOneLine " " := by decide
  have nothing : IsOneLine "" := by decide
  unfold linkLine
  split
  · next empty => simp [String.isEmpty_iff.mp empty, mark, nothing]
  · simp [mark, space]

namespace PortalLink

theorem afterScheme?_subset {characters rest : List Char}
    (found : afterScheme? characters = some rest) : rest ⊆ characters := by
  fun_induction afterScheme? characters with
  | case1 => cases found
  | case2 after =>
      cases found
      intro character member
      exact List.mem_cons_of_mem _ (List.mem_cons_of_mem _ (List.mem_cons_of_mem _ member))
  | case3 first after _ inductionHypothesis =>
      intro character member
      exact List.mem_cons_of_mem _ (inductionHypothesis found member)

theorem isOneLine_host {base : String} (whole : IsOneLine base) : IsOneLine (host base) := by
  have within : (afterScheme? base.toList).getD base.toList ⊆ base.toList := by
    cases found : afterScheme? base.toList with
    | none => exact List.Subset.refl _
    | some rest => exact afterScheme?_subset found
  unfold host
  dsimp only
  split
  · exact whole
  · rw [isOneLine_ofList]
    exact fun present => whole (within (List.takeWhile_subset _ present))

theorem isOneLine_line_ofPortal {identifier base : String} (token : IsOneLine identifier)
    (whole : IsOneLine base) : IsOneLine (ofPortal identifier base).line := by
  rw [line, isOneLine_linkLine, ofPortal]
  constructor
  · rw [isOneLine_append]
    refine ⟨?_, token⟩
    unfold withSlash
    split
    · exact whole
    · rw [isOneLine_append]
      exact ⟨whole, by decide⟩
  · rw [isOneLine_append]
    exact ⟨by decide, isOneLine_host whole⟩

variable {identifier : String} {portals : List String}

theorem isOneLine_of_mem_ofPortals (token : IsOneLine identifier)
    (plain : ∀ portal ∈ portals, IsOneLine portal) {link : PortalLink}
    (member : link ∈ ofPortals identifier portals) : IsOneLine link.line := by
  obtain ⟨base, trimmed, rfl⟩ := List.mem_map.mp member
  obtain ⟨portal, listed, found⟩ := List.mem_filterMap.mp trimmed
  exact isOneLine_line_ofPortal token (isOneLine_of_trimmed? (plain portal listed) found)

def usable (portals : List String) : List String :=
  portals.filter fun portal => !isAllBlank portal

theorem filterMap_trimmed? (portals : List String) :
    portals.filterMap trimmed? = (usable portals).map trim := by
  induction portals with
  | nil => rfl
  | cons portal rest inductionHypothesis =>
      unfold usable at inductionHypothesis ⊢
      by_cases blank : isAllBlank portal
      · have unused : trimmed? portal = none := if_pos blank
        rw [List.filterMap_cons_none unused, List.filter_cons_of_neg (by simp [blank]),
          inductionHypothesis]
      · have used : trimmed? portal = some (trim portal) := if_neg blank
        rw [List.filterMap_cons_some used, List.filter_cons_of_pos (by simp [blank]),
          List.map_cons, inductionHypothesis]

theorem ofPortals_eq (identifier : String) (portals : List String) :
    ofPortals identifier portals =
      (usable portals).map fun portal => ofPortal identifier (trim portal) := by
  rw [ofPortals, filterMap_trimmed?, List.map_map]
  rfl

/-- There is one link for each portal that is not blank. -/
theorem length_ofPortals (identifier : String) (portals : List String) :
    (ofPortals identifier portals).length = portals.countP fun portal => !isAllBlank portal := by
  rw [ofPortals_eq, List.length_map, usable, List.countP_eq_length_filter]

theorem ofPortals_eq_nil_iff {identifier : String} {portals : List String} :
    ofPortals identifier portals = [] ↔ usable portals = [] := by
  rw [ofPortals_eq, List.map_eq_nil_iff]

end PortalLink

namespace Event

variable {σ : Type} {source : Source σ} {state : σ} {event : Event} {settings : Settings}

/-- The links of an event are one line each, if the portals are and the identifier is. -/
theorem isOneLine_of_mem_linkLines (plain : ∀ portal ∈ settings.portals, IsOneLine portal)
    (id : IsOneLine event.id) :
    ∀ link ∈ ((event.linkLines settings).run source state).1, IsOneLine link := by
  have each : ∀ link ∈
      ((event.portalLinks settings.portals settings.relayHintLimit).run source state).1,
      IsOneLine link.line := by
    unfold portalLinks portalIdentifier
    split
    · exact fun link member => nomatch member
    · simp only [bind_assoc, pure_bind, Lookup.run_bind]
      split
      · next token found =>
          obtain ⟨pointer, written⟩ := exists_toToken_of_tokenWith? found
          intro link member
          exact PortalLink.isOneLine_of_mem_ofPortals (Pointer.isOneLine_of_toToken written) plain
            member
      · exact fun link member => nomatch member
  intro link member
  simp only [linkLines, Lookup.run_bind] at member
  split at member
  · rw [Lookup.run_pure, List.mem_singleton] at member
    rw [member, ownLink, isOneLine_linkLine]
    exact ⟨Pointer.isOneLine_notePath.mpr id, by decide⟩
  · rw [Lookup.run_pure] at member
    obtain ⟨portal, listed, rfl⟩ := List.mem_map.mp member
    exact each portal listed

end Event

end NostrCapsule
