import Mathlib.Data.List.Forall2
import NostrCapsule.Proofs.Page.LinkLines

/-!
Contract: every event has a link that can be followed.

Whether an event is linked to portals or to its own page depends on its identifier and on the
portals together: an identifier is of no use without a portal, and a portal that is white space is
none.

Owns:
- `PortalLink.IsLineTo`, the line that leads from a portal to an identifier;
- `linkLines_reach_event`.

Does not own: what the identifier of an event leads to.
-/

namespace NostrCapsule

open Text

namespace PortalLink

/-- A link line whose address is a portal without the white space around it, one slash unless it
ends in a slash, and an identifier. -/
def IsLineTo (identifier portal line : String) : Prop :=
  ∃ slash, (slash = "" ∧ ['/'] <:+ (trim portal).toList ∨
      slash = "/" ∧ ¬ ['/'] <:+ (trim portal).toList) ∧
    line = "=> " ++ (trim portal ++ slash ++ identifier) ++ " " ++
      ("View on " ++ host (trim portal))

variable {identifier portal line : String}

theorem IsLineTo.isLink (leads : IsLineTo identifier portal line) :
    "=> ".toList <+: line.toList := by
  obtain ⟨slash, _, rfl⟩ := leads
  simp only [String.toList_append, List.append_assoc]
  exact List.prefix_append _ _

theorem linkLine_of_label {url label : String} (named : label ≠ "") :
    linkLine url label = "=> " ++ url ++ " " ++ label :=
  if_neg fun empty => named (String.isEmpty_iff.mp empty)

theorem isLineTo_line_ofPortal (identifier portal : String) :
    IsLineTo identifier portal (ofPortal identifier (trim portal)).line := by
  have named : "View on " ++ host (trim portal) ≠ "" := by
    intro empty
    have characters := congrArg String.toList empty
    simp at characters
  have ends : (trim portal).toList.getLast? = some '/' ↔ ['/'] <:+ (trim portal).toList := by
    rw [List.getLast?_eq_some_iff]
    exact exists_congr fun _ => eq_comm
  rw [line, ofPortal, linkLine_of_label named, withSlash]
  by_cases slashed : ['/'] <:+ (trim portal).toList
  · rw [if_pos (ends.mpr slashed)]
    exact ⟨"", .inl ⟨rfl, slashed⟩, by rw [String.append_empty]⟩
  · rw [if_neg (slashed ∘ ends.mp)]
    exact ⟨"/", .inr ⟨rfl, slashed⟩, rfl⟩

/-- The lines of an identifier lead to it from one portal after the other. -/
theorem forall₂_isLineTo_ofPortals (identifier : String) (portals : List String) :
    List.Forall₂ (IsLineTo identifier) (usable portals)
      ((ofPortals identifier portals).map PortalLink.line) := by
  rw [ofPortals_eq, List.map_map, List.forall₂_map_right_iff, List.forall₂_same]
  exact fun portal _ => isLineTo_line_ofPortal identifier portal

end PortalLink

namespace Event

variable {σ : Type}

theorem ownLink_eq (event : Event) : event.ownLink = "=> /note/" ++ event.id ++ " View note" := by
  have start : "=> " ++ "/note/" = "=> /note/" := by decide +kernel
  have stop : " " ++ "View note" = " View note" := by decide +kernel
  rw [ownLink, PortalLink.linkLine_of_label (by decide), Pointer.notePath, ← String.append_assoc,
    start, String.append_assoc, stop]

section Run

variable (source : Source σ) (state : σ) (event : Event)

/-- An event is linked to the portals by the identifier that is made for it, if there is one. -/
theorem run_portalLinks (portals : List String) (hintLimit : Nat) :
    ((event.portalLinks portals hintLimit).run source state).1 =
      (((event.portalIdentifier hintLimit).run source state).1.map fun identifier =>
        PortalLink.ofPortals identifier portals).getD [] := by
  unfold portalLinks
  cases portals with
  | nil =>
      rw [List.isEmpty_nil, if_pos rfl]
      cases ((event.portalIdentifier hintLimit).run source state).1 <;> rfl
  | cons portal rest =>
      rw [List.isEmpty_cons, if_neg Bool.false_ne_true, Lookup.run_bind]
      split
      · next identifier found => rw [found]; rfl
      · next found => rw [found]; rfl

theorem run_linkLines (settings : Settings) :
    ((event.linkLines settings).run source state).1 =
      let links :=
        ((event.portalLinks settings.portals settings.relayHintLimit).run source state).1
      if links.isEmpty then [event.ownLink] else links.map PortalLink.line := by
  unfold linkLines
  rw [Lookup.run_bind]
  dsimp only
  split <;> rw [Lookup.run_pure]

/-- Without a portal, or without an identifier, there is the line to the event's own page alone. -/
theorem run_linkLines_of_unreachable {settings : Settings}
    (unreachable : PortalLink.usable settings.portals = [] ∨
      ((event.portalIdentifier settings.relayHintLimit).run source state).1 = none) :
    ((event.linkLines settings).run source state).1 = [event.ownLink] := by
  have none : ((event.portalLinks settings.portals settings.relayHintLimit).run source state).1 =
      [] := by
    rw [run_portalLinks]
    rcases unreachable with unusable | unnamed
    · cases ((event.portalIdentifier settings.relayHintLimit).run source state).1 with
      | none => rfl
      | some identifier => exact PortalLink.ofPortals_eq_nil_iff.mpr unusable
    · rw [unnamed]
      rfl
  rw [run_linkLines, none]
  rfl

theorem forall₂_isLineTo_linkLines {settings : Settings} {identifier : String}
    (reachable : PortalLink.usable settings.portals ≠ [])
    (named : ((event.portalIdentifier settings.relayHintLimit).run source state).1 =
      some identifier) :
    List.Forall₂ (PortalLink.IsLineTo identifier) (PortalLink.usable settings.portals)
      ((event.linkLines settings).run source state).1 := by
  have links : ((event.portalLinks settings.portals settings.relayHintLimit).run source state).1 =
      PortalLink.ofPortals identifier settings.portals := by
    rw [run_portalLinks, named]
    rfl
  have some : ¬ (PortalLink.ofPortals identifier settings.portals).isEmpty = true := by
    rw [List.isEmpty_iff, PortalLink.ofPortals_eq_nil_iff]
    exact reachable
  rw [run_linkLines, links]
  dsimp only
  rw [if_neg some]
  exact PortalLink.forall₂_isLineTo_ofPortals identifier settings.portals

end Run

/-- If an identifier can be made for an event and some portal is more than white space, the event
has one line for each such portal, in their order, and each leads to this identifier; if not, it has
the line to its own page and no other.  So it is never without a link. -/
theorem linkLines_reach_event (source : Source σ) (state : σ) (event : Event)
    (settings : Settings) :
    let lines := ((event.linkLines settings).run source state).1
    let identifier? := ((event.portalIdentifier settings.relayHintLimit).run source state).1
    let portals := PortalLink.usable settings.portals
    lines ≠ [] ∧ (∀ line ∈ lines, "=> ".toList <+: line.toList) ∧
      ((portals = [] ∨ identifier? = none) ∧
          lines = ["=> /note/" ++ event.id ++ " View note"] ∨
        portals ≠ [] ∧ ∃ identifier, identifier? = some identifier ∧
          List.Forall₂ (PortalLink.IsLineTo identifier) portals lines) := by
  intro lines identifier? portals
  by_cases unreachable : portals = [] ∨ identifier? = none
  · have own : lines = ["=> /note/" ++ event.id ++ " View note"] := by
      rw [← ownLink_eq]
      exact event.run_linkLines_of_unreachable source state unreachable
    refine ⟨?_, ?_, .inl ⟨unreachable, own⟩⟩
    · rw [own]
      exact List.cons_ne_nil _ _
    · rw [own, List.forall_mem_singleton, String.toList_append, String.toList_append,
        List.append_assoc]
      exact List.prefix_append_of_prefix (by decide)
  · rw [not_or] at unreachable
    obtain ⟨reachable, known⟩ := unreachable
    obtain ⟨identifier, named⟩ := Option.ne_none_iff_exists'.mp known
    have each : List.Forall₂ (PortalLink.IsLineTo identifier) portals lines :=
      event.forall₂_isLineTo_linkLines source state reachable named
    have marked : List.Forall₂ (fun line portal => "=> ".toList <+: line.toList ∧
        PortalLink.IsLineTo identifier portal line) lines portals := by
      apply List.Forall₂.flip
      exact each.imp fun portal line leads => ⟨leads.isLink, leads⟩
    refine ⟨?_, ((List.forall₂_and_left lines portals).mp marked).1,
      .inr ⟨reachable, identifier, named, each⟩⟩
    intro none
    rw [none] at each
    exact reachable (List.forall₂_nil_right_iff.mp each)

end Event

end NostrCapsule
