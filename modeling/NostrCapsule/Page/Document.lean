import NostrCapsule.Engagement.Tally
import NostrCapsule.Page.Conversation
import NostrCapsule.Page.Reflow
import NostrCapsule.Thread.Fetch

/-!
Contract: whole pages.

A page is a list of entries, joined by line feeds and broken to the width that is set.  Every
page is written: what is unknown becomes a notice of one line, and a store that refuses costs
names only.

Owns: the pages of free text, notes, authors and threads.

Does not own: links, names and trees.
-/

namespace NostrCapsule.Edition

def finish (edition : Edition) (entries : List String) : String :=
  reflow edition.settings.lineWidth (Text.unlines entries)

/-! ## Sections -/

def entityLinks (edition : Edition) (entity : Entity) : List String :=
  linkLine entity.linkPath entity.displayName
    :: (PortalLink.ofEntity entity edition.settings.portals).map PortalLink.line

/-- An empty entry, a heading and the entries below it; nothing if there are none. -/
def headed (heading : String) (entries : List String) : List String :=
  if entries.isEmpty then [] else "" :: heading :: entries

/-- The section with the links of each distinct entity. -/
def references (edition : Edition) (entities : List Entity) : List String :=
  headed "## References" ((Entity.distinct entities).flatMap edition.entityLinks)

/-! ## Free text -/

def textPage (edition : Edition) (text : String) : Lookup String := do
  let expansion ← expandNames text
  pure (edition.finish (expansion.text :: edition.references expansion.entities))

/-! ## Notes -/

def noteNotFound : String := "Note not found."

structure NoteParts where
  heading : String
  authorLink : String
  age : String
  body : String
  references : List String
  engagement : Option String
  links : List String
deriving DecidableEq, Repr

def NoteParts.above (parts : NoteParts) : List String :=
  [parts.heading, parts.authorLink, parts.age, ""]

def NoteParts.below (parts : NoteParts) : List String :=
  parts.references ++ (parts.engagement.toList.flatMap fun line => ["", line])
    ++ ("" :: "## Elsewhere" :: parts.links)

def NoteParts.entries (parts : NoteParts) : List String :=
  parts.above ++ parts.body :: parts.below

/-- The heading of a note: its title, or its author. -/
def noteHeading (event : Event) (author : String) : String :=
  "# " ++ (event.title?.bind Text.trimmed?).getD ("Note by " ++ author)

/-- The parts of a note's page.  The author is asked for first, then the references of the
content, then the relays of the author. -/
def noteParts (edition : Edition) (event : Event) (engagement : Engagement) :
    Lookup NoteParts := do
  let author ← Naming.profileName event.pubkey
  let expansion ← expandNames event.content
  let links ← event.linkLines edition.settings
  pure
    { heading := noteHeading event author
      authorLink := linkLine (Pointer.profilePath event.pubkey) author
      age := edition.age event
      body := expansion.text
      references := edition.references expansion.entities
      engagement := engagement.line?
      links }

def noteText (edition : Edition) (event : Event) (engagement : Engagement) : Lookup String := do
  pure (edition.finish (← edition.noteParts event engagement).entries)

def notePage (edition : Edition) (id : String) : Lookup String := do
  match ← Lookup.fetchEvent id with
  | some event => do edition.noteText event (← Engagement.tally event.id)
  | none => pure noteNotFound

/-! ## Authors -/

def recentNoteLimit : Nat := 10

def aboutExpansion (profile : Profile) : Lookup (Option Expansion) := do
  match profile.about.bind Text.trimmed? with
  | some about => do pure (some (← expandNames about))
  | none => pure none

/-- The ways to reach an author, after an empty entry if there are any. -/
def contacts (profile : Profile) : List String :=
  let lines :=
    ((profile.website.bind Text.trimmed?).map fun website => linkLine website "Website").toList
      ++ ((profile.nip05.bind Text.trimmed?).map ("NIP-05: " ++ ·)).toList
      ++ ((profile.lud16.bind Text.trimmed?).map ("Lightning: " ++ ·)).toList
  if lines.isEmpty then [] else "" :: lines

/-- The entries of a note in the list of recent ones. -/
def recentNote (edition : Edition) (note : Event) : Lookup (List String) := do
  let summary ← summarize edition.settings note.content
  pure ["* " ++ summary ++ " (" ++ edition.age note ++ ")", note.ownLink]

def recentEntries (edition : Edition) : List Event → Lookup (List String)
  | [] => pure []
  | note :: rest => do
      let first ← edition.recentNote note
      let others ← edition.recentEntries rest
      pure (first ++ others)

/-- The section with links to portals for an author whose key has a token. -/
def authorPortals (edition : Edition) (pubkey : String) : List String :=
  match keyToken pubkey with
  | .ok token =>
      headed "## Elsewhere"
        ((PortalLink.ofPortals token edition.settings.portals).map PortalLink.line)
  | .error _ => []

/-- The page of an author: name, description, contacts, recent notes and links. -/
def profilePage (edition : Edition) (pubkey : String) : Lookup String := do
  let name ← Naming.profileName pubkey
  let profile := (← Naming.profile pubkey).getD {}
  let about ← aboutExpansion profile
  let notes ← Lookup.eventsOrNone (.byAuthor pubkey .textNote recentNoteLimit)
  let recent ← edition.recentEntries notes
  pure (edition.finish
    (("# " ++ name)
      :: ((about.toList.flatMap fun expansion => ["", expansion.text])
        ++ contacts profile
        ++ headed "## Recent notes" recent
        ++ edition.references (about.toList.flatMap Expansion.entities)
        ++ edition.authorPortals pubkey)))

/-! ## Threads -/

/-- The page of the thread around an event.  Only its heading is broken to the width. -/
def threadPage (edition : Edition) (focusId : String) : Lookup String := do
  match ← Thread.fetch focusId with
  | none => pure threadNotFound
  | some thread => do
      pure (edition.finish ["# Thread", ""] ++ "\n" ++ (← edition.threadText focusId thread))

end NostrCapsule.Edition
