import NostrCapsule.Calendar.Date
import NostrCapsule.Page.Link
import NostrCapsule.Reference.Expansion
import NostrCapsule.Text.Basic
import NostrCapsule.Thread.Forest

/-!
Contract: threads as indented lists.

Owns:
- `summarize`, the one-line form of a content;
- the rows of a thread: its events in preorder down to a depth, and a mark for what is hidden;
- the lines of rows.

Does not own: the thread itself.
-/

namespace NostrCapsule

/-- What a page is written with: the settings, and the time at which ages are told. -/
structure Edition where
  settings : Settings
  now : Int
deriving DecidableEq, Repr

/-- A content on one line: its references named, its white space collapsed, and its length
limited. -/
def summarize (settings : Settings) (content : String) : Lookup String := do
  let expansion ← expandNames content
  pure (Text.truncate settings.summaryLength settings.summaryEllipsis
    (Text.collapse expansion.text))

/-- What stands for the replies below the last depth shown. -/
def hiddenMarker : String := "… additional replies hidden"

def threadNotFound : String := "Thread not found."

/-- A row of a thread: an event, or the mark for events that are hidden, at a depth. -/
inductive Row where
  | shown (depth : Nat) (event : Event)
  | hidden (depth : Nat)
deriving DecidableEq, Repr

/-- The rows of a forest whose top has a depth.  At the limit and below it a tree is one mark. -/
def Forest.rows (limit depth : Nat) : Forest → List Row
  | .empty => []
  | .branch event replies siblings =>
      (if limit ≤ depth then [.hidden depth]
       else .shown depth event :: replies.rows limit (depth + 1))
        ++ siblings.rows limit depth

def Thread.rows (limit depth : Nat) (thread : Thread) : List Row :=
  thread.toForest.rows limit depth

namespace Edition

def indent (edition : Edition) (depth : Nat) : String :=
  Text.repeated depth edition.settings.threadIndent

def age (edition : Edition) (event : Event) : String :=
  ageText event.createdAt edition.now

/-- The marks of an event in a thread: whether it is the root, and whether it is the one that the
reader came for. -/
def marks (focusId : String) (depth : Nat) (event : Event) : List String :=
  (if depth = 0 then ["root"] else []) ++ (if event.id = focusId then ["you are here"] else [])

/-- Marks in brackets; nothing if there are none. -/
def marksText (marks : List String) : String :=
  if marks.isEmpty then "" else " [" ++ ", ".intercalate marks ++ "]"

def bullet (edition : Edition) (focusId : String) (depth : Nat) (event : Event)
    (summary : String) : String :=
  edition.indent depth ++ "* " ++ summary ++ " (" ++ edition.age event ++ ")"
    ++ marksText (marks focusId depth event)

/-- The entries of a row: a bullet with the links of its event, or the mark. -/
def rowEntries (edition : Edition) (focusId : String) : Row → Lookup (List String)
  | .hidden depth => pure [edition.indent depth ++ hiddenMarker]
  | .shown depth event => do
      let summary ← summarize edition.settings event.content
      let links ← event.linkLines edition.settings
      pure (edition.bullet focusId depth event summary :: links)

def rowsEntries (edition : Edition) (focusId : String) : List Row → Lookup (List String)
  | [] => pure []
  | row :: rest => do
      let first ← edition.rowEntries focusId row
      let others ← edition.rowsEntries focusId rest
      pure (first ++ others)

/-- The entries of a thread whose root has a depth, down to a greatest depth. -/
def threadEntries (edition : Edition) (focusId : String) (maxDepth depth : Nat)
    (thread : Thread) : Lookup (List String) :=
  edition.rowsEntries focusId (thread.rows (effectiveDepth maxDepth) depth)

def threadText (edition : Edition) (focusId : String) (thread : Thread) : Lookup String := do
  pure (Text.unlines
    (← edition.threadEntries focusId edition.settings.maxThreadDepth 0 thread))

/-- A thread as text, or the words for one that was not found. -/
def threadOrNotice (edition : Edition) (focusId : String) : Option Thread → Lookup String
  | some thread => edition.threadText focusId thread
  | none => pure threadNotFound

end Edition

end NostrCapsule
