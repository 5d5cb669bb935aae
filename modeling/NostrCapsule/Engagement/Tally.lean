import NostrCapsule.Json.Value
import NostrCapsule.Lookup.Basic
import NostrCapsule.Text.Basic
import NostrCapsule.Text.Hex

/-!
Contract: how an event was received: replies, reactions and payments.

Owns:
- `Engagement`, the counts of reactions by content, and the line that sums them up;
- the amount of a payment, the count over events that name an event, and `Engagement.tally`.

Does not own: which events a store finds.
-/

namespace NostrCapsule

/-- Counts in the order of their keys. -/
abbrev Counts := List (String × Nat)

/-- Adds to the count of a key, which takes its place in the order if it is new. -/
def Counts.add (key : String) (amount : Nat) : Counts → Counts
  | [] => [(key, amount)]
  | (other, count) :: rest =>
      if key = other then (other, count + amount) :: rest
      else if key < other then (key, amount) :: (other, count) :: rest
      else (other, count) :: Counts.add key amount rest

def Counts.ofList (entries : List (String × Nat)) : Counts :=
  entries.foldl (fun counts entry => counts.add entry.1 entry.2) []

/-- How an event was received.  Payments are in thousandths of a sat. -/
structure Engagement where
  replies : Nat := 0
  reactions : Nat := 0
  reactionsByContent : Counts := []
  zapMsats : Nat := 0
deriving DecidableEq, Repr

namespace Engagement

def isEmpty (engagement : Engagement) : Bool :=
  engagement.replies == 0 && engagement.reactions == 0 && engagement.zapMsats == 0

def sats (engagement : Engagement) : Nat :=
  engagement.zapMsats / 1000

def counted (count : Nat) (one many : String) : String :=
  if count = 1 then "1 " ++ one else toString count ++ " " ++ many

def breakdown (counts : Counts) : String :=
  ", ".intercalate (counts.map fun (content, count) => content ++ " " ++ toString count)

/-- The parts of the line: what there is of replies, reactions and payments. -/
def parts (engagement : Engagement) : List String :=
  (if engagement.replies = 0 then [] else [counted engagement.replies "reply" "replies"])
    ++ (if engagement.reactions = 0 then []
        else [counted engagement.reactions "reaction" "reactions"
          ++ " (" ++ breakdown engagement.reactionsByContent ++ ")"])
    ++ (if engagement.zapMsats = 0 then [] else [toString engagement.sats ++ " sats"])

/-- One line with all counts, unless there is nothing to tell. -/
def line? (engagement : Engagement) : Option String :=
  if engagement.isEmpty then none else some (" · ".intercalate engagement.parts)

end Engagement

/-! ## Counting -/

namespace Engagement

def zapCeiling : Nat := UInt64.size - 1

def addZap (sum amount : Nat) : Nat :=
  min zapCeiling (sum + amount)

/-- What a reaction is counted under: its trimmed content, or a plus sign if that is empty. -/
def reactionKey (content : String) : String :=
  (Text.trimmed? content).getD "+"

/-- The tags of the request that a payment answers. -/
def requestTags? (description : String) : Option (List (List String)) := do
  let json ← Json.parse? description
  match ← json.fields? ["tags"] with
  | [tags] => Json.optional? [] (Json.asList? (Json.asList? Json.asText?)) tags
  | _ => none

/-- The amount that a receipt shows: that of the first amount tag of its request.  What is
missing or malformed counts as zero. -/
def zapAmount (receipt : Event) : Nat :=
  ((do
    let description ← receipt.tagValue? "description"
    let tags ← requestTags? description
    let tag ← tags.find? fun tag => tag.head? == some "amount"
    let amount ← tag[1]?
    Text.unsigned64? amount) : Option Nat).getD 0

def count (engagement : Engagement) (event : Event) : Engagement :=
  if event.isKind .textNote then { engagement with replies := engagement.replies + 1 }
  else if event.isKind .reaction then
    { engagement with
      reactions := engagement.reactions + 1
      reactionsByContent := engagement.reactionsByContent.add (reactionKey event.content) 1 }
  else if event.isKind .zapReceipt then
    { engagement with zapMsats := addZap engagement.zapMsats (zapAmount event) }
  else engagement

def ofEvents (events : List Event) : Engagement :=
  events.foldl count {}

def filterFor (id : String) : Filter :=
  { kinds := some [KnownKind.textNote.code, KnownKind.reaction.code, KnownKind.zapReceipt.code]
    tags := [('e', [id])] }

/-- The engagement with an event; nothing if the store refuses. -/
def tally (id : String) : Lookup Engagement := do
  pure (ofEvents (← Lookup.eventsOrNone (filterFor id)))

end Engagement

end NostrCapsule
