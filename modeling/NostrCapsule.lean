import NostrCapsule.Lookup.Meter
import NostrCapsule.Main
import NostrCapsule.Proofs.Identifier.CanonicalToken
import NostrCapsule.Proofs.Identifier.HexDigits
import NostrCapsule.Proofs.Page.Degradation
import NostrCapsule.Proofs.Page.DepthLimit
import NostrCapsule.Proofs.Page.NoteLines
import NostrCapsule.Proofs.Page.Structure
import NostrCapsule.Proofs.Page.FewestLines
import NostrCapsule.Proofs.Page.Settled
import NostrCapsule.Proofs.Reference.Consultation
import NostrCapsule.Proofs.Store.Selection
import NostrCapsule.Proofs.Thread.Placement
import NostrCapsule.Proofs.Thread.SiblingOrder
import NostrCapsule.Proofs.Thread.ReplyOrder
import NostrCapsule.Proofs.Thread.Fetching
import NostrCapsule.Proofs.Page.ThreadMarks
import NostrCapsule.Proofs.Store.Order
import NostrCapsule.Proofs.Store.RelayList
import NostrCapsule.Proofs.Reference.Repetition
import NostrCapsule.Proofs.Reference.Composition
import NostrCapsule.Proofs.Reference.Separation
import NostrCapsule.Proofs.Reference.WrittenToken
import NostrCapsule.Proofs.Reference.Leftmost
import NostrCapsule.Proofs.Page.HintRoom
import NostrCapsule.Proofs.CommandLine.Independence
import NostrCapsule.Proofs.Reference.Steady
import NostrCapsule.Proofs.Engagement.Totals
import NostrCapsule.Proofs.Store.ReadingRelays
import NostrCapsule.Proofs.Reference.StoreGrowth
import NostrCapsule.Proofs.Identifier.SpelledIds
import NostrCapsule.Proofs.Identifier.LetterCase
import NostrCapsule.Proofs.Identifier.LinkPath
import NostrCapsule.Proofs.Store.Loading
import NostrCapsule.Proofs.Page.Summaries
import NostrCapsule.Proofs.Reference.DistinctEntities
import NostrCapsule.Proofs.Page.EventLinks
import NostrCapsule.Proofs.Page.EntityLinks
import NostrCapsule.Proofs.Reference.Neighbours
import NostrCapsule.Proofs.Identifier.KeptDigits
import NostrCapsule.Proofs.Event.ThreadReferences
