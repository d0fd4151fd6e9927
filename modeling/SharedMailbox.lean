import SharedMailbox.Demo.Script
import SharedMailbox.Proofs.Region
import SharedMailbox.Proofs.Staging
import SharedMailbox.Proofs.Routing
import SharedMailbox.Proofs.View
import SharedMailbox.Proofs.Sending
import SharedMailbox.Proofs.Receiving
import SharedMailbox.Proofs.Story
import SharedMailbox.Proofs.Steps
import SharedMailbox.Proofs.Ownership
import SharedMailbox.Proofs.Orderly
import SharedMailbox.Proofs.GivenUp
import SharedMailbox.Proofs.Ledger
import SharedMailbox.Proofs.Delivery
import SharedMailbox.Proofs.Held
import SharedMailbox.Proofs.Stale
import SharedMailbox.Proofs.Footprint
import SharedMailbox.Proofs.Acting
import SharedMailbox.Proofs.Writers
import SharedMailbox.Proofs.Answers
import SharedMailbox.Proofs.Observed
import SharedMailbox.Proofs.Tally
import SharedMailbox.Proofs.Conservation
import SharedMailbox.Proofs.Partition
import SharedMailbox.Proofs.Standing
import SharedMailbox.Proofs.Image
import SharedMailbox.Proofs.Nesting
import SharedMailbox.Proofs.Posting
import SharedMailbox.Proofs.Wiring
import SharedMailbox.Proofs.Attaching
import SharedMailbox.Proofs.Texts
import SharedMailbox.Proofs.LinkTexts
import SharedMailbox.Proofs.Stamps
import SharedMailbox.Proofs.Releasing
import SharedMailbox.Proofs.Requests
import SharedMailbox.Proofs.Frames
import SharedMailbox.Proofs.Reading
import SharedMailbox.Proofs.Records
import SharedMailbox.Proofs.Outcomes
import SharedMailbox.Proofs.Negotiation
import SharedMailbox.Proofs.Rest
import SharedMailbox.Proofs.Gathering
import SharedMailbox.Proofs.Passing
import SharedMailbox.Proofs.Scripts
import SharedMailbox.Proofs.Numerals
import SharedMailbox.Proofs.Dialogue
import SharedMailbox.Proofs.Demonstration
import SharedMailbox.Proofs.LinkGrammar
import SharedMailbox.Proofs.RequestGrammar
import SharedMailbox.Proofs.Binding
import SharedMailbox.Proofs.Deadlines
import SharedMailbox.Proofs.Alignment
import SharedMailbox.Proofs.Lengths
import SharedMailbox.Proofs.Names
import SharedMailbox.Proofs.Commuting
