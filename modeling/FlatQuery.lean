import FlatQuery.Main
import FlatQuery.Text.Utf8.RoundTrip
import FlatQuery.Text.Utf8.Blocks
import FlatQuery.Proofs.Cutting
import FlatQuery.Proofs.Queue
import FlatQuery.Proofs.Lexical
import FlatQuery.Proofs.Lockstep
import FlatQuery.Proofs.Answer
import FlatQuery.Proofs.Phrase
import FlatQuery.Proofs.Reading
import FlatQuery.Proofs.Acceptance
import FlatQuery.Proofs.Selecting
import FlatQuery.Proofs.Atomicity
import FlatQuery.Proofs.Recovery
import FlatQuery.Proofs.Composition
import FlatQuery.Proofs.Questions
import FlatQuery.Proofs.Invariance
import FlatQuery.Proofs.Lines
import FlatQuery.Proofs.Encoding
import FlatQuery.Proofs.Registry
import FlatQuery.Proofs.Reports
import FlatQuery.Proofs.Reload
import FlatQuery.Proofs.Feeding
import FlatQuery.Proofs.Frame
import FlatQuery.Proofs.Parallel
import FlatQuery.Proofs.Requests
import FlatQuery.Proofs.Prompts
import FlatQuery.Proofs.Supply
import FlatQuery.Proofs.Scripts
import FlatQuery.Proofs.FrontEnds
import FlatQuery.Proofs.Loops
import FlatQuery.Proofs.Breaking
import FlatQuery.Proofs.Statuses
import FlatQuery.Proofs.Layout
import FlatQuery.Proofs.Rendering
import FlatQuery.Proofs.Resaving
import FlatQuery.Proofs.Visiting
import FlatQuery.Proofs.Creating
import FlatQuery.Proofs.Asking
import FlatQuery.Proofs.AllColumns
import FlatQuery.Proofs.Decoding
import FlatQuery.Proofs.Splitting
import FlatQuery.Proofs.Binding
import FlatQuery.Proofs.Adding
import FlatQuery.Proofs.Cursors
import FlatQuery.Proofs.Feedback
