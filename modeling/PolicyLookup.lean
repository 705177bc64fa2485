import PolicyLookup.Number.Decimal
import PolicyLookup.Text.FileName
import PolicyLookup.Json.Writer
import PolicyLookup.Term.Decoding
import PolicyLookup.Bson.Equality
import PolicyLookup.Bson.Decoding
import PolicyLookup.Evaluation.Guard
import PolicyLookup.Session.Basic
import PolicyLookup.Settings.Source
import PolicyLookup.CommandLine.Run
import PolicyLookup.Main
import PolicyLookup.Proofs.Evaluation.Slot
import PolicyLookup.Proofs.Evaluation.History
import PolicyLookup.Proofs.Evaluation.Snapshot
import PolicyLookup.Proofs.Evaluation.FirstFailure
import PolicyLookup.Proofs.Host.Operations
import PolicyLookup.Proofs.Host.Outlook
import PolicyLookup.Proofs.Session.Outlook
import PolicyLookup.Proofs.Host.Independence
import PolicyLookup.Proofs.Number.Nearest
import PolicyLookup.Proofs.Number.Shortest
import PolicyLookup.Proofs.Number.Digits
import PolicyLookup.Proofs.Json.Literal
import PolicyLookup.Proofs.Json.RoundTrip
import PolicyLookup.Proofs.Text.Bytes
import PolicyLookup.Proofs.Evaluation.CallKey
import PolicyLookup.Proofs.Bson.Decoding
import PolicyLookup.Proofs.Query.Preconditions
import PolicyLookup.Proofs.Query.Complete
import PolicyLookup.Proofs.Value.Traversal
import PolicyLookup.Proofs.Value.Floats
import PolicyLookup.Proofs.Term.RoundTrip
import PolicyLookup.Proofs.Evaluation.Arguments
import PolicyLookup.Proofs.Host.Companion
import PolicyLookup.Proofs.Host.Transparency
import PolicyLookup.Proofs.Evaluation.Distinct
import PolicyLookup.Proofs.Query.Sent
import PolicyLookup.Proofs.Session.Finds
import PolicyLookup.Proofs.Value.Places
import PolicyLookup.Proofs.Bson.RoundTrip
import PolicyLookup.Proofs.Term.Stored
import PolicyLookup.Store.Attempt
import PolicyLookup.Proofs.Store.Installation
import PolicyLookup.Proofs.Query.Ending
import PolicyLookup.Proofs.Host.Life
import PolicyLookup.Proofs.Session.Conservation
import PolicyLookup.Proofs.Evaluation.Guard
import PolicyLookup.Proofs.Term.Native
import PolicyLookup.Proofs.Query.Typing
import PolicyLookup.Proofs.Session.Refusal
import PolicyLookup.Proofs.Query.Result
import PolicyLookup.Proofs.Session.Completion
import PolicyLookup.Proofs.Evaluation.Earlier
import PolicyLookup.Proofs.Session.Cancellation
import PolicyLookup.Proofs.Host.Loading
import PolicyLookup.Proofs.Query.Race
import PolicyLookup.Proofs.Session.Reach
import PolicyLookup.Proofs.Bson.Leaves
import PolicyLookup.Proofs.Store.Namespaces
import PolicyLookup.Proofs.Store.Matching
import PolicyLookup.Proofs.Number.Rounding
import PolicyLookup.Proofs.Term.Argument
import PolicyLookup.Proofs.Calendar.Gregorian
import PolicyLookup.Proofs.Calendar.Instant
import PolicyLookup.Proofs.Value.RoundTrip
import PolicyLookup.Proofs.Evaluation.EqualArguments
import PolicyLookup.Proofs.Session.Started
import PolicyLookup.Proofs.Signature
import PolicyLookup.Proofs.Host.Registration
import PolicyLookup.Proofs.Bson.FieldOrder
import PolicyLookup.Proofs.Text.Blank
import PolicyLookup.Proofs.Settings.Startup
