import ChatArchive.Command.Run
import ChatArchive.Config.Encoding
import ChatArchive.Main
import ChatArchive.Proofs.Activity
import ChatArchive.Proofs.Alike
import ChatArchive.Proofs.Atomicity
import ChatArchive.Proofs.ByteOrder
import ChatArchive.Proofs.ColumnTimes
import ChatArchive.Proofs.Concurrency
import ChatArchive.Proofs.Counting
import ChatArchive.Proofs.Creation
import ChatArchive.Proofs.Disclosure
import ChatArchive.Proofs.Documents
import ChatArchive.Proofs.Draws
import ChatArchive.Proofs.Durations
import ChatArchive.Proofs.Envelopes
import ChatArchive.Proofs.Indifference
import ChatArchive.Proofs.KeyedMap
import ChatArchive.Proofs.Lifecycle
import ChatArchive.Proofs.Listings
import ChatArchive.Proofs.Lockstep
import ChatArchive.Proofs.MessageLog
import ChatArchive.Proofs.Nonces
import ChatArchive.Proofs.Orders
import ChatArchive.Proofs.Pages
import ChatArchive.Proofs.Readable
import ChatArchive.Proofs.Rekeying
import ChatArchive.Proofs.RetryCourse
import ChatArchive.Proofs.RetryTiming
import ChatArchive.Proofs.RetryVerdict
import ChatArchive.Proofs.SavingBack
import ChatArchive.Proofs.Secrecy
import ChatArchive.Proofs.StartKey
import ChatArchive.Proofs.TimeOrder
import ChatArchive.Proofs.Tokens
import ChatArchive.Proofs.Unhindered
import ChatArchive.Retry.Rehearsal
import ChatArchive.Retry.Scope
import ChatArchive.Session.Shared
import ChatArchive.Store.Operation
import ChatArchive.Store.Persistence
import ChatArchive.Proofs.Summaries
import ChatArchive.Proofs.Appending
import ChatArchive.Proofs.Cancellation
import ChatArchive.Proofs.Reasons
import ChatArchive.Proofs.Overlap
import ChatArchive.Proofs.FailedEnds
import ChatArchive.Proofs.Repetition
import ChatArchive.Proofs.Shutdown
import ChatArchive.Proofs.WindowFigures
import ChatArchive.Proofs.BinaryOrder
import ChatArchive.Proofs.Backoff
import ChatArchive.Proofs.Updating
import ChatArchive.Proofs.Ending
import ChatArchive.Proofs.RoundTrips
import ChatArchive.Proofs.CountOrder
import ChatArchive.Proofs.ActivePage
import ChatArchive.Proofs.PrintedEnds
import ChatArchive.Proofs.ResponseFigures
