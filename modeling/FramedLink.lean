import FramedLink.Wire.Packing
import FramedLink.Wire.Decoder
import FramedLink.SpinLock.Contention
import FramedLink.Machine
import FramedLink.Proofs.Wire.RoundTrip
import FramedLink.Proofs.Outbox.History
import FramedLink.Proofs.Session.FlushLaw
import FramedLink.Proofs.Runs.Chain
import FramedLink.Proofs.Session.Receiving
import FramedLink.Proofs.Runs.Delivery
import FramedLink.Proofs.Outbox.Accounting
import FramedLink.Proofs.Outbox.Conservation
import FramedLink.Proofs.Runs.Closing
import FramedLink.Proofs.Runs.Alike
import FramedLink.Proofs.Runs.Couples
import FramedLink.Proofs.Runs.Gate
import FramedLink.Proofs.Runs.Chunks
import FramedLink.Proofs.Lives.Ending
import FramedLink.Proofs.Lives.News
import FramedLink.Proofs.Session.Graceful
import FramedLink.Proofs.Hosts.Apart
import FramedLink.Proofs.Runs.Books
import FramedLink.Proofs.Runs.Order
import FramedLink.Proofs.Runs.Ledger
import FramedLink.Proofs.Hosts.Registry
import FramedLink.Proofs.Hosts.Failure
import FramedLink.Proofs.Runs.Pace
import FramedLink.Proofs.Hosts.Halt
import FramedLink.Proofs.Hosts.Shutdown
import FramedLink.Proofs.Runs.Upkeep
import FramedLink.Proofs.Runs.Readings
import FramedLink.Proofs.Hosts.Receipts
import FramedLink.Proofs.Runs.Transmits
import FramedLink.Proofs.Session.Capacity
import FramedLink.Proofs.Hosts.Blame
import FramedLink.Proofs.SpinLock.Additions
import FramedLink.Proofs.Wire.Writing
import FramedLink.Proofs.Wire.Pieces
import FramedLink.Proofs.Outbox.Bound
import FramedLink.Proofs.Outbox.Exact
import FramedLink.Proofs.Wire.Progress
import FramedLink.Proofs.Dispatch.Registration
import FramedLink.Proofs.Runs.Conversation
import FramedLink.Proofs.Runs.Handlers
