import ResponseCache.Main
import ResponseCache.Proofs.Store.History
import ResponseCache.Proofs.Journal.Flush
import ResponseCache.Proofs.Refusal
import ResponseCache.Proofs.Durable
import ResponseCache.Proofs.Fresh
import ResponseCache.Proofs.Writing
import ResponseCache.Proofs.Offer
import ResponseCache.Proofs.Fetch
import ResponseCache.Proofs.Resume
import ResponseCache.Proofs.Lasting
import ResponseCache.Proofs.Replica
import ResponseCache.Proofs.Stopping
import ResponseCache.Proofs.Supply
import ResponseCache.Proofs.Issued
import ResponseCache.Proofs.Frozen
import ResponseCache.Proofs.Twins
import ResponseCache.Proofs.Truthful
import ResponseCache.Proofs.WriteOnce
import ResponseCache.Proofs.Compose
import ResponseCache.Proofs.Tally
import ResponseCache.Proofs.Bookkeeping
import ResponseCache.Proofs.Axes
import ResponseCache.Proofs.Commuting
import ResponseCache.Proofs.Waiting
import ResponseCache.Proofs.Document
import ResponseCache.Proofs.Ordering
import ResponseCache.Proofs.Listing
import ResponseCache.Proofs.Calendar
import ResponseCache.Proofs.Moment
import ResponseCache.Proofs.Reading
import ResponseCache.Proofs.Describing
import ResponseCache.Proofs.Display
import ResponseCache.Proofs.Holdings
import ResponseCache.Proofs.Reports
import ResponseCache.Proofs.Expecting
import ResponseCache.Proofs.Minting
import ResponseCache.Proofs.Undeclared
