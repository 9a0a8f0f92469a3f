import RespStore.Connection
import RespStore.Engine.Race
import RespStore.Main
import RespStore.Options
import RespStore.Proofs.Access.Commands
import RespStore.Proofs.Bits
import RespStore.Proofs.Bits.Commands
import RespStore.Proofs.Cardinality
import RespStore.Proofs.Collections
import RespStore.Proofs.Connection
import RespStore.Proofs.Counter
import RespStore.Proofs.Expiry
import RespStore.Proofs.Frame.Chunks
import RespStore.Proofs.Frame.Grammar
import RespStore.Proofs.Frame.InPlace
import RespStore.Proofs.Frame.Limit
import RespStore.Proofs.Frame.Line
import RespStore.Proofs.Frame.RoundTrip
import RespStore.Proofs.Framing
import RespStore.Proofs.Glob
import RespStore.Proofs.Holding
import RespStore.Proofs.Interleaving
import RespStore.Proofs.Interleaving.Blocking
import RespStore.Proofs.Interleaving.OwnRequests
import RespStore.Proofs.Interleaving.Pipeline
import RespStore.Proofs.Interleaving.Statistics
import RespStore.Proofs.Keyspace
import RespStore.Proofs.Lifetime
import RespStore.Proofs.Locality
import RespStore.Proofs.Number.Canonical
import RespStore.Proofs.Number.Decimal
import RespStore.Proofs.Number.Numeral
import RespStore.Proofs.Occurrences
import RespStore.Proofs.Queue
import RespStore.Proofs.Reachable
import RespStore.Proofs.Request.Interchange
import RespStore.Proofs.Request.Names
import RespStore.Proofs.Request.Quotes
import RespStore.Proofs.Request.SetGrammar
import RespStore.Proofs.Request.WellTimed
import RespStore.Proofs.Request.Words
import RespStore.Proofs.Request.Written
import RespStore.Proofs.SortedSet
import RespStore.Proofs.SortedSet.Ranges
import RespStore.Proofs.SortedSet.Removal
import RespStore.Proofs.SortedSet.Stored
import RespStore.Proofs.Span
import RespStore.Proofs.Span.Words
import RespStore.Proofs.Synonyms
import RespStore.Proofs.TimeToLive
import RespStore.Proofs.Timeout
import RespStore.Proofs.Transaction
import RespStore.Proofs.Transaction.AllOrNothing
import RespStore.Proofs.Transaction.InOrder
import RespStore.Proofs.Transaction.WellFormed
import RespStore.Proofs.Turns
import RespStore.Proofs.Unchanged
import RespStore.Proofs.Variadic
import RespStore.Proofs.Variadic.Commands
import RespStore.Proofs.WrongType
