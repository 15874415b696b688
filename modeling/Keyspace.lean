import Keyspace.Main
import Keyspace.Proofs.SkipList.Run
import Keyspace.Proofs.Command.Grammar
import Keyspace.Proofs.Command.Footprint
import Keyspace.Proofs.Command.Refusal
import Keyspace.Proofs.Command.Ledger
import Keyspace.Proofs.Command.Existence
import Keyspace.Proofs.Command.Cardinality
import Keyspace.Proofs.Command.Legibility
import Keyspace.Proofs.Service.Dialogue
import Keyspace.Proofs.Service.Turns
import Keyspace.Proofs.Service.Transcript
import Keyspace.Proofs.SkipList.Selection
import Keyspace.Proofs.SkipList.Slots
import Keyspace.Proofs.Stream.Limit
import Keyspace.Proofs.Stream.Acceptance
import Keyspace.Proofs.Store.Moves
import Keyspace.Proofs.Store.Counters
import Keyspace.Proofs.Store.Ranges
import Keyspace.Proofs.Store.Intersection
import Keyspace.Proofs.Store.Fields
import Keyspace.Proofs.Service.Blanks
import Keyspace.Proofs.SkipList.Descent
import Keyspace.Proofs.SkipList.Rescoring
import Keyspace.Proofs.SkipList.Paging
import Keyspace.Proofs.Service.RawLines
import Keyspace.Proofs.Stream.Buffer
