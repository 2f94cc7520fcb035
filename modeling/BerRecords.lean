import BerRecords.Main
import BerRecords.Proofs.Walk.Simulation
import BerRecords.Proofs.Walk.Trail
import BerRecords.Proofs.Records.Isolation
import BerRecords.Proofs.Reader.Counting
import BerRecords.Proofs.Reader.Resynchronisation
import BerRecords.Proofs.Records.Boundary
import BerRecords.Proofs.Records.Modes
import BerRecords.Proofs.Records.Lossless
import BerRecords.Proofs.Records.Tiling
import BerRecords.Proofs.Records.Nulls
import BerRecords.Proofs.Records.Localisation
import BerRecords.Proofs.Schema.Lookup
import BerRecords.Proofs.Schema.Reachable
import BerRecords.Proofs.Records.Locality
import BerRecords.Proofs.Records.Parallel
import BerRecords.Proofs.Records.Cuts
import BerRecords.Proofs.Reader.Calls
import BerRecords.Proofs.Records.Keys
import BerRecords.Proofs.Module.Comments
import BerRecords.Proofs.Module.ReadBack
import BerRecords.Proofs.Reader.Truncation
import BerRecords.Proofs.Module.Resolving
import BerRecords.Proofs.Line.Shown
import BerRecords.Proofs.Run.Outputs
import BerRecords.Proofs.Reader.Inverse
import BerRecords.Proofs.Reader.Traversal
import BerRecords.Proofs.Value.Integer
import BerRecords.Proofs.Value.Oid
import BerRecords.Proofs.Value.Digits
import BerRecords.Proofs.Walk.Misplaced
import BerRecords.Proofs.Json.Octets
import BerRecords.Proofs.Reader.Landing
