import Cql.Main
import Cql.Proofs.Ty.Order
import Cql.Value.Hash
import Cql.Value.Text
import Cql.Proofs.Double.Order
import Cql.Proofs.Value.Order
import Cql.Proofs.Value.Canonical
import Cql.Proofs.Double.Nearest
import Cql.Proofs.Numeral
import Cql.Proofs.Reader
import Cql.Proofs.Sorted
import Cql.Proofs.Typing
import Cql.Proofs.Value.Sound
import Cql.Proofs.Value.Rebuild
import Cql.Proofs.Double.ReadBack
import Cql.Proofs.Literal.Token
import Cql.Proofs.Literal.Scalar
import Cql.Proofs.Literal.RoundTrip
import Cql.Proofs.Registry
import Cql.Proofs.Ty.Reader
import Cql.Proofs.Ty.RoundTrip
import Cql.Proofs.Ty.Grammar
import Cql.Proofs.Value.WellTyped
import Cql.Proofs.Container.Map
import Cql.Proofs.Container.Set
import Cql.Proofs.Container.Extensional
import Cql.Proofs.Schema.Keyspace
import Cql.Proofs.Schema.Reordered
import Cql.Proofs.Validator.Wrapper
import Cql.Proofs.Literal.WellTyped
import Cql.Proofs.Fixed.Run
import Cql.Proofs.Ty.Rendering
import Cql.Proofs.Schema.Reported
import Cql.Proofs.Registry.Lookup
import Cql.Proofs.Registry.Qualified
import Cql.Proofs.Container.Recall
import Cql.Proofs.Schema.Unshadowed
import Cql.Proofs.Schema.Signature
import Cql.Proofs.Schema.Aggregate
import Cql.Proofs.Schema.Keys
import Cql.Proofs.Ty.Asking
import Cql.Proofs.Registry.Unresolved
import Cql.Proofs.Fixed.Text
import Cql.Proofs.Fixed.Double
import Cql.Proofs.Container.Fields
import Cql.Proofs.Literal.Blob
import Cql.Proofs.Schema.Frozen
import Cql.Proofs.Create
import Cql.Proofs.Schema.Positions
import Cql.Proofs.Schema.Options
import Cql.Proofs.Literal.Quoted
import Cql.Proofs.Scan.Bounds
import Cql.Proofs.Arguments
