import CqlClient.Conversion
import CqlClient.CqlType.ClassName
import CqlClient.CqlType.Descriptor
import CqlClient.Render.Session
import CqlClient.Row.Writer
import CqlClient.Proofs.Codec.Acceptance
import CqlClient.Proofs.Codec.Accepted
import CqlClient.Proofs.Codec.BareElements
import CqlClient.Proofs.Codec.Inferred
import CqlClient.Proofs.Codec.Locality
import CqlClient.Proofs.Codec.Nodes
import CqlClient.Proofs.Codec.RoundTrip
import CqlClient.Proofs.Codec.Stable
import CqlClient.Proofs.Codec.Unsupported
import CqlClient.Proofs.CqlType.Bounds
import CqlClient.Proofs.CqlType.Described
import CqlClient.Proofs.CqlType.Descriptor
import CqlClient.Proofs.CqlType.FixedSize
import CqlClient.Proofs.CqlType.Spelling
import CqlClient.Proofs.Frame.Stream
import CqlClient.Proofs.Keyspace.Settings
import CqlClient.Proofs.Response.Columns
import CqlClient.Proofs.Response.Rows
import CqlClient.Proofs.Response.Sections
import CqlClient.Proofs.Row.Reading
import CqlClient.Proofs.Row.Writer
import CqlClient.Proofs.Session.Client.Delivery
import CqlClient.Proofs.Session.Client.Rejected
import CqlClient.Proofs.Session.Closing
import CqlClient.Proofs.Session.Completion
import CqlClient.Proofs.Session.Conservation
import CqlClient.Proofs.Session.Correlation
import CqlClient.Proofs.Session.Keyspace
import CqlClient.Proofs.Session.Opening
import CqlClient.Proofs.Session.PageRows
import CqlClient.Proofs.Session.PageWidth
import CqlClient.Proofs.Session.Paging
import CqlClient.Proofs.Session.Traffic
import CqlClient.Proofs.Sharding
import CqlClient.Proofs.Sharding.SourcePorts
import CqlClient.Proofs.Value.Varint
import CqlClient.Proofs.Vint.Words
