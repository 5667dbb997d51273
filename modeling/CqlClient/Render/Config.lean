import CqlClient.Render.Tree
import CqlClient.Session.Config

/-!
How settings are shown.
-/

namespace CqlClient

open CqlClient.Tree (field)

/-- The codes that have a codec, between braces. -/
def Registry.text (r : Registry) : String :=
  "\x7b" ++ ", ".intercalate (r.registered.map (·.name)) ++ "\x7d"

instance : Render QueryOptions where
  render o := .record [field "auto_page" o.autoPage, field "consistency" o.consistency.name,
    field "page_size" o.pageSize, field "paging_state" o.pagingState,
    field "serial_consistency" (o.serialConsistency.map (·.name)),
    field "skip_metadata" o.skipMetadata, field "timestamp" o.timestamp,
    field "tracing" o.tracing]

instance : Render ConnectionConfig where
  render c := .record [field "max_streams" c.maxStreams, field "buffer_size" c.bufferSize,
    field "write_queue_capacity" c.writeQueueCapacity, field "target_shard" c.targetShard,
    field "tcp_keepalive" c.keepalive, field "tcp_nodelay" c.nodelay,
    field "connect_timeout_ms" c.connectTimeout,
    ("startup_options", .ofEntries c.startupOptions)]

def SessionConfig.fields (c : SessionConfig) : List Tree.Field :=
  [field "contact_point" c.contactPoint, field "max_type_depth" c.depthLimit,
    field "use_keyspace" c.keyspace, field "query_options" c.queryOptions,
    field "registry" c.registry.text, field "connection" c.connection]

end CqlClient
