import ClusterMembership.Settings.Basic

/-!
# Settings as a document

The same settings can be written in several ways.  A `Document` is what all of them
have in common: the fields with their names, in the order in which they are
written.
-/

namespace ClusterMembership

/-- Named and listed parts down to single values. -/
inductive Document where
  | null
  | flag (value : Bool)
  | natural (value : Nat)
  | text (value : String)
  | list (items : List Document)
  | table (fields : List (String × Document))
  deriving Inhabited, Repr

namespace Document

/-- A text that may be left out. -/
def optional : Option String → Document
  | none => null
  | some value => text value

end Document

def NodeSettings.document (settings : NodeSettings) : Document :=
  .table
    [ ("name", .text settings.name.text),
      ("bind", .optional settings.bind),
      ("peers", .list (settings.peers.map fun peer => .text peer.text)),
      ("metadata", .table (settings.metadata.toList.map fun (key, value) => (key, .text value))),
      ("secret", .optional settings.secret) ]

def ProtocolSettings.document (settings : ProtocolSettings) : Document :=
  .table
    [ ("ping_interval_ms", .natural settings.pingInterval),
      ("ping_timeout_ms", .natural settings.pingTimeout),
      ("ping_req_count", .natural settings.pingRequestCount),
      ("ping_req_timeout_ms", .natural settings.pingRequestTimeout),
      ("suspect_timeout_ms", .natural settings.suspectTimeout),
      ("unavailable_timeout_ms", .natural settings.unavailableTimeout),
      ("offline_retention_ms", .natural settings.offlineRetention),
      ("sync_interval_ms", .natural settings.syncInterval),
      ("gossip_fanout", .natural settings.gossipFanout),
      ("max_gossip_entries", .natural settings.maxGossipEntries),
      ("max_packet_size", .natural settings.maxPacketSize) ]

def LoggingSettings.document (settings : LoggingSettings) : Document :=
  .table
    [ ("level", .text settings.level),
      ("format", .text settings.format),
      ("show_target", .flag settings.showTarget),
      ("file", .optional settings.file) ]

def Settings.document (settings : Settings) : Document :=
  .table
    [ ("node", settings.node.document),
      ("protocol", settings.protocol.document),
      ("logging", settings.logging.document) ]

end ClusterMembership
