import ClusterMembership.Error
import ClusterMembership.Packet
import Std.Data.ExtTreeMap

/-!
# Settings of a node

The settings say who a node is, how the protocol paces itself, and where the log
goes.  Every setting but the cluster secret has a default.  Durations are in
milliseconds, sizes in bytes.

`Settings.check` finds the first setting that makes no sense.
-/

namespace ClusterMembership

/-- Key-value pairs a member advertises, in the order of the keys. -/
abbrev MetadataMap := Std.ExtTreeMap String String compare

/-- Who a node is and whom it contacts first. -/
structure NodeSettings where
  /-- The name of the node, `host:port`. -/
  name : MemberName := { text := "127.0.0.1:7946" }
  /-- The address to bind where it is not the name. -/
  bind : Option String := none
  /-- The members contacted at the start. -/
  peers : List MemberName := []
  /-- What the node advertises about itself. -/
  metadata : MetadataMap := ∅
  /-- The secret every datagram is signed with. -/
  secret : Option String := none
  deriving DecidableEq

/-- The pace and the limits of failure detection and dissemination. -/
structure ProtocolSettings where
  /-- Between two probes. -/
  pingInterval : Nat := 1000
  /-- How long a direct ack may take. -/
  pingTimeout : Nat := 300
  /-- How many members are asked to probe on the node's behalf. -/
  pingRequestCount : Nat := 3
  /-- How long a relayed ack may take. -/
  pingRequestTimeout : Nat := 900
  /-- How long a member stays suspect. -/
  suspectTimeout : Nat := 5000
  /-- How long a member stays unavailable. -/
  unavailableTimeout : Nat := 30000
  /-- How long an offline member is kept in the table. -/
  offlineRetention : Nat := 300000
  /-- Between two rounds of gossip. -/
  syncInterval : Nat := 300
  /-- How many members are sent gossip in one round. -/
  gossipFanout : Nat := 2
  /-- How many gossip entries one packet carries at most. -/
  maxGossipEntries : Nat := 16
  /-- The largest signed datagram. -/
  maxPacketSize : Nat := 1400
  deriving DecidableEq, Repr

/-- What is logged, how, and where. -/
structure LoggingSettings where
  level : String := "info"
  format : String := "text"
  showTarget : Bool := true
  file : Option String := none
  deriving DecidableEq, Repr

/-- Everything that is set for one node. -/
structure Settings where
  node : NodeSettings := {}
  protocol : ProtocolSettings := {}
  logging : LoggingSettings := {}
  deriving DecidableEq

namespace NodeSettings

/-- The address to bind, which is the name unless another one is set. -/
def bindAddress (settings : NodeSettings) : String :=
  settings.bind.getD settings.name.text

/-- The byte of a line break. -/
def lineBreak : UInt8 := 0x0A

/-- The byte of an equals sign. -/
def equalsSign : UInt8 := 0x3D

/-- Add a pair as a line `key=value`, behind a line break unless nothing is there yet. -/
def appendLine (payload : Bytes) (pair : String × String) : Bytes :=
  let payload := if payload.isEmpty then payload else payload ++ [lineBreak]
  payload ++ Bytes.ofText pair.1 ++ [equalsSign] ++ Bytes.ofText pair.2

/-- The payload of the metadata the node advertises: a line for each pair, in key order. -/
def metadataPayload (settings : NodeSettings) : Bytes :=
  settings.metadata.toList.foldl appendLine []

/-- Refuse an empty name and a missing or empty secret. -/
def check (settings : NodeSettings) : Except SettingsError Unit :=
  if settings.name.text.isEmpty then
    .error (.invalid "Local member name cannot be empty")
  else
    match settings.secret with
    | none => .error (.secretUnavailable "node.secret must be set (or SWIM_NODE__SECRET)")
    | some secret =>
      if secret.isEmpty then
        .error (.secretUnavailable "node.secret cannot be empty")
      else
        .ok ()

end NodeSettings

namespace ProtocolSettings

/-- The durations, each under the name it has in a settings document. -/
def durations (settings : ProtocolSettings) : List (String × Nat) :=
  [ ("ping_interval_ms", settings.pingInterval),
    ("ping_timeout_ms", settings.pingTimeout),
    ("ping_req_timeout_ms", settings.pingRequestTimeout),
    ("suspect_timeout_ms", settings.suspectTimeout),
    ("unavailable_timeout_ms", settings.unavailableTimeout),
    ("offline_retention_ms", settings.offlineRetention),
    ("sync_interval_ms", settings.syncInterval) ]

/-- The smallest datagram size that is accepted. -/
def leastPacketSize : Nat := 256

/-- Refuse durations, counts and sizes the protocol cannot run with. -/
def check (settings : ProtocolSettings) : Except SettingsError Unit :=
  match settings.durations.find? (fun (_, value) => value = 0) with
  | some (name, _) => .error (.invalid (name ++ " must be greater than zero"))
  | none =>
    if settings.pingRequestTimeout < settings.pingTimeout then
      .error (.invalid "ping_req_timeout_ms cannot be shorter than ping_timeout_ms")
    else if settings.gossipFanout = 0 then
      .error (.invalid "gossip_fanout must be greater than zero")
    else if settings.maxGossipEntries = 0 then
      .error (.invalid "max_gossip_entries must be greater than zero")
    else if settings.maxPacketSize < leastPacketSize then
      .error (.invalid "max_packet_size must be at least 256 bytes")
    else
      .ok ()

end ProtocolSettings

namespace LoggingSettings

/-- The levels there are, from the most to the least verbose. -/
def levels : List String := ["trace", "debug", "info", "warn", "error"]

/-- The formats there are. -/
def formats : List String := ["text", "json"]

/-- Refuse an unknown level or format. -/
def check (settings : LoggingSettings) : Except SettingsError Unit :=
  if !levels.contains settings.level then
    .error (.invalid ("Invalid log level: " ++ settings.level))
  else if !formats.contains settings.format then
    .error (.invalid ("Invalid log format: " ++ settings.format))
  else
    .ok ()

end LoggingSettings

/-- Refuse settings a node cannot start with; the first fault found is the answer. -/
def Settings.check (settings : Settings) : Except SettingsError Unit := do
  settings.node.check
  settings.protocol.check
  settings.logging.check

end ClusterMembership
