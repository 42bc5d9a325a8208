import ClusterMembership.Settings.Basic

/-!
# Settings in documents

Settings stand in documents of several kinds: a block of structured text, layers
of files and variables, or a value another program passes.  A `Form` says how one
kind of document shows its parts, and `Form.read?` reads settings from any
document that has a form.

A part that holds fields may name them, or list them in order.  Fields that are
missing keep their defaults, unknown ones are passed over, and a field given twice
is refused.
-/

namespace ClusterMembership

/-- The fields of a part, by name or by position. -/
inductive Fields (ν : Type) where
  | named (pairs : List (String × ν))
  /-- Values for the fields in order, which may be followed by others or not. -/
  | listed (values : List ν) (mayGoOn : Bool)

/-- How one kind of document shows the parts of settings. -/
structure Form (ν : Type) where
  text? : ν → Option String
  /-- A natural number below `2 ^ 64`. -/
  natural? : ν → Option Nat
  flag? : ν → Option Bool
  /-- Whether an optional part is left out, unless it is neither left out nor there. -/
  isNull? : ν → Option Bool
  items? : ν → Option (List ν)
  /-- Pairs of texts, in the order in which they take effect. -/
  pairs? : ν → Option (List (String × ν))
  fields? : ν → Option (Fields ν)

namespace Form

variable {ν : Type}

/-- The parts that are present among the known fields, unless one is given twice. -/
def present? (known : List String) : Fields ν → Option (List (String × ν))
  | .named pairs =>
    let found := pairs.filter (fun (name, _) => known.contains name)
    if (found.map Prod.fst).eraseDups.length = found.length then some found else none
  | .listed values mayGoOn =>
    if mayGoOn || values.length ≤ known.length then some (known.zip values) else none

/-- The parts of a document with known fields. -/
def record? (form : Form ν) (known : List String) (document : ν) : Option (List (String × ν)) :=
  form.fields? document |>.bind (present? known)

/-- Read a field, which keeps its default when it is missing. -/
def field?
    {α : Type}
    (parts : List (String × ν))
    (name : String)
    (read? : ν → Option α)
    (default : α) :
    Option α :=
  match parts.lookup name with
  | some part => read? part
  | none => some default

/-- Read a part that may be left out. -/
def optional? {α : Type} (form : Form ν) (read? : ν → Option α) (part : ν) : Option (Option α) :=
  (form.isNull? part).bind fun isNull => if isNull then some none else (read? part).map some

/-- Read a list of parts. -/
def list? {α : Type} (form : Form ν) (read? : ν → Option α) (part : ν) : Option (List α) :=
  form.items? part |>.bind (·.mapM read?)

def name? (form : Form ν) (part : ν) : Option MemberName :=
  (form.text? part).map fun text => { text }

/-- Read pairs of texts; of two pairs with one key the later one counts. -/
def metadata? (form : Form ν) (part : ν) : Option MetadataMap := do
  let pairs ← form.pairs? part
  let pairs ← pairs.mapM fun (key, value) => return (key, ← form.text? value)
  return pairs.foldl (fun map (key, value) => map.insert key value) ∅

def node? (form : Form ν) (document : ν) : Option NodeSettings := do
  let parts ← form.record? ["name", "bind", "peers", "metadata", "secret"] document
  let default : NodeSettings := {}
  return {
    name := ← field? parts "name" form.name? default.name
    bind := ← field? parts "bind" (form.optional? form.text?) default.bind
    peers := ← field? parts "peers" (form.list? form.name?) default.peers
    metadata := ← field? parts "metadata" form.metadata? default.metadata
    secret := ← field? parts "secret" (form.optional? form.text?) default.secret }

def protocol? (form : Form ν) (document : ν) : Option ProtocolSettings := do
  let parts ← form.record?
    [ "ping_interval_ms", "ping_timeout_ms", "ping_req_count", "ping_req_timeout_ms",
      "suspect_timeout_ms", "unavailable_timeout_ms", "offline_retention_ms",
      "sync_interval_ms", "gossip_fanout", "max_gossip_entries", "max_packet_size" ] document
  let default : ProtocolSettings := {}
  let number (name : String) (value : Nat) : Option Nat := field? parts name form.natural? value
  return {
    pingInterval := ← number "ping_interval_ms" default.pingInterval
    pingTimeout := ← number "ping_timeout_ms" default.pingTimeout
    pingRequestCount := ← number "ping_req_count" default.pingRequestCount
    pingRequestTimeout := ← number "ping_req_timeout_ms" default.pingRequestTimeout
    suspectTimeout := ← number "suspect_timeout_ms" default.suspectTimeout
    unavailableTimeout := ← number "unavailable_timeout_ms" default.unavailableTimeout
    offlineRetention := ← number "offline_retention_ms" default.offlineRetention
    syncInterval := ← number "sync_interval_ms" default.syncInterval
    gossipFanout := ← number "gossip_fanout" default.gossipFanout
    maxGossipEntries := ← number "max_gossip_entries" default.maxGossipEntries
    maxPacketSize := ← number "max_packet_size" default.maxPacketSize }

def logging? (form : Form ν) (document : ν) : Option LoggingSettings := do
  let parts ← form.record? ["level", "format", "show_target", "file"] document
  let default : LoggingSettings := {}
  return {
    level := ← field? parts "level" form.text? default.level
    format := ← field? parts "format" form.text? default.format
    showTarget := ← field? parts "show_target" form.flag? default.showTarget
    file := ← field? parts "file" (form.optional? form.text?) default.file }

/-- The settings a document describes, if it describes settings. -/
def read? (form : Form ν) (document : ν) : Option Settings := do
  let parts ← form.record? ["node", "protocol", "logging"] document
  return {
    node := ← field? parts "node" form.node? {}
    protocol := ← field? parts "protocol" form.protocol? {}
    logging := ← field? parts "logging" form.logging? {} }

end Form

end ClusterMembership
