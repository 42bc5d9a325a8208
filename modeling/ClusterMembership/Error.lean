import ClusterMembership.Name
import ClusterMembership.Status
import ClusterMembership.Wire.Reader

/-!
# Errors

Every error is a cause.  Its wording is a function of the cause, and so are the
two questions callers ask of it: whether a gossip error stems from network
behaviour rather than misuse, and whether a settings error must stop the process
when it starts.
-/

namespace ClusterMembership

/-- Why a signed datagram is rejected, or a payload cannot be signed. -/
inductive FrameError where
  /-- The datagram is shorter or longer than its header says. -/
  | truncated (size : Nat)
  /-- The datagram does not start with the magic bytes. -/
  | badMagic
  /-- The datagram was signed under another version. -/
  | versionMismatch (expected found : UInt8)
  /-- The header announces a salt or a digest of another length. -/
  | badLength
  /-- The digest does not belong to the salt and the payload. -/
  | badDigest
  /-- The payload does not fit the two length bytes of the header. -/
  | payloadTooLarge (size : Nat)
  deriving DecidableEq, Inhabited, Repr

def FrameError.message : FrameError → String
  | truncated size => s!"datagram truncated ({size} bytes)"
  | badMagic => "bad magic prefix"
  | versionMismatch expected found => s!"version mismatch: expected {expected}, found {found}"
  | badLength => "unexpected salt or digest length"
  | badDigest => "digest mismatch"
  | payloadTooLarge size => s!"payload too large to sign ({size} bytes)"

/-- Why settings cannot be loaded or used. -/
inductive SettingsError where
  /-- A setting is missing or has a value that makes no sense. -/
  | invalid (text : String)
  /-- The cluster secret is missing; nothing can be authenticated without it. -/
  | secretUnavailable (text : String)
  /-- A file could not be written. -/
  | io (text : String)
  /-- A file is not a settings document. -/
  | yaml (text : String)
  /-- The layers of settings do not combine to settings. -/
  | layers (text : String)
  deriving DecidableEq, Inhabited, Repr

namespace SettingsError

def message : SettingsError → String
  | invalid text => "Configuration error: " ++ text
  | secretUnavailable text => "Secret unavailable: " ++ text
  | io text => "I/O error: " ++ text
  | yaml text => "YAML error: " ++ text
  | layers text => "Config error: " ++ text

/-- The texts of the causes below the error, of which each is the cause of the one before. -/
def causes : SettingsError → List String
  | io text | yaml text | layers text => [text]
  | invalid _ | secretUnavailable _ => []

/-- Whether the error must stop the process when it starts. -/
def isFatal : SettingsError → Bool
  | invalid _ | secretUnavailable _ | layers _ => true
  | io _ | yaml _ => false

end SettingsError

/-- What can go wrong while gossiping. -/
inductive GossipError where
  | network (text : String)
  | codec (cause : Wire.WireError)
  | signature (cause : FrameError)
  | invalidTransition (name : MemberName) (source target : Status)
  | memberNotFound (name : MemberName)
  | notFound (text : String)
  | transport (text : String)
  | protocol (text : String)
  | configuration (text : String)
  | settings (cause : SettingsError)
  deriving DecidableEq, Inhabited, Repr

namespace GossipError

def message : GossipError → String
  | network text => "Network error: " ++ text
  | codec cause => "Codec error: " ++ cause.message
  | signature cause => "Signature rejected: " ++ cause.message
  | invalidTransition name source target =>
    s!"Invalid transition for {name.text}: {source.word} -> {target.word}"
  | memberNotFound name => "Member not found: " ++ name.text
  | notFound text => "Not found: " ++ text
  | transport text => "Transport error: " ++ text
  | protocol text => "Protocol error: " ++ text
  | configuration text => "Configuration error: " ++ text
  | settings cause => "Core error: " ++ cause.message

/-- The texts of the causes below the error. -/
def causes : GossipError → List String
  | network text => [text]
  | codec cause => [cause.message]
  | signature cause => [cause.message]
  | settings cause => cause.message :: cause.causes
  | _ => []

/--
Whether the error stems from network behaviour rather than misuse.  Transient
errors are absorbed where they occur; the others are returned to the caller.
-/
def isTransient : GossipError → Bool
  | network _ | codec _ | signature _ | transport _ => true
  | invalidTransition .. | memberNotFound _ | notFound _ | protocol _ | configuration _
  | settings _ => false

end GossipError

/-- What can go wrong while a daemon is set up and runs. -/
inductive AgentError where
  | configuration (text : String)
  | io (text : String)
  | settings (cause : SettingsError)
  | gossip (cause : GossipError)
  deriving DecidableEq, Inhabited, Repr

def AgentError.message : AgentError → String
  | configuration text => "Configuration error: " ++ text
  | io text => "IO error: " ++ text
  | settings cause => "Core error: " ++ cause.message
  | gossip cause => "Gossip error: " ++ cause.message

/-- The texts of the causes below the error. -/
def AgentError.causes : AgentError → List String
  | configuration _ => []
  | io text => [text]
  | settings cause => cause.message :: cause.causes
  | gossip cause => cause.message :: cause.causes

end ClusterMembership
