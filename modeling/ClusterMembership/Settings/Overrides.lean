import ClusterMembership.Settings.Basic
import ClusterMembership.Text.Blank

/-!
# Overrides

What is given on the command line stands above all other settings: a name, a list
of peers that replaces the configured one, metadata pairs that are merged into the
configured ones, and the cluster secret.
-/

namespace ClusterMembership

/-- Settings of a node that are given on the command line. -/
structure Overrides where
  name : Option String := none
  peers : List String := []
  /-- Pairs `key=value`, in the order in which they were given. -/
  metadata : List String := []
  secret : Option String := none
  deriving DecidableEq, Repr

namespace Overrides

/--
The key and the value of a pair.  The first equals sign separates them, and the key
is taken without the blanks around it; it cannot be empty.
-/
def metadataPair (pair : String) : Except AgentError (String × String) :=
  match Text.splitAtFirst? '=' pair.toList with
  | some (key, value) =>
    let key := Text.strip Text.isBlank key
    if key.isEmpty then
      .error (.configuration ("Invalid metadata '" ++ pair ++ "', expected key=value"))
    else
      .ok (String.ofList key, String.ofList value)
  | none => .error (.configuration ("Invalid metadata '" ++ pair ++ "', expected key=value"))

/-- Merge pairs into a map, up to the first one that is not a pair. -/
def mergePairs (map : MetadataMap) : List String → Except AgentError Unit × MetadataMap
  | [] => (.ok (), map)
  | pair :: pairs =>
    match metadataPair pair with
    | .error cause => (.error cause, map)
    | .ok (key, value) => mergePairs (map.insert key value) pairs

/-- Apply the overrides; the secret is left as it is when a pair is refused. -/
def apply (overrides : Overrides) (settings : Settings) : Except AgentError Unit × Settings :=
  let node := settings.node
  let node := { node with name := (overrides.name.map MemberName.mk).getD node.name }
  let node :=
    if overrides.peers.isEmpty then node else { node with peers := overrides.peers.map .mk }
  let (outcome, metadata) := mergePairs node.metadata overrides.metadata
  let node := { node with metadata }
  match outcome with
  | .error cause => (.error cause, { settings with node })
  | .ok () =>
    (.ok (), { settings with node := { node with secret := overrides.secret.or node.secret } })

end Overrides

end ClusterMembership
