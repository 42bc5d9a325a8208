import ClusterMembership.Name

/-!
# Addresses of sockets

An address has a host and a port behind the last colon.  Where no host is a host of
its own, no address can be bound; how far an address gets says why.
-/

namespace ClusterMembership

namespace Address

/-- Whether a host is written as a number, so that nobody has to be asked for it. -/
def isNumeric (host : List Char) : Bool :=
  host.head? = some '[' ||
    (!host.isEmpty && host.all fun character => character.isDigit || character = '.')

/-- Why an address that belongs to no interface cannot be bound. -/
def bindFailure (address : String) : String :=
  match MemberName.splitAtLast? ':' address.toList with
  | none => "invalid socket address"
  | some (host, port) =>
    if (MemberName.port? port).isNone then "invalid port value"
    else if isNumeric host then "Cannot assign requested address (os error 99)"
    else "failed to lookup address information: Name or service not known"

end Address

end ClusterMembership
