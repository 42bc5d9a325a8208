import ClusterMembership.Text.Numeral

/-!
# Member names

A member is identified by its name, and names double as addresses: a name of
the form `host:port` says where datagrams for the member go.  Two members are
the same member exactly when their names are equal, and names are ordered by
their UTF-8 bytes, which for well-formed text is the order by code points.
-/

namespace ClusterMembership

/-- The stable identity of a cluster member. -/
structure MemberName where
  /-- The name as it is written. -/
  text : String
  deriving DecidableEq, Hashable, Inhabited, Repr

namespace MemberName

instance : Ord MemberName where
  compare left right := compare left.text right.text

instance : ToString MemberName where
  toString name := name.text

/-- Split a text at the last occurrence of a character, which neither part keeps. -/
def splitAtLast? (separator : Char) : List Char → Option (List Char × List Char)
  | [] => none
  | character :: rest =>
    match splitAtLast? separator rest with
    | some (before, after) => some (character :: before, after)
    | none => if character = separator then some ([], rest) else none

/-- A port: decimal digits, after an optional plus sign, for a number below `2 ^ 16`. -/
def port? (characters : List Char) : Option UInt16 :=
  (Text.unsigned? 10 characters).bind fun value =>
    if value < 65536 then some (UInt16.ofNat value) else none

/--
The host and port of a name that has both.  The port stands behind the last
colon; square brackets around the host are not part of it, and an empty host is
no host.
-/
def hostPort? (name : MemberName) : Option (String × UInt16) := do
  let (host, port) ← splitAtLast? ':' name.text.toList
  let port ← port? port
  let host := host.dropWhile (· = '[')
  let host := (host.reverse.dropWhile (· = ']')).reverse
  if host.isEmpty then none else some (String.ofList host, port)

end MemberName

end ClusterMembership
