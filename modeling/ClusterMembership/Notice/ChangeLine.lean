import ClusterMembership.Calendar
import ClusterMembership.Table.Member
import ClusterMembership.Text.Lossy
import ClusterMembership.Text.Quoted

/-!
# The change log

Every membership change becomes one entry of the change log, as a line to read or
as an object.  The payload of the metadata is shown as text, its line breaks as
commas.
-/

namespace ClusterMembership

/-- How changes are logged. -/
inductive ChangeFormat where
  | text
  | object
  deriving DecidableEq, Inhabited, Repr

/-- The word for a status in an object. -/
def Status.title : Status → String
  | .online => "Online"
  | .suspect => "Suspect"
  | .unavailable => "Unavailable"
  | .offline => "Offline"

namespace MemberChange

/-- The payload of a member's metadata in one line. -/
def shownPayload (payload : Bytes) : List Char :=
  (Text.lossy payload).map fun character => if character = '\n' then ',' else character

/-- The change as a line to read. -/
def readable (change : MemberChange) (time : Timestamp) : String :=
  let metadata :=
    match change.metadata.payload with
    | none => ""
    | some payload => " metadata [" ++ String.ofList (shownPayload payload) ++ "]"
  time.text .milliseconds ++ " " ++ change.name.text ++ " is " ++ change.status.word ++
    " (clock " ++ toString change.clock ++ ")" ++ metadata

/-- The fields of the change, each with its written value. -/
def fields (change : MemberChange) (time : Timestamp) : List (String × String) :=
  let text (value : List Char) : String := String.ofList (Text.quoted value)
  [ ("at", text (time.text .exact).toList),
    ("member", text change.name.text.toList),
    ("status", text change.status.title.toList),
    ("clock", toString change.clock),
    ("metadata_clock", toString change.metadata.clock),
    ("metadata",
      match change.metadata.payload with
      | none => "null"
      | some payload => text (shownPayload payload)) ]

/-- The change as an object. -/
def object (change : MemberChange) (time : Timestamp) : String :=
  let field (name value : String) : String :=
    String.ofList (Text.quoted name.toList) ++ ":" ++ value
  "\x7b" ++ String.intercalate "," ((change.fields time).map fun (name, value) => field name value)
    ++ "\x7d"

/-- The entry of the change log for a change. -/
def line (change : MemberChange) (time : Timestamp) : ChangeFormat → String
  | .text => change.readable time
  | .object => change.object time

end MemberChange

end ClusterMembership
