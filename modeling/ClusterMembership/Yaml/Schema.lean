import ClusterMembership.Decimal.Literal
import ClusterMembership.Text.Numeral

/-!
# The values plain scalars are written as

A plain scalar may be a word for nothing, a truth value or a number, and a text
otherwise.  A text that would be read as one of those has to be quoted.
-/

namespace ClusterMembership

namespace Yaml

/-- Whether digits with a leading zero make a text that looks like a number. -/
def isZeroPadded (characters : List Char) : Bool :=
  let digits :=
    match characters with
    | '-' :: rest | '+' :: rest => rest
    | _ => characters
  digits.length > 1 && digits.head? = some '0' && digits.all Char.isDigit

/-- The natural number a plain scalar is written as. -/
def naturalOfText? (characters : List Char) : Option Nat :=
  match characters with
  | '+' :: '0' :: 'x' :: digits | '0' :: 'x' :: digits => Text.natural? 16 digits
  | '+' :: '0' :: 'o' :: digits | '0' :: 'o' :: digits => Text.natural? 8 digits
  | '+' :: '0' :: 'b' :: digits | '0' :: 'b' :: digits => Text.natural? 2 digits
  | _ => if isZeroPadded characters then none else Text.unsigned? 10 characters

/-- The truth value a plain scalar is written as. -/
def flagOfText? (text : String) : Option Bool :=
  if ["true", "True", "TRUE"].contains text then some true
  else if ["false", "False", "FALSE"].contains text then some false
  else none

/-- Whether a plain scalar is a word for nothing. -/
def isNullWord (text : String) : Bool :=
  ["null", "Null", "NULL", "~"].contains text

/-- Whether a plain scalar is an integer of at most 128 bits. -/
def isInteger : List Char → Bool
  | '-' :: '+' :: _ => false
  | '-' :: digits => (naturalOfText? digits).any (· ≤ Bytes.capacity 16 / 2)
  | characters => (naturalOfText? characters).any (· < Bytes.capacity 16)

/-- Whether a plain scalar is a word for infinity or for what is no number. -/
def isSpecialNumber (text : String) : Bool :=
  [".inf", ".Inf", ".INF", "+.inf", "+.Inf", "+.INF", "-.inf", "-.Inf", "-.INF", ".nan", ".NaN",
    ".NAN"].contains text

/-- Whether a plain scalar is a decimal number that is not too large. -/
def isDecimal (characters : List Char) : Bool :=
  (Decimal.read? characters).any Decimal.Binary64.isFinite

/-- Whether a plain scalar is no text, or digits that might be taken for a number. -/
def looksTyped (text : String) : Bool :=
  let characters := text.toList
  text.isEmpty || isNullWord text || (flagOfText? text).isSome || isInteger characters ||
    isZeroPadded characters || isSpecialNumber text || isDecimal characters

end Yaml

end ClusterMembership
