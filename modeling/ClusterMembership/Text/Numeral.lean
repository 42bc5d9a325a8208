import ClusterMembership.Bytes

/-!
# Numerals

Digits and natural numbers in a base of at most 36, and the hexadecimal text of
bytes.  Letters stand for the digits from ten on, in either case when they are read
and in lower case when they are written.
-/

namespace ClusterMembership

namespace Text

/-- The digit for a value below 36. -/
def digit (value : Nat) : Char :=
  if value < 10 then Char.ofNat ('0'.toNat + value) else Char.ofNat ('a'.toNat + (value - 10))

/-- The value of a digit in a base. -/
def digitValue? (base : Nat) (character : Char) : Option Nat :=
  let value :=
    if character.isDigit then character.toNat - '0'.toNat
    else if character.isLower then character.toNat - 'a'.toNat + 10
    else if character.isUpper then character.toNat - 'A'.toNat + 10
    else base
  if value < base then some value else none

/-- The number that digits stand for after the ones whose value is given. -/
def naturalFrom? (base : Nat) : (value : Nat) → List Char → Option Nat
  | value, [] => some value
  | value, character :: rest =>
    match digitValue? base character with
    | some digit => naturalFrom? base (base * value + digit) rest
    | none => none

/-- The value of a non-empty run of digits in a base. -/
def natural? (base : Nat) (characters : List Char) : Option Nat :=
  if characters.isEmpty then none else naturalFrom? base 0 characters

/-- The value of a run of digits that may follow a plus sign. -/
def unsigned? (base : Nat) : List Char → Option Nat
  | '+' :: rest => natural? base rest
  | characters => natural? base characters

/-- The value of a run of digits that may follow a sign. -/
def signed? (base : Nat) : List Char → Option Int
  | '-' :: rest => (natural? base rest).map fun value => -(value : Int)
  | characters => (unsigned? base characters).map Int.ofNat

/-- A signed number that fits 64 bits. -/
def signed64? (base : Nat) (characters : List Char) : Option Int :=
  let limit : Int := Bytes.capacity 8 / 2
  (signed? base characters).filter fun value => -limit ≤ value ∧ value < limit

end Text

namespace Bytes

/-- Every byte as two hexadecimal digits. -/
def hex (bytes : Bytes) : String :=
  String.ofList
    (bytes.flatMap fun byte => [Text.digit (byte.toNat / 16), Text.digit (byte.toNat % 16)])

/-- The bytes whose hexadecimal digits are given in pairs. -/
def ofHex? : List Char → Option Bytes
  | [] => some []
  | high :: low :: rest => do
    let value ← Text.natural? 16 [high, low]
    return UInt8.ofNat value :: (← ofHex? rest)
  | [_] => none

end Bytes

end ClusterMembership
