import ClusterMembership.Decimal.Binary64

/-!
# Shortest decimal texts

The decimal text of a binary number has as few digits as the number can be read back
from, and of those the ones nearest to it.  It is written without an exponent.
-/

namespace ClusterMembership

namespace Decimal

/-- Digits as one number, times a power of ten. -/
structure Digits where
  value : Nat
  exponent : Int
  deriving DecidableEq, Inhabited, Repr

/-- The same digits without zeros at their end. -/
def withoutZeros (value : Nat) (exponent : Int) : Digits :=
  if value ≠ 0 ∧ value % 10 = 0 then withoutZeros (value / 10) (exponent + 1)
  else { value, exponent }
termination_by value

/-- Compare a number times a power of ten with a number times a power of two. -/
def compareScaled (value : Nat) (tens : Int) (other : Nat) (twos : Int) : Ordering :=
  compare (value * power 10 tens * power 2 (-twos)) (other * power 2 twos * power 10 (-tens))

/--
Whether digits are read back as a positive number: they lie no farther from it than
half of the way to its neighbours, and nearer where its mantissa is odd.
-/
def readsBack (mantissa : Nat) (exponent : Int) (digits : Digits) : Bool :=
  let isNarrow := mantissa = Nat.pow 2 (Binary64.precision - 1) && Binary64.leastExponent < exponent
  let low := if isNarrow then 4 * mantissa - 1 else 4 * mantissa - 2
  let high := 4 * mantissa + 2
  let isEven := mantissa % 2 = 0
  let below := compareScaled digits.value digits.exponent low (exponent - 2)
  let above := compareScaled digits.value digits.exponent high (exponent - 2)
  (below = .gt || (isEven && below = .eq)) && (above = .lt || (isEven && above = .eq))

/-- The least power of ten above a positive number, found by a search from an estimate. -/
def leastTens (mantissa : Nat) (exponent : Int) : Int :=
  let estimate := ((mantissa.log2 : Int) + exponent) * 30103 / 100000
  let candidates := (List.range 4).map fun step : Nat => estimate - 1 + (step : Int)
  (candidates.find? fun tens => compareScaled 1 tens mantissa exponent = .gt).getD (estimate + 3)

/-- The digits on a grid of powers of ten that are read back, the nearer ones of two. -/
def onGrid? (mantissa : Nat) (exponent tens : Int) : Option Digits :=
  let lower :=
    (mantissa * power 2 exponent * power 10 (-tens)) / (power 2 (-exponent) * power 10 tens)
  let low : Digits := { value := lower, exponent := tens }
  let high : Digits := { value := lower + 1, exponent := tens }
  match readsBack mantissa exponent low, readsBack mantissa exponent high with
  | false, false => none
  | true, false => some low
  | false, true => some high
  | true, true =>
    if compareScaled (2 * lower + 1) tens (2 * mantissa) exponent = .gt then some low else some high

/-- The most digits that are ever needed. -/
def mostDigits : Nat := 17

/-- The shortest digits of a positive number. -/
def shortest (mantissa : Nat) (exponent : Int) : Digits :=
  let tens := leastTens mantissa exponent
  let grids := (List.range mostDigits).map fun count : Nat => tens - 1 - (count : Int)
  match grids.findSome? fun tens => onGrid? mantissa exponent tens with
  | some digits => withoutZeros digits.value digits.exponent
  | none =>
    { value := mantissa * power 2 exponent * power 5 (-exponent), exponent := min exponent 0 }

/-- Digits without an exponent, a point among them where it is needed. -/
def Digits.text (digits : Digits) : String :=
  let written := (Nat.repr digits.value).toList
  if 0 ≤ digits.exponent then
    String.ofList (written ++ List.replicate digits.exponent.toNat '0')
  else
    let places := (-digits.exponent).toNat
    let padded := List.replicate (places + 1 - written.length) '0' ++ written
    let whole := padded.take (padded.length - places)
    let fraction := padded.drop (padded.length - places)
    String.ofList (whole ++ '.' :: fraction)

/-- The shortest decimal text of a number. -/
def Binary64.text : Binary64 → String
  | nan => "NaN"
  | infinite negative => if negative then "-inf" else "inf"
  | finite negative mantissa exponent =>
    let sign := if negative then "-" else ""
    if mantissa = 0 then sign ++ "0" else sign ++ (shortest mantissa exponent).text

end Decimal

end ClusterMembership
