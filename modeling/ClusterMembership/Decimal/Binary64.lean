/-!
# Binary numbers of 64 bits

A number in the common binary format has a mantissa below `2 ^ 53` and an exponent
from -1074 to 971.  `Binary64.ofRatio` is the number nearest to a ratio, and the one
with an even mantissa of two that are equally near.
-/

namespace ClusterMembership

namespace Decimal

inductive Binary64 where
  | nan
  | infinite (negative : Bool)
  /-- The mantissa times a power of two. -/
  | finite (negative : Bool) (mantissa : Nat) (exponent : Int)
  deriving DecidableEq, Inhabited, Repr

/-- A ratio rounded to the nearest natural number, and to the even one of two. -/
def roundEven (numerator denominator : Nat) : Nat :=
  let quotient := numerator / denominator
  match compare (2 * (numerator % denominator)) denominator with
  | .lt => quotient
  | .gt => quotient + 1
  | .eq => if quotient % 2 = 0 then quotient else quotient + 1

/-- A power with an exponent that counts as zero where it is negative. -/
def power (base : Nat) (exponent : Int) : Nat :=
  Nat.pow base exponent.toNat

namespace Binary64

/-- The least exponent. -/
def leastExponent : Int := -1074

/-- The greatest exponent. -/
def greatestExponent : Int := 971

/-- The number of bits of a mantissa. -/
def precision : Nat := 53

/-- The ratio of a value to a power of two. -/
def scaled (numerator denominator : Nat) (exponent : Int) : Nat × Nat :=
  (numerator * power 2 (-exponent), denominator * power 2 exponent)

/-- The exponent with which a positive ratio has a mantissa of full length, if it is not too small. -/
def exponentOf (numerator denominator : Nat) : Int :=
  let estimate : Int := (numerator.log2 : Int) - denominator.log2 - (precision - 1 : Nat)
  let (top, bottom) := scaled numerator denominator estimate
  let exact := if top < bottom * Nat.pow 2 (precision - 1) then estimate - 1 else estimate
  max exact leastExponent

/-- The number nearest to a ratio. -/
def ofRatio (negative : Bool) (numerator denominator : Nat) : Binary64 :=
  if numerator = 0 then
    .finite negative 0 leastExponent
  else
    let exponent := exponentOf numerator denominator
    let (top, bottom) := scaled numerator denominator exponent
    let mantissa := roundEven top bottom
    let (mantissa, exponent) :=
      if mantissa = Nat.pow 2 precision then (Nat.pow 2 (precision - 1), exponent + 1) else (mantissa, exponent)
    if greatestExponent < exponent then .infinite negative else .finite negative mantissa exponent

def isFinite : Binary64 → Bool
  | finite .. => true
  | _ => false

/-- Whether a number equals zero; what is no number does not. -/
def isZero : Binary64 → Bool
  | finite _ mantissa _ => mantissa = 0
  | _ => false

/--
The nearest natural number below a bound; halves go up, negative numbers and what is
no number become zero, and larger numbers the greatest one below the bound.
-/
def toNaturalBelow (bound : Nat) : Binary64 → Nat
  | nan => 0
  | infinite negative => if negative then 0 else bound - 1
  | finite negative mantissa exponent =>
    if negative then
      0
    else
      min (bound - 1) ((2 * mantissa * power 2 exponent + power 2 (-exponent)) /
        (2 * power 2 (-exponent)))

end Binary64

end Decimal

end ClusterMembership
