import ClusterMembership.Decimal.Binary64
import ClusterMembership.Text.Numeral

/-!
# Decimal literals

A decimal literal has digits with an optional point among or beside them, and an
optional exponent.  The words for infinity and for what is no number are literals
too, in any case of letters.
-/

namespace ClusterMembership

namespace Decimal

/-- The digits as one number, times a power of ten. -/
structure Literal where
  digits : Nat
  exponent : Int
  deriving DecidableEq, Inhabited, Repr

/-- How far from zero the exponents go that matter. -/
def exponentLimit : Nat := 400

/-- The number nearest to a literal. -/
def Literal.nearest (literal : Literal) (negative : Bool) : Binary64 :=
  let magnitude : Int := literal.exponent + (Nat.repr literal.digits).length
  if literal.digits = 0 || magnitude < -exponentLimit then
    .ofRatio negative 0 1
  else if exponentLimit < magnitude then
    .infinite negative
  else
    .ofRatio negative (literal.digits * power 10 literal.exponent) (power 10 (-literal.exponent))

/-- The exponent behind the digits, which is zero where there is none. -/
def exponent? : List Char → Option Int
  | [] => some 0
  | mark :: rest => if mark = 'e' || mark = 'E' then Text.signed? 10 rest else none

/-- Read digits, a point, more digits and an exponent. -/
def literal? (characters : List Char) : Option Literal := do
  let (whole, rest) := characters.span Char.isDigit
  let (fraction, rest) :=
    match rest with
    | '.' :: rest => rest.span Char.isDigit
    | _ => ([], rest)
  let digits ← Text.natural? 10 (whole ++ fraction)
  return { digits, exponent := (← exponent? rest) - fraction.length }

/-- The number nearest to what a text without a sign stands for. -/
def unsigned? (negative : Bool) (characters : List Char) : Option Binary64 :=
  let word := String.ofList (characters.map Char.toLower)
  if word = "inf" || word = "infinity" then some (.infinite negative)
  else if word = "nan" then some .nan
  else (literal? characters).map fun literal => literal.nearest negative

/-- The number nearest to what a text stands for. -/
def read? : List Char → Option Binary64
  | '-' :: rest => unsigned? true rest
  | '+' :: rest => unsigned? false rest
  | characters => unsigned? false characters

end Decimal

end ClusterMembership
