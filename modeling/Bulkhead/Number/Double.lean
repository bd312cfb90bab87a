/-
Numbers of the format binary64, as exact values.

A finite number is a mantissa below `2 ^ 53` times a power of two not below `2 ^ (-1074)`; every
operation is exact arithmetic on natural numbers, so that the kernel can run it.
-/
namespace Bulkhead
namespace Number

inductive Double where
  | finite (negative : Bool) (mantissa : Nat) (exponent : Int)
  | infinite (negative : Bool)
  | nan
deriving DecidableEq, Repr

/-- The natural number nearest to a fraction; of two nearest ones the even one. -/
def roundHalfEven (numerator denominator : Nat) : Nat :=
  let q := numerator / denominator
  let r := numerator % denominator
  if denominator < 2 * r then q + 1
  else if 2 * r = denominator then q + q % 2
  else q

/-- A fraction divided by a power of two. -/
def scaleDown (numerator denominator : Nat) (exponent : Int) : Nat × Nat :=
  match exponent with
  | .ofNat n => (numerator, denominator * Nat.pow 2 n)
  | .negSucc n => (numerator * Nat.pow 2 (n + 1), denominator)

namespace Double

def leastExponent : Int := -1074

def greatestExponent : Int := 971

def zero (negative : Bool) : Double :=
  .finite negative 0 leastExponent

/-- The exponent that gives a positive fraction a mantissa of 53 bits, or the least exponent. -/
def exponentFor (numerator denominator : Nat) : Int :=
  let guess : Int := (numerator.log2 : Int) - (denominator.log2 : Int) - 52
  let scaled := scaleDown numerator denominator guess
  let exponent := if scaled.1 < scaled.2 * Nat.pow 2 52 then guess - 1 else guess
  max exponent leastExponent

/-- The number nearest to a fraction. -/
def nearest (negative : Bool) (numerator denominator : Nat) : Double :=
  if numerator = 0 then zero negative
  else
    let exponent := exponentFor numerator denominator
    let scaled := scaleDown numerator denominator exponent
    let mantissa := roundHalfEven scaled.1 scaled.2
    let (mantissa, exponent) :=
      if mantissa = Nat.pow 2 53 then (Nat.pow 2 52, exponent + 1) else (mantissa, exponent)
    if greatestExponent < exponent then .infinite negative
    else .finite negative mantissa exponent

/-- The number nearest to `digits * 10 ^ exponent`.  Powers of ten far outside the range are not
computed. -/
def ofDecimal (negative : Bool) (digits : Nat) (exponent : Int) : Double :=
  if digits = 0 then zero negative
  else
    let magnitude := ((Nat.toDigits 10 digits).length : Int) + exponent
    if 400 < magnitude then .infinite negative
    else if magnitude < -400 then zero negative
    else
      match exponent with
      | .ofNat n => nearest negative (digits * Nat.pow 10 n) 1
      | .negSucc n => nearest negative digits (Nat.pow 10 (n + 1))

/-- The number nearest to an integer, unless the integer is out of range. -/
def ofInt? (n : Int) : Option Double :=
  match nearest (decide (n < 0)) n.natAbs 1 with
  | .infinite _ => none
  | x => some x

/-- The comparison with zero; it fails for what is not a number. -/
def atMostZero : Double → Bool
  | .finite negative mantissa _ => negative || mantissa == 0
  | .infinite negative => negative
  | .nan => false

end Double
end Number
end Bulkhead
