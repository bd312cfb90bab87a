/-
The shortest decimal that reads back as a given number.

The decimals that read back as a number are those in an interval around it.  For one digit, two
digits and so on, its two neighbours with that many digits are tried; the first that lie in the
interval win, and of two the nearer one.
-/
import Bulkhead.Number.Double

namespace Bulkhead
namespace Number

/-- The decimal `digits * 10 ^ exponent`. -/
structure Decimal where
  digits : Nat
  exponent : Int
deriving DecidableEq, Repr

/-- A positive number and the interval of what rounds to it, over one denominator. -/
structure Rounding where
  value : Nat
  low : Nat
  high : Nat
  denominator : Nat
  closed : Bool

namespace Rounding

/-- The ends lie halfway to the neighbouring mantissas.  Below a power of two the neighbours are
twice as dense. -/
def ofMantissa (mantissa : Nat) (exponent : Int) : Rounding :=
  let narrow := mantissa = Nat.pow 2 52 ∧ Double.leastExponent < exponent
  let scale : Nat × Nat :=
    match exponent - 2 with
    | .ofNat n => (Nat.pow 2 n, 1)
    | .negSucc n => (1, Nat.pow 2 (n + 1))
  { value := 4 * mantissa * scale.1
    low := (4 * mantissa - if narrow then 1 else 2) * scale.1
    high := (4 * mantissa + 2) * scale.1
    denominator := scale.2
    closed := mantissa % 2 == 0 }

/-- The power of ten at or below the value. -/
def magnitude (r : Rounding) : Int :=
  if r.denominator ≤ r.value then
    ((Nat.toDigits 10 (r.value / r.denominator)).length : Int) - 1
  else
    let places := (Nat.toDigits 10 (r.denominator / r.value)).length
    if r.denominator ≤ r.value * Nat.pow 10 (places - 1) then -((places - 1 : Nat) : Int)
    else -(places : Int)

/-- The neighbour of the value that has the given number of digits and lies in the interval. -/
def neighbour? (r : Rounding) (digits : Nat) : Option Decimal :=
  let step := r.magnitude + 1 - digits
  let (up, unit) : Nat × Nat :=
    match step with
    | .ofNat n => (1, r.denominator * Nat.pow 10 n)
    | .negSucc n => (Nat.pow 10 (n + 1), r.denominator)
  let inside (candidate : Nat) : Bool :=
    if r.closed then
      decide (r.low * up ≤ candidate * unit) && decide (candidate * unit ≤ r.high * up)
    else decide (r.low * up < candidate * unit) && decide (candidate * unit < r.high * up)
  let below := r.value * up / unit
  let nearer := roundHalfEven (r.value * up) unit
  let other := if nearer = below then below + 1 else below
  if inside nearer then some ⟨nearer, step⟩
  else if inside other then some ⟨other, step⟩
  else none

def shortest (r : Rounding) : Decimal :=
  ((List.range 17).findSome? fun n => r.neighbour? (n + 1)).getD ⟨0, 0⟩

end Rounding

/-- Where a decimal is written with its point in place, and the least width of an exponent. -/
structure DecimalStyle where
  leastPositional : Int
  leastScientific : Int
  exponentWidth : Nat

/-- Powers of ten from `-4` to `15` are written with the point in place and at least one digit after
it; the others with a signed exponent of two digits or more. -/
def DecimalStyle.plain : DecimalStyle where
  leastPositional := -4
  leastScientific := 16
  exponentWidth := 2

def dropTrailingZeros (digits : List Char) : List Char :=
  (digits.reverse.dropWhile (· == '0')).reverse

def exponentText (style : DecimalStyle) (exponent : Int) : String :=
  let digits := Nat.toDigits 10 exponent.natAbs
  let padding := List.replicate (style.exponentWidth - digits.length) '0'
  (if exponent < 0 then "e-" else "e+") ++ String.ofList (padding ++ digits)

def Decimal.text (style : DecimalStyle) (d : Decimal) : String :=
  let all := Nat.toDigits 10 d.digits
  let point := (all.length : Int) + d.exponent
  let digits := dropTrailingZeros all
  let scale := point - 1
  if style.leastPositional ≤ scale ∧ scale < style.leastScientific then
    if point ≤ 0 then
      "0." ++ String.ofList (List.replicate point.natAbs '0' ++ digits)
    else
      let whole := digits.take point.natAbs
      let whole := whole ++ List.replicate (point.natAbs - whole.length) '0'
      let part := digits.drop point.natAbs
      String.ofList whole ++ "." ++ String.ofList (if part.isEmpty then ['0'] else part)
  else
    let part := digits.drop 1
    String.ofList (digits.take 1) ++ (if part.isEmpty then "" else "." ++ String.ofList part) ++
      exponentText style scale

namespace Double

def signText (negative : Bool) : String :=
  if negative then "-" else ""

/-- The shortest text that reads back. -/
def text : Double → String
  | .nan => "nan"
  | .infinite negative => signText negative ++ "inf"
  | .finite negative 0 _ => signText negative ++ "0.0"
  | .finite negative mantissa exponent =>
    signText negative ++ (Rounding.ofMantissa mantissa exponent).shortest.text .plain

/-- The text with one digit after the point, from the exact value; a half goes to the even digit. -/
def tenthsText : Double → String
  | .nan => "nan"
  | .infinite negative => signText negative ++ "inf"
  | .finite negative mantissa exponent =>
    let (up, unit) : Nat × Nat :=
      match exponent with
      | .ofNat n => (Nat.pow 2 n, 1)
      | .negSucc n => (1, Nat.pow 2 (n + 1))
    let tenths := roundHalfEven (10 * mantissa * up) unit
    signText negative ++ toString (tenths / 10) ++ "." ++ toString (tenths % 10)

end Double
end Number
end Bulkhead
