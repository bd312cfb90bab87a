/-
What an unquoted scalar of a YAML text stands for.
-/
import Bulkhead.Json.Read
import Bulkhead.Text.Search

namespace Bulkhead
namespace Yaml

def nullWords : List String :=
  ["", "~", "null", "Null", "NULL"]

def trueWords : List String :=
  ["true", "True", "TRUE", "yes", "Yes", "YES", "on", "On", "ON"]

def falseWords : List String :=
  ["false", "False", "FALSE", "no", "No", "NO", "off", "Off", "OFF"]

/-- The digits of a number may be grouped by low lines. -/
def ungroup (cs : List Char) : List Char :=
  cs.filter (· != '_')

def readSign : List Char → Bool × List Char
  | '-' :: cs => (true, cs)
  | '+' :: cs => (false, cs)
  | cs => (false, cs)

def digitValue (c : Char) : Nat :=
  (Json.hexDigit? c).getD 0

def baseValue (base : Nat) (digits : List Char) : Nat :=
  (ungroup digits).foldl (fun n c => base * n + digitValue c) 0

def isGrouped (isDigit : Char → Bool) (cs : List Char) : Bool :=
  !cs.isEmpty && cs.all fun c => isDigit c || c == '_'

/-- A part of a number in base sixty, after the first: one digit, or two of which the first is below
six. -/
def sixtieth? : List Char → Option Nat
  | [a] => if a.isDigit then some (digitValue a) else none
  | [a, b] =>
    if a.isDigit && b.isDigit && digitValue a < 6 then some (10 * digitValue a + digitValue b)
    else none
  | _ => none

/-- The value of a number in base sixty, by the parts after the first. -/
def sixtieths (first : Nat) (parts : List (List Char)) : Option Nat :=
  parts.foldl (fun total part => total.bind fun n => (sixtieth? part).map (60 * n + ·)) (some first)

def startsNonzero : List Char → Bool
  | c :: _ => c.isDigit && c != '0'
  | [] => false

/-- The value of an integer without its sign: binary, octal, decimal, of base sixteen or sixty. -/
def natural? : List Char → Option Nat
  | '0' :: 'b' :: cs =>
    if isGrouped (fun c => c == '0' || c == '1') cs then some (baseValue 2 cs) else none
  | '0' :: 'x' :: cs =>
    if isGrouped (fun c => (Json.hexDigit? c).isSome) cs then some (baseValue 16 cs) else none
  | ['0'] => some 0
  | '0' :: cs =>
    if isGrouped (fun c => decide ('0'.toNat ≤ c.toNat) && decide (c.toNat ≤ '7'.toNat)) cs then
      some (baseValue 8 cs)
    else none
  | cs =>
    match Text.splitAll [':'] cs with
    | [] => none
    | first :: parts =>
      if startsNonzero first && isGrouped Char.isDigit first then
        sixtieths (baseValue 10 first) parts
      else none

def integer? (cs : List Char) : Option Int :=
  let (negative, rest) := readSign cs
  (natural? rest).map fun n => if negative then -(n : Int) else n

/-- An exponent with a sign, up to the end. -/
def signedExponent? : List Char → Option Int
  | e :: sign :: digits =>
    if (e == 'e' || e == 'E') && (sign == '-' || sign == '+') && !digits.isEmpty &&
        digits.all Char.isDigit then
      let n : Int := Json.digitsValue digits
      some (if sign == '-' then -n else n)
    else none
  | _ => none

/-- A number with a point.  Without digits before the point it has no sign. -/
def pointed? (cs : List Char) : Option Number.Double :=
  let (negative, rest) := readSign cs
  let signed := rest.length != cs.length
  let whole := rest.takeWhile fun c => c.isDigit || c == '_'
  match rest.drop whole.length with
  | '.' :: rest =>
    let part := rest.takeWhile fun c => c.isDigit || c == '_'
    let tail := rest.drop part.length
    let shaped :=
      match whole, part with
      | c :: _, _ => c.isDigit
      | [], c :: _ => c.isDigit && !signed
      | [], [] => false
    let exponent := if tail.isEmpty then some 0 else signedExponent? tail
    match shaped, exponent with
    | true, some e =>
      let part := ungroup part
      some (.ofDecimal negative (Json.digitsValue (ungroup whole ++ part)) (e - part.length))
    | _, _ => none
  | _ => none

def infiniteWords : List String :=
  [".inf", ".Inf", ".INF"]

def nanWords : List String :=
  [".nan", ".NaN", ".NAN"]

def real? (cs : List Char) : Option Number.Double :=
  let (negative, rest) := readSign cs
  if infiniteWords.contains (String.ofList rest) then some (.infinite negative)
  else if nanWords.contains (String.ofList cs) then some .nan
  else pointed? cs

/-- The scalar that an unquoted text stands for. -/
def resolve (s : String) : Scalar :=
  if nullWords.contains s then .null
  else if trueWords.contains s then .bool true
  else if falseWords.contains s then .bool false
  else
    match real? s.toList with
    | some x => .real x
    | none =>
      match integer? s.toList with
      | some n => .int n
      | none => .text s

end Yaml
end Bulkhead
