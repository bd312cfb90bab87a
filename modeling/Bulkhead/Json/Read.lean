/-
Reading JSON text.

Besides the standard, the words `NaN`, `Infinity` and `-Infinity` are numbers.  A number is an
integer unless it has a fraction or an exponent; the digits of an integer are limited.  Of two fields
of one name the later one counts.
-/
import Bulkhead.Value.Basic

namespace Bulkhead
namespace Json

/-- Why a text gives no value: it is malformed, or an integer in it has too many digits. -/
inductive Fault where
  | malformed
  | longInteger
deriving DecidableEq, Repr

/-- The most digits that an integer may have. -/
def digitLimit : Nat := 4300

def isSpace (c : Char) : Bool :=
  c == ' ' || c == '\t' || c == '\n' || c == '\r'

def skipSpace (cs : List Char) : List Char :=
  cs.dropWhile isSpace

def hexDigit? (c : Char) : Option Nat :=
  let n := c.toNat
  if '0'.toNat ≤ n ∧ n ≤ '9'.toNat then some (n - '0'.toNat)
  else if 'a'.toNat ≤ n ∧ n ≤ 'f'.toNat then some (n - 'a'.toNat + 10)
  else if 'A'.toNat ≤ n ∧ n ≤ 'F'.toNat then some (n - 'A'.toNat + 10)
  else none

def hexUnit? (a b c d : Char) : Option Nat := do
  let a ← hexDigit? a
  let b ← hexDigit? b
  let c ← hexDigit? c
  let d ← hexDigit? d
  some (((a * 16 + b) * 16 + c) * 16 + d)

def escapedChar? : Char → Option Nat
  | '"' => some 34
  | '\\' => some 92
  | '/' => some 47
  | 'b' => some 8
  | 'f' => some 12
  | 'n' => some 10
  | 'r' => some 13
  | 't' => some 9
  | _ => none

/-- The code points and surrogates of a string up to its closing quote, in reverse, and what stands
after the quote. -/
def stringUnits (units : List Nat) : List Char → Option (List Nat × List Char)
  | [] => none
  | '"' :: rest => some (units, rest)
  | '\\' :: 'u' :: a :: b :: c :: d :: rest =>
    match hexUnit? a b c d with
    | some unit => stringUnits (unit :: units) rest
    | none => none
  | '\\' :: e :: rest =>
    match escapedChar? e with
    | some n => stringUnits (n :: units) rest
    | none => none
  | c :: rest => if c.toNat < 32 then none else stringUnits (c.toNat :: units) rest

/-- Joins the surrogates of reversed units and puts the characters in order. -/
def unitsText (chars : List Char) : List Nat → List Char
  | [] => chars
  | low :: high :: rest =>
    if 0xdc00 ≤ low ∧ low ≤ 0xdfff ∧ 0xd800 ≤ high ∧ high ≤ 0xdbff then
      unitsText (Char.ofNat (0x10000 + (high - 0xd800) * 0x400 + (low - 0xdc00)) :: chars) rest
    else unitsText (Char.ofNat low :: chars) (high :: rest)
  | [unit] => Char.ofNat unit :: chars

/-- A string, after its opening quote. -/
def readString (cs : List Char) : Option (String × List Char) :=
  (stringUnits [] cs).map fun found => (String.ofList (unitsText [] found.1), found.2)

def digitsValue (digits : List Char) : Nat :=
  digits.foldl (fun n c => 10 * n + (c.toNat - '0'.toNat)) 0

/-- The digits at the front of a text, and the rest. -/
def readDigits (cs : List Char) : List Char × List Char :=
  (cs.takeWhile Char.isDigit, cs.dropWhile Char.isDigit)

/-- The digits of an integer: a zero alone, or digits that do not start with a zero. -/
def readWhole : List Char → Option (List Char × List Char)
  | '0' :: rest => some (['0'], rest)
  | cs =>
    match readDigits cs with
    | ([], _) => none
    | found => some found

/-- The digits after a point, if a point and a digit are there. -/
def readFraction : List Char → Option (List Char × List Char)
  | '.' :: rest =>
    match readDigits rest with
    | ([], _) => none
    | found => some found
  | _ => none

def readSign : List Char → Bool × List Char
  | '-' :: rest => (true, rest)
  | '+' :: rest => (false, rest)
  | cs => (false, cs)

/-- The exponent, if its letter and a digit are there. -/
def readExponent : List Char → Option (Int × List Char)
  | c :: rest =>
    if c == 'e' || c == 'E' then
      let (negative, rest) := readSign rest
      match readDigits rest with
      | ([], _) => none
      | (digits, rest) =>
        let n : Int := digitsValue digits
        some (if negative then -n else n, rest)
    else none
  | [] => none

def readNumber (cs : List Char) : Except Fault (Scalar × List Char) :=
  let (negative, rest) : Bool × List Char :=
    match cs with
    | '-' :: rest => (true, rest)
    | _ => (false, cs)
  match readWhole rest with
  | none => .error .malformed
  | some (whole, rest) =>
    let fraction := readFraction rest
    let part := (fraction.map Prod.fst).getD []
    let rest := (fraction.map Prod.snd).getD rest
    let exponent := readExponent rest
    let scale := (exponent.map Prod.fst).getD 0
    let rest := (exponent.map Prod.snd).getD rest
    if fraction.isNone && exponent.isNone then
      if digitLimit < whole.length then .error .longInteger
      else
        let n : Int := digitsValue whole
        .ok (.int (if negative then -n else n), rest)
    else
      .ok (.real (.ofDecimal negative (digitsValue (whole ++ part)) (scale - part.length)), rest)

def wordScalars : List (String × Scalar) :=
  [("null", .null), ("true", .bool true), ("false", .bool false), ("NaN", .real .nan),
    ("Infinity", .real (.infinite false)), ("-Infinity", .real (.infinite true))]

def readScalar (cs : List Char) : Except Fault (Scalar × List Char) :=
  match wordScalars.findSome? fun w => (w.1.toList.isPrefixOf? cs).map fun r => (w.2, r) with
  | some found => .ok found
  | none => readNumber cs

mutual

/-- A value at the front of a text.  The first argument bounds the nesting; the length of the text
is enough. -/
def readValue : Nat → List Char → Except Fault (Value × List Char)
  | 0, _ => .error .malformed
  | _ + 1, '"' :: rest =>
    match readString rest with
    | some (s, rest) => .ok (.text s, rest)
    | none => .error .malformed
  | depth + 1, '[' :: rest =>
    match skipSpace rest with
    | ']' :: rest => .ok (.list [], rest)
    | rest => readItems depth [] rest
  | depth + 1, c :: rest =>
    if c = '\x7b' then
      match skipSpace rest with
      | [] => .error .malformed
      | d :: rest =>
        if d = '\x7d' then .ok (.object [], rest) else readFields depth [] (d :: rest)
    else (readScalar (c :: rest)).map fun s => (.scalar s.1, s.2)
  | _ + 1, [] => .error .malformed

/-- The items of a list from the given place on, after those already read, which are reversed. -/
def readItems : Nat → List Value → List Char → Except Fault (Value × List Char)
  | 0, _, _ => .error .malformed
  | depth + 1, items, cs =>
    match readValue depth cs with
    | .error fault => .error fault
    | .ok (item, rest) =>
      match skipSpace rest with
      | ',' :: rest => readItems depth (item :: items) (skipSpace rest)
      | ']' :: rest => .ok (.list (item :: items).reverse, rest)
      | _ => .error .malformed

/-- The fields of an object from the given place on, after those already read. -/
def readFields : Nat → Fields → List Char → Except Fault (Value × List Char)
  | 0, _, _ => .error .malformed
  | depth + 1, fields, '"' :: cs =>
    match readString cs with
    | none => .error .malformed
    | some (name, rest) =>
      match skipSpace rest with
      | ':' :: rest =>
        match readValue depth (skipSpace rest) with
        | .error fault => .error fault
        | .ok (value, rest) =>
          let fields := fields.put (.text name) value
          match skipSpace rest with
          | ',' :: rest => readFields depth fields (skipSpace rest)
          | c :: rest =>
            if c = '\x7d' then .ok (.object fields, rest) else .error .malformed
          | [] => .error .malformed
      | _ => .error .malformed
  | _ + 1, _, _ => .error .malformed

end

/-- The value that a text spells, with nothing but blanks around it. -/
def read (s : String) : Except Fault Value :=
  let cs := s.toList
  match readValue (cs.length + 1) (skipSpace cs) with
  | .ok (value, rest) => if (skipSpace rest).isEmpty then .ok value else .error .malformed
  | .error fault => .error fault

end Json
end Bulkhead
