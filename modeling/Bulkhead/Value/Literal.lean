/-
The spelling of values inside messages.

Text stands in single quotes, or in double quotes if it holds a single quote and no double one.
-/
import Bulkhead.Text.Visible
import Bulkhead.Value.Basic

namespace Bulkhead
namespace Literal

/-- A number in base sixteen, padded with zeros. -/
def hex (width n : Nat) : List Char :=
  let digits := Nat.toDigits 16 n
  List.replicate (width - digits.length) '0' ++ digits

def escapeChar (quote c : Char) : List Char :=
  if c = quote || c = '\\' then ['\\', c]
  else if c = '\n' then ['\\', 'n']
  else if c = '\r' then ['\\', 'r']
  else if c = '\t' then ['\\', 't']
  else if Text.isVisible c then [c]
  else if c.toNat ≤ 0xff then '\\' :: 'x' :: hex 2 c.toNat
  else if c.toNat ≤ 0xffff then '\\' :: 'u' :: hex 4 c.toNat
  else '\\' :: 'U' :: hex 8 c.toNat

def quoteFor (cs : List Char) : Char :=
  if cs.contains '\'' && !cs.contains '"' then '"' else '\''

/-- A text in quotes. -/
def quoted (s : String) : String :=
  let cs := s.toList
  let quote := quoteFor cs
  String.ofList (quote :: cs.flatMap (escapeChar quote) ++ [quote])

def scalar : Scalar → String
  | .text s => quoted s
  | s => s.plainText

mutual

def value : Value → String
  | .scalar s => scalar s
  | .list items => "[" ++ String.intercalate ", " (values items) ++ "]"
  | .object fields => "\x7b" ++ String.intercalate ", " (fieldTexts fields) ++ "\x7d"

def values : List Value → List String
  | [] => []
  | v :: rest => value v :: values rest

def fieldTexts : List (Scalar × Value) → List String
  | [] => []
  | (key, v) :: rest => (scalar key ++ ": " ++ value v) :: fieldTexts rest

end

end Literal
end Bulkhead
