/-
Writing a value as JSON text, in ASCII and with the fields of objects in the order of their names.
-/
import Bulkhead.Value.Literal

namespace Bulkhead
namespace Json

def unicodeEscape (unit : Nat) : List Char :=
  '\\' :: 'u' :: Literal.hex 4 unit

/-- A character above the basic plane is written as its two surrogates. -/
def escapeChar (c : Char) : List Char :=
  if c = '"' then ['\\', '"']
  else if c = '\\' then ['\\', '\\']
  else if c = '\n' then ['\\', 'n']
  else if c = '\r' then ['\\', 'r']
  else if c = '\t' then ['\\', 't']
  else if c.toNat = 8 then ['\\', 'b']
  else if c.toNat = 12 then ['\\', 'f']
  else if 32 ≤ c.toNat ∧ c.toNat < 127 then [c]
  else if c.toNat < 0x10000 then unicodeEscape c.toNat
  else
    let rest := c.toNat - 0x10000
    unicodeEscape (0xd800 + rest / 0x400) ++ unicodeEscape (0xdc00 + rest % 0x400)

def quoted (s : String) : String :=
  String.ofList ('"' :: s.toList.flatMap escapeChar ++ ['"'])

def realText : Number.Double → String
  | .nan => "NaN"
  | .infinite false => "Infinity"
  | .infinite true => "-Infinity"
  | x => x.text

def scalar : Scalar → String
  | .null => "null"
  | .bool true => "true"
  | .bool false => "false"
  | .int n => toString n
  | .real x => realText x
  | .text s => quoted s

/-- The name of a field as text. -/
def keyText : Scalar → String
  | .text s => s
  | s => scalar s

mutual

def write : Value → String
  | .scalar s => scalar s
  | .list items => "[" ++ String.intercalate ", " (writeItems items) ++ "]"
  | .object fields =>
    let sorted := (writeFields fields).mergeSort fun a b => decide (a.1 ≤ b.1)
    "\x7b" ++ String.intercalate ", " (sorted.map fun f => quoted f.1 ++ ": " ++ f.2) ++ "\x7d"

def writeItems : List Value → List String
  | [] => []
  | v :: rest => write v :: writeItems rest

def writeFields : List (Scalar × Value) → List (String × String)
  | [] => []
  | (key, v) :: rest => (keyText key, write v) :: writeFields rest

end

end Json
end Bulkhead
