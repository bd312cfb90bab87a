/-
Where a sequence of bytes stops being UTF-8.
-/
import Bulkhead.Value.Literal

namespace Bulkhead
namespace Utf8

inductive Problem where
  | start
  | continuation
  | ending
deriving DecidableEq, Repr

/-- The first bytes that cannot be decoded: the place of the first, their number and its value. -/
structure Fault where
  problem : Problem
  place : Nat
  length : Nat
  byte : UInt8
deriving DecidableEq, Repr

namespace Fault

def message (f : Fault) : String :=
  let reason :=
    match f.problem with
    | .start => "invalid start byte"
    | .continuation => "invalid continuation byte"
    | .ending => "unexpected end of data"
  if f.length = 1 then
    "'utf-8' codec can't decode byte 0x" ++ String.ofList (Literal.hex 2 f.byte.toNat) ++
      " in position " ++ toString f.place ++ ": " ++ reason
  else
    "'utf-8' codec can't decode bytes in position " ++ toString f.place ++ "-" ++
      toString (f.place + f.length - 1) ++ ": " ++ reason

end Fault

def isTail (b : UInt8) : Bool :=
  decide (0x80 ≤ b.toNat) && decide (b.toNat ≤ 0xbf)

/-- The byte can stand second after the given first one. -/
def isSecond (first second : UInt8) : Bool :=
  isTail second &&
    !(first == 0xe0 && decide (second.toNat < 0xa0)) &&
    !(first == 0xed && decide (0xa0 ≤ second.toNat)) &&
    !(first == 0xf0 && decide (second.toNat < 0x90)) &&
    !(first == 0xf4 && decide (0x90 ≤ second.toNat))

/-- The number of bytes of a character with the given first byte. -/
def width? (first : UInt8) : Option Nat :=
  let n := first.toNat
  if n < 0x80 then some 1
  else if n < 0xc2 then none
  else if n < 0xe0 then some 2
  else if n < 0xf0 then some 3
  else if n < 0xf5 then some 4
  else none

/-- The number of bytes, counted from the first, that can stand at the start of one character. -/
def goodLength (first : UInt8) (width : Nat) (rest : List UInt8) : Nat :=
  match rest with
  | [] => 1
  | second :: rest =>
    if width = 1 then 1
    else if isSecond first second then 2 + ((rest.take (width - 2)).takeWhile isTail).length
    else 1

/-- The first fault.  `skip` counts the bytes of a character that are still to be left out. -/
def firstFault (place : Nat) : Nat → List UInt8 → Option Fault
  | _, [] => none
  | skip + 1, _ :: rest => firstFault (place + 1) skip rest
  | 0, first :: rest =>
    match width? first with
    | none => some ⟨.start, place, 1, first⟩
    | some width =>
      let good := goodLength first width rest
      if good = width then firstFault (place + 1) (width - 1) rest
      else if good = rest.length + 1 then some ⟨.ending, place, good, first⟩
      else some ⟨.continuation, place, good, first⟩

end Utf8
end Bulkhead
