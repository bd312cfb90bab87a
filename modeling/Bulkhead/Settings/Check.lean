/-
Checks of a document against the shape that is asked of it.

A check names the first fault of a value, with the place of the fault, or finds none.
-/
import Bulkhead.Text.Search
import Bulkhead.Value.Literal

namespace Bulkhead
namespace Settings

/-- What can be wrong with a value. -/
inductive Problem where
  | notOfType (value : Value) (typeName : String)
  | missing (name : String)
  | empty (value : Value)
  | noAlternative (value : Value)
  | noMatch (value : Value) (pattern : String)
  | notOneOf (value : Value) (choices : List String)
  | notAbove (value : Value) (bound : Int)
  | unexpected (names : List Scalar)

namespace Problem

def message : Problem → String
  | .notOfType value typeName =>
    Literal.value value ++ " is not of type " ++ Literal.quoted typeName
  | .missing name => Literal.quoted name ++ " is a required property"
  | .empty value => Literal.value value ++ " should be non-empty"
  | .noAlternative value => Literal.value value ++ " is not valid under any of the given schemas"
  | .noMatch value pattern => Literal.value value ++ " does not match " ++ Literal.quoted pattern
  | .notOneOf value choices =>
    Literal.value value ++ " is not one of " ++ Literal.value (.texts choices)
  | .notAbove value bound =>
    Literal.value value ++ " is less than or equal to the minimum of " ++ toString bound
  | .unexpected names =>
    "Additional properties are not allowed (" ++
      String.intercalate ", " (names.map Literal.scalar) ++
      (if names.length = 1 then " was" else " were") ++ " unexpected)"

end Problem

/-- A problem and the names and numbers that lead to its place. -/
structure Fault where
  place : List String
  problem : Problem

namespace Fault

def message (f : Fault) : String :=
  let place := String.intercalate "/" f.place
  "invalid configuration at " ++ (if place.isEmpty then "<root>" else place) ++ ": " ++
    f.problem.message

def within (step : String) (f : Fault) : Fault :=
  { f with place := step :: f.place }

end Fault

/-- A check gives the first fault of a value. -/
abbrev Check := Value → Option Fault

namespace Check

def fail (problem : Problem) : Option Fault :=
  some ⟨[], problem⟩

/-- The checks in turn, up to the first fault. -/
def every (checks : List Check) : Check := fun v =>
  checks.findSome? fun check => check v

def isText : Check
  | .text _ => none
  | v => fail (.notOfType v "string")

def isList : Check
  | .list _ => none
  | v => fail (.notOfType v "array")

def isObject : Check
  | .object _ => none
  | v => fail (.notOfType v "object")

def isNull : Check
  | .null => none
  | v => fail (.notOfType v "null")

def isNumber : Check
  | .int _ => none
  | .real _ => none
  | v => fail (.notOfType v "number")

/-- A text or a list is not empty. -/
def notEmpty : Check
  | .text s => if s.isEmpty then fail (.empty (.text s)) else none
  | .list items => if items.isEmpty then fail (.empty (.list items)) else none
  | _ => none

/-- A text holds another. -/
def holds (part pattern : String) : Check
  | .text s =>
    if Text.occursIn part.toList s.toList then none else fail (.noMatch (.text s) pattern)
  | _ => none

def oneOf (choices : List String) : Check := fun v =>
  match v with
  | .text s => if choices.contains s then none else fail (.notOneOf v choices)
  | _ => fail (.notOneOf v choices)

/-- A number is above zero. -/
def aboveZero : Check
  | .int n => if n ≤ 0 then fail (.notAbove (.int n) 0) else none
  | .real x => if x.atMostZero then fail (.notAbove (.real x) 0) else none
  | _ => none

/-- The items of a list in turn. -/
def itemsFrom (check : Check) (index : Nat) : List Value → Option Fault
  | [] => none
  | item :: rest =>
    match check item with
    | some fault => some (fault.within (toString index))
    | none => itemsFrom check (index + 1) rest

def items (check : Check) : Check
  | .list items => itemsFrom check 0 items
  | _ => none

/-- An object has a field. -/
def has (name : String) : Check
  | .object fields => if (Fields.get? name fields).isSome then none else fail (.missing name)
  | _ => none

/-- The field of an object, if it is there. -/
def field (name : String) (check : Check) : Check := fun v =>
  match v.field? name with
  | some inner => (check inner).map (Fault.within name)
  | none => none

/-- An object has no fields but these. -/
def only (names : List String) : Check
  | .object fields =>
    let extra := (fields.map Prod.fst).filter fun key => !(names.map Scalar.text).contains key
    let sorted := extra.mergeSort fun a b => decide (a.plainText ≤ b.plainText)
    if sorted.isEmpty then none else fail (.unexpected sorted)
  | _ => none

/-- One of the checks finds no fault. -/
def anyOf (checks : List Check) : Check := fun v =>
  if checks.any fun check => (check v).isNone then none else fail (.noAlternative v)

end Check
end Settings
end Bulkhead
