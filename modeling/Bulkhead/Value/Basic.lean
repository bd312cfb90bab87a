/-
The data that documents hold: scalars, lists and objects.
-/
import Bulkhead.Number.Shortest

namespace Bulkhead

/-- A single datum.  Integers are unbounded and are kept apart from numbers with a fraction or an
exponent. -/
inductive Scalar where
  | null
  | bool (b : Bool)
  | int (n : Int)
  | real (x : Number.Double)
  | text (s : String)
deriving DecidableEq, Repr

/-- A document.  The fields of an object keep their order, and their names may be any scalars. -/
inductive Value where
  | scalar (s : Scalar)
  | list (items : List Value)
  | object (fields : List (Scalar × Value))
deriving Repr

instance : Inhabited Value := ⟨.scalar .null⟩

namespace Scalar

/-- The name of a datum's type in messages. -/
def typeName : Scalar → String
  | .null => "NoneType"
  | .bool _ => "bool"
  | .int _ => "int"
  | .real _ => "float"
  | .text _ => "str"

/-- The plain text of a datum. -/
def plainText : Scalar → String
  | .null => "None"
  | .bool true => "True"
  | .bool false => "False"
  | .int n => toString n
  | .real x => x.text
  | .text s => s

end Scalar

namespace Value

@[match_pattern] def null : Value := .scalar .null

@[match_pattern] def bool (b : Bool) : Value := .scalar (.bool b)

@[match_pattern] def int (n : Int) : Value := .scalar (.int n)

@[match_pattern] def real (x : Number.Double) : Value := .scalar (.real x)

@[match_pattern] def text (s : String) : Value := .scalar (.text s)

def typeName : Value → String
  | .scalar s => s.typeName
  | .list _ => "list"
  | .object _ => "dict"

end Value

/-- The fields of an object. -/
abbrev Fields := List (Scalar × Value)

namespace Fields

/-- The value of the first field with the given name. -/
def get? (name : String) : Fields → Option Value
  | [] => none
  | (key, value) :: rest => if key = .text name then some value else get? name rest

/-- Sets a field: in its place if there is one of that name, else at the end. -/
def put (name : Scalar) (value : Value) : Fields → Fields
  | [] => [(name, value)]
  | (key, old) :: rest =>
    if key = name then (key, value) :: rest else (key, old) :: put name value rest

end Fields

namespace Value

/-- The value of a field, when the value is an object that has it. -/
def field? (name : String) : Value → Option Value
  | .object fields => Fields.get? name fields
  | _ => none

/-- An object from named values. -/
def record (fields : List (String × Value)) : Value :=
  .object (fields.map fun field => (.text field.1, field.2))

def texts (items : List String) : Value :=
  .list (items.map .text)

def textOrNull : Option String → Value
  | some s => .text s
  | none => .null

end Value
end Bulkhead
