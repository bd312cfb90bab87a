/-
Path templates with a field for the engine's directory.

A field is a name in braces; a brace that is text is doubled.  The notation of fields has more to it:
after the name there may be parts to take out of the value, a conversion and a format.  None of that
is read here; `IsPlain` says that a template has no such field.
-/
import Bulkhead.Text.Digit

namespace Bulkhead
namespace Template

def opening : Char := '\x7b'

def closing : Char := '\x7d'

inductive Piece where
  | char (c : Char)
  | field (name : List Char)
  | unbalanced
  /-- A field that has more to it than a name. -/
  | elaborate
deriving DecidableEq, Repr

/-- The character starts what may follow the name of a field: a part, a conversion or a format. -/
def isMark (c : Char) : Bool :=
  c = '.' || c = '[' || c = '!' || c = ':'

/-- The pieces of a template up to the first brace out of place or field with more than a name.
Inside a field the state is the name so far, reversed. -/
def pieces : Option (List Char) → List Char → List Piece
  | none, [] => []
  | some _, [] => [.unbalanced]
  | none, c :: cs =>
    if c = opening then
      match cs with
      | [] => [.unbalanced]
      | d :: rest =>
        if d = opening then .char d :: pieces none rest else pieces (some []) (d :: rest)
    else if c = closing then
      match cs with
      | [] => [.unbalanced]
      | d :: rest => if d = closing then .char d :: pieces none rest else [.unbalanced]
    else .char c :: pieces none cs
  | some name, c :: cs =>
    if c = closing then .field name.reverse :: pieces none cs
    else if c = opening then [.unbalanced]
    else if isMark c then [.elaborate]
    else pieces (some (c :: name)) cs

/-- Why a template cannot be filled in. -/
inductive Fault where
  | unknownField (name : String)
  | numberedField
  | numberTooLarge
  | unbalanced
  | unsupported
deriving DecidableEq, Repr

/-- The largest number that a field can have. -/
def lastNumber : Nat := 9223372036854775807

/-- Why there is no value for a field other than that for the engine.  A field without a name has the
next number; the digits of a number may be those of any script. -/
def fieldFault (name : List Char) : Nat → List Char → Fault
  | _, [] => .numberedField
  | number, c :: cs =>
    match Text.digitValue? c with
    | none => .unknownField (String.ofList name)
    | some digit =>
      if lastNumber < 10 * number + digit then .numberTooLarge
      else fieldFault name (10 * number + digit) cs

def fieldText (engine name : List Char) : Except Fault (List Char) :=
  if name = "engine".toList then .ok engine else .error (fieldFault name 0 name)

/-- The pieces in turn, up to the first fault. -/
def fillPieces (engine : List Char) : List Piece → Except Fault (List Char)
  | [] => .ok []
  | .char c :: rest => (fillPieces engine rest).map (c :: ·)
  | .field name :: rest =>
    match fieldText engine name with
    | .error fault => .error fault
    | .ok text => (fillPieces engine rest).map (text ++ ·)
  | .unbalanced :: _ => .error .unbalanced
  | .elaborate :: _ => .error .unsupported

/-- The template with the directory of the engine filled in. -/
def fill (template engine : String) : Except Fault String :=
  (fillPieces engine.toList (pieces none template.toList)).map String.ofList

/-- No field of the template has more to it than a name. -/
def IsPlain (template : String) : Prop :=
  .elaborate ∉ pieces none template.toList

instance (template : String) : Decidable (IsPlain template) :=
  inferInstanceAs (Decidable (.elaborate ∉ pieces none template.toList))

end Template
end Bulkhead
