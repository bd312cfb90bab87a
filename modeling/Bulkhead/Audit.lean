/-
The trail of what was checked.
-/
import Bulkhead.Value.Basic

namespace Bulkhead
namespace Audit

/-- The data of an event.  A set is kept apart from a list, and is written as one. -/
inductive Datum where
  | scalar (s : Scalar)
  | list (items : List Datum)
  | set (items : List Datum)
  | record (fields : List (Scalar × Datum))
deriving Repr

namespace Datum

mutual

def toValue : Datum → Value
  | .scalar s => .scalar s
  | .list items => .list (toValues items)
  | .set items => .list (toValues items)
  | .record fields => .object (toFields fields)

def toValues : List Datum → List Value
  | [] => []
  | d :: rest => toValue d :: toValues rest

def toFields : List (Scalar × Datum) → List (Scalar × Value)
  | [] => []
  | (name, d) :: rest => (name, toValue d) :: toFields rest

end

mutual

/-- The datum of a document.  A document has no sets. -/
def ofValue : Value → Datum
  | .scalar s => .scalar s
  | .list items => .list (ofValues items)
  | .object fields => .record (ofFields fields)

def ofValues : List Value → List Datum
  | [] => []
  | v :: rest => ofValue v :: ofValues rest

def ofFields : List (Scalar × Value) → List (Scalar × Datum)
  | [] => []
  | (name, v) :: rest => (name, ofValue v) :: ofFields rest

end

end Datum

structure Event where
  name : String
  path : String
  line : Int
  payload : List (String × Datum)
deriving Repr

namespace Event

/-- An event with the given fields as its payload. -/
def ofFields (name path : String) (line : Int) (fields : List (String × Value)) : Event where
  name := name
  path := path
  line := line
  payload := fields.map fun field => (field.1, .ofValue field.2)

/-- An event as one object.  A field of the payload replaces one of the event of the same name. -/
def toValue (e : Event) : Value :=
  let own : Fields :=
    [(.text "event", .text e.name), (.text "path", .text e.path), (.text "line", .int e.line)]
  .object
    (e.payload.foldl (fun fields field => Fields.put (.text field.1) field.2.toValue fields) own)

end Event

/-- The events since the last `clear`, the listener if there is one, and every event that was passed
to a listener. -/
structure Trail where
  events : List Event := []
  listener : Option Nat := none
  passed : List (Nat × Event) := []

namespace Trail

def emit (t : Trail) (e : Event) : Trail :=
  { t with
    events := t.events ++ [e]
    passed := t.passed ++ (t.listener.map fun listener => (listener, e)).toList }

def attach (t : Trail) (listener : Option Nat) : Trail :=
  { t with listener }

def clear (t : Trail) : Trail :=
  { t with events := [] }

/-- The events that a listener received. -/
def received (t : Trail) (listener : Nat) : List Event :=
  t.passed.filterMap fun p => if p.1 = listener then some p.2 else none

end Trail
end Audit
end Bulkhead
