/-
Reports of reaches that are not allowed.
-/
import Bulkhead.Crossing

namespace Bulkhead

structure Offense where
  path : String
  location : Location
  message : String
  engine : String
  current : Option String
deriving DecidableEq, Repr

namespace Offense

/-- The text of a report. -/
def messageFor (p : Protection) (engine : String) (current : Option String) : String :=
  if p.isStrong (some engine) then
    "All direct access of " ++ engine ++
      " engine disallowed because it is in StronglyProtectedEngines list."
  else if p.isStrong current then
    "Direct access of " ++ engine ++ " is disallowed in this file because it's in the " ++
      current.getD "" ++ " engine, which is in the StronglyProtectedEngines list."
  else
    "Direct access of " ++ engine ++ " engine. Only access engine via " ++ engine ++ "::Api."

def ofCrossing (p : Protection) (path : String) (c : Crossing) (current : Option String) :
    Offense where
  path := path
  location := c.node.location
  message := messageFor p c.engine current
  engine := c.engine
  current := current

def toValue (o : Offense) : Value :=
  .record
    [("path", .text o.path), ("line", .int o.location.line), ("column", .int o.location.column),
      ("message", .text o.message), ("accessed_engine", .text o.engine),
      ("current_engine", .textOrNull o.current)]

end Offense
end Bulkhead
