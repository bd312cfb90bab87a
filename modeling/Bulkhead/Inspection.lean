/-
Checking all references of a file.
-/
import Bulkhead.Session

namespace Bulkhead
namespace Inspection

def checkedEvent (path kind : String) (c : Crossing) (current : Option String) (v : Verdict) :
    Audit.Event :=
  .ofFields "reference_checked" path c.node.location.line
    [("kind", .text kind), ("reference", .textOrNull c.lineage.head?),
      ("accessed_engine", .text c.engine), ("current_engine", .textOrNull current),
      ("allowed", .bool v.allowed), ("reason", .text v.reason.name),
      ("matched", .textOrNull v.matched)]

def skippedEvent (path : String) (c : Crossing) (model : String) : Audit.Event :=
  .ofFields "non_model_skipped" path c.node.location.line [("model", .text model)]

/-- Judges a crossing and reports it if it is not allowed.  A constant is reported only if it is a
persistence model. -/
def check (host : Host) (path kind : String) (current : Option String) (c : Crossing) :
    Work (Option Offense) := do
  let verdict ← Session.judge host c.toReach current path
  Session.emit (checkedEvent path kind c current verdict)
  if verdict.allowed then return none
  let offense := Offense.ofCrossing (← get).protection path c current
  match c.model with
  | none => return some offense
  | some model =>
    Session.requireAnswer host model
    if ← Session.isModel model then return some offense
    Session.emit (skippedEvent path c model)
    return none

/-- The crossing at a node, with its kind. -/
def crossingAt (host : Host) (t : SourceTree) (current : Option String) (n : Node) :
    Steady (Option (String × Crossing)) := do
  match n.kind with
  | .const =>
    return (← Session.crossingOfConst host t current Crossing.defaultDepth n).map ("const", ·)
  | .send => return (← Session.crossingOfAssociation host t n).map ("association", ·)
  | _ => return none

/-- Fails if the crossing at a node depends on engines that cannot be surveyed. -/
def requireEnginesAt (host : Host) (t : SourceTree) (current : Option String) (n : Node) :
    Work Unit := do
  let s ← get
  if s.protectedEngines.isNone && Crossing.dependsOnEngines s.protection t current n then
    Session.requireEngines host

def checkNodes (host : Host) (t : SourceTree) (current : Option String) :
    List Node → Work (List Offense)
  | [] => return []
  | n :: rest => do
    requireEnginesAt host t current n
    let found ← crossingAt host t current n
    let offense ←
      match found with
      | some (kind, c) => check host t.path kind current c
      | none => pure none
    return offense.toList ++ (← checkNodes host t current rest)

/-- The offenses of a file, in reading order. -/
def inspect (host : Host) (t : SourceTree) : Work (List Offense) := do
  Session.revalidate
  let current := (← get).protection.ownerOf t.path
  let offenses ← checkNodes host t current t.nodes.toList
  let engine := if (current.getD "").isEmpty then "<main>" else current.getD ""
  Session.write [⟨.debug, .inspection, t.path ++ ": " ++ toString offenses.length ++
    " offense(s) (engine " ++ engine ++ ")"⟩]
  return offenses

/-- The offenses of the file whose tree is at a path. -/
def inspectFile (host : Host) (p : Path) : Work (List Offense) := do
  match SourceTree.load host p with
  | .ok t => inspect host t
  | .error failure => throw (.tree failure)

end Inspection
end Bulkhead
