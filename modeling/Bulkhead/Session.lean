/-
The state of an analysis and its operations.

A session looks at the engines directory once, when it first needs to, and keeps what it read and
what it was told.  Everything noted on the way goes to its journal.
-/
import Bulkhead.Audit
import Bulkhead.Failure
import Bulkhead.Offense
import Bulkhead.Persistence
import Bulkhead.Verdict

namespace Bulkhead

/-- An entry of the journal: a note, or an event passed to a listener. -/
inductive Record where
  | note (n : Note)
  | event (e : Audit.Event)

structure Session where
  protection : Protection
  catalog : PublicApi.Catalog
  source : Persistence.Source
  engines : Option (List (String × String)) := none
  protectedEngines : Option (List String) := none
  memo : Persistence.Memo := {}
  trail : Option Audit.Trail := none
  journal : Array Record := #[]

/-- Work in a session that cannot fail. -/
abbrev Steady := StateM Session

/-- Work in a session that can fail.  What was done before a failure stays done. -/
abbrev Work := ExceptT Failure Steady

namespace Session

/-- A session that has seen nothing yet. -/
def start (settings : Settings) (root : Option Path) (source : Persistence.Source)
    (trail : Option Audit.Trail) : Session :=
  let protection := Protection.ofSettings settings root
  { protection
    catalog :=
      { enginesDirectory := protection.enginesDirectory, apiPath := settings.apiPath }
    source
    trail }

def write (notes : List Note) : Steady Unit :=
  modify fun s => { s with journal := s.journal ++ (notes.map Record.note).toArray }

/-! ## Engines -/

/-- The engines with their directories. -/
def allEngines (host : Host) : Steady (List (String × String)) := do
  let s ← get
  match s.engines with
  | some engines => return engines
  | none =>
    let (engines, notes) := s.protection.survey host
    set { s with engines := some engines }
    write notes
    return engines

def guarded (host : Host) : Steady (List String) := do
  match (← get).protectedEngines with
  | some engines => return engines
  | none =>
    let engines := (← get).protection.protectedEngines (← allEngines host)
    modify fun s => { s with protectedEngines := some engines }
    write [Protection.protectedNote engines]
    return engines

/-- Fails if the engines have to be surveyed and cannot be. -/
def requireEngines (host : Host) : Work Unit := do
  let s ← get
  match s.engines, s.protection.obstacle? host with
  | none, some failure => throw (.files failure)
  | _, _ => return ()

/-! ## Published lists -/

/-- The API directory of an engine. -/
def apiDirectory (host : Host) (engine : String) : Work Path := do
  requireEngines host
  let engines ← allEngines host
  let directory := PublicApi.Catalog.directoryName (named? engine engines) engine
  match (← get).catalog.apiDirectory directory with
  | .ok path => return path
  | .error fault => throw (.template fault)

def artifacts (host : Host) (engine : String) : Work PublicApi.Artifacts := do
  match (← get).catalog.known? engine with
  | some artifacts => return artifacts
  | none =>
    let directory ← apiDirectory host engine
    let (artifacts, catalog, notes) := (← get).catalog.consult host engine directory
    modify fun s => { s with catalog }
    write notes
    match artifacts with
    | .ok artifacts => return artifacts
    | .error failure => throw (.files failure)

def revalidate : Steady Unit :=
  modify fun s => { s with catalog := s.catalog.revalidate }

/-- The digest of everything outside the trees that an analysis depends on. -/
def checksum (host : Host) : Work String := do
  match (← get).catalog.wholeDigest host with
  | .ok digest => return digest
  | .error failure => throw failure

/-! ## Reaches -/

/-- The protected engines if they are needed; otherwise none is named. -/
def guardedIf (needed : Bool) (host : Host) : Steady (List String) :=
  if needed then guarded host else return []

def engineNamed (host : Host) (t : SourceTree) (current : Option String) (n : Node) :
    Steady (Option String) := do
  let p := (← get).protection
  let engines ← guardedIf (Crossing.needsEngines p t current n) host
  return Crossing.engineNamed p engines t current n

def crossingOfConst (host : Host) (t : SourceTree) (current : Option String) (depth : Int)
    (n : Node) : Steady (Option Crossing) := do
  let p := (← get).protection
  let engines ← guardedIf (Crossing.isCandidate t n && Crossing.needsEngines p t current n) host
  return Crossing.ofConst p engines t current depth n

def crossingOfAssociation (host : Host) (t : SourceTree) (n : Node) :
    Steady (Option Crossing) := do
  let engines ← guardedIf (Crossing.associationNeedsEngines t n) host
  return Crossing.ofAssociation engines t n

/-- The verdict on a reach from a file. -/
def judge (host : Host) (r : Reach) (current : Option String) (file : String) :
    Work Verdict := do
  match Verdict.byPolicy (← get).protection r current with
  | some verdict => return verdict
  | none => return Verdict.byArtifacts (← artifacts host r.engine) r file

/-- Fails if the application has to be asked about a name and the question does not reach it. -/
def requireAnswer (host : Host) (name : String) : Work Unit := do
  match (← get).memo.answer? name, host.asking name with
  | none, some escape => throw (.oracle escape)
  | _, _ => return ()

def isModel (name : String) : Steady Bool := do
  let s ← get
  let (answer, memo, notes) := s.memo.ask s.source name
  set { s with memo }
  write notes
  return answer

/-! ## The trail -/

def emit (e : Audit.Event) : Steady Unit :=
  modify fun s =>
    match s.trail with
    | none => s
    | some trail =>
      { s with
        trail := some (trail.emit e)
        journal := if trail.listener.isSome then s.journal.push (.event e) else s.journal }

def clearTrail : Steady Unit :=
  modify fun s => { s with trail := s.trail.map Audit.Trail.clear }

end Session
end Bulkhead
