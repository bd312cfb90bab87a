/-
Running a command.

A command works with its surroundings and gives a report: the lines of its two outputs and how it
ended.  What was written before a failure stays in the report.
-/
import Bulkhead.CommandLine.Arguments
import Bulkhead.Factory.Index
import Bulkhead.Inspection
import Bulkhead.Json.Write
import Bulkhead.Settings.Load
import Bulkhead.Snapshot

namespace Bulkhead
namespace CommandLine

/-- How a command ends: with a status, or with a failure that it does not report itself. -/
inductive Ending where
  | finished (status : Nat)
  | failed (failure : Failure)

structure Report where
  output : List String := []
  errors : List String := []
  ending : Ending

/-- The line of a journal entry, if it is to be shown. -/
def recordLine (threshold : Level) : Record → Option String
  | .note n => if n.reaches threshold then some n.line else none
  | .event e => some (Json.write e.toValue)

def journalLines (threshold : Level) (journal : List Record) : List String :=
  journal.filterMap (recordLine threshold)

def noteLines (threshold : Level) (notes : List Note) : List String :=
  journalLines threshold (notes.map .note)

/-- The report of a command that could not go on. -/
def failing (output errors : List String) (failure : Failure) : Report :=
  if failure.isReported then
    { output, errors := errors ++ ["engine-boundary: " ++ failure.message], ending := .finished 2 }
  else { output, errors, ending := .failed failure }

def info (text : String) : Note :=
  ⟨.info, .commandLine, text⟩

/-! ## The commands -/

/-- The source of models: the names that are given, or else what the settings describe. -/
def oracle? (model : ModelSettings) (run : List String → Persistence.Outcome)
    (models : List String) : Option Persistence.Oracle :=
  if models.isEmpty then Persistence.ofSettings? model run
  else some (.ofSource (Persistence.ofList models))

/-- What a command works with: the machine, the reader of settings and how the commands of the
application end. -/
structure Surroundings where
  host : Host
  read : Yaml.Reader
  run : List String → Persistence.Outcome

namespace Surroundings

def ofSnapshot (read : Yaml.Reader) (snapshot : Snapshot) : Surroundings where
  host := snapshot.host
  read := read
  run := snapshot.commands.run

/-- The machine with what keeps questions from an oracle. -/
def asking (around : Surroundings) (oracle : Persistence.Oracle) : Host :=
  { around.host with asking := oracle.escape? }

end Surroundings

/-- The session that settings describe, with their note in its journal, and the machine it works
on. -/
def open? (around : Surroundings) (path : Path) (root : Option Path) (models : List String)
    (trail : Option Audit.Trail) : Except Failure (Session × Host) :=
  match Settings.load around.read around.host path with
  | .error failure => .error (.settings failure)
  | .ok (settings, note) =>
    match oracle? settings.model around.run models with
    | none => .error .emptyCommand
    | some oracle =>
      .ok ({ Session.start settings root oracle.source trail with journal := #[.note note] },
        around.asking oracle)

/-- Inspects trees up to the first failure. -/
def inspectAll (host : Host) : Session → List Path → List Offense × Session × Option Failure
  | session, [] => ([], session, none)
  | session, path :: rest =>
    match (Inspection.inspectFile host path).run.run session with
    | (.error failure, session) => ([], session, some failure)
    | (.ok offenses, session) =>
      let (more, session, failure) := inspectAll host (Session.clearTrail.run session).2 rest
      (offenses ++ more, session, failure)

def check (threshold : Level) (around : Surroundings) (options : CheckOptions) : Report :=
  let trail : Option Audit.Trail := if options.trace then some { listener := some 0 } else none
  match open? around options.settings options.root options.models trail with
  | .error failure => failing [] [] failure
  | .ok (session, host) =>
    let (offenses, session, failure) := inspectAll host session options.trees
    let output := offenses.map fun o => Json.write o.toValue
    let errors := journalLines threshold session.journal.toList
    match failure with
    | some failure => failing output errors failure
    | none =>
      let summary := info ("Checked " ++ toString options.trees.length ++ " file(s), " ++
        toString offenses.length ++ " offense(s)")
      { output
        errors := errors ++ noteLines threshold [summary]
        ending := .finished (if offenses.isEmpty then 0 else 1) }

def checksum (threshold : Level) (around : Surroundings) (settings : Path) (root : Option Path) :
    Report :=
  match open? around settings root [] none with
  | .error failure => failing [] [] failure
  | .ok (session, host) =>
    let (digest, session) := (Session.checksum host).run.run session
    let errors := journalLines threshold session.journal.toList
    match digest with
    | .error failure => failing [] errors failure
    | .ok digest => { output := [digest], errors, ending := .finished 0 }

/-- Without trees the command looks for them itself. -/
def factories (threshold : Level) (host : Host) (root : Path) (enginesPath : String)
    (trees : List Path) : Report :=
  let found :=
    if trees.isEmpty then Factory.discover host root (.ofString enginesPath) ".json" else .ok trees
  match found with
  | .error failure => failing [] [] (.files failure)
  | .ok paths =>
    let start := info ("Indexing factories from " ++ toString paths.length ++ " tree document(s)")
    let (index, _, notes) := ({} : Factory.Ledger).consult (paths.map (SourceTree.load host))
    let errors := noteLines threshold (start :: notes)
    match index with
    | .error failure => failing [] errors (.tree failure)
    | .ok index => { output := [Json.write index.toValue], errors, ending := .finished 0 }

def Command.run (threshold : Level) (around : Surroundings) : Command → Report
  | .check options => CommandLine.check threshold around options
  | .checksum settings root => CommandLine.checksum threshold around settings root
  | .factories root enginesPath trees =>
    CommandLine.factories threshold around.host root enginesPath trees

/-- Runs the program. -/
def run (around : Surroundings) (args : List String) : Except Exit Report :=
  (read args).map fun invocation => invocation.command.run invocation.level around

end CommandLine
end Bulkhead
