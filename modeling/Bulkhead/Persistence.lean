/-
Is a constant a persistence model?

The answer comes from a list of names or from a command of the application that prints the ancestors
of the constant.  A command that fails, takes too long or cannot be started stands for no.  What goes
wrong when its parts are handed over or its output is taken in is not an answer.
-/
import Bulkhead.Constant
import Bulkhead.Journal
import Bulkhead.Settings.Basic
import Bulkhead.Text.Blank

namespace Bulkhead
namespace Persistence

/-- A command that was run. -/
structure Run where
  command : List String
  timeout : Seconds
  workingDirectory : Option String
deriving DecidableEq, Repr

/-- Why the attempt to run a command has no outcome of the command. -/
inductive Escape where
  | outputNotText
  | nullInCommand
  | timeoutTooLarge
deriving DecidableEq, Repr

inductive Outcome where
  | finished (status : Int) (output : String)
  | timedOut
  | unavailable (reason : String)
  | escaped (escape : Escape)
deriving DecidableEq, Repr

/-- The answer to a question, with the notes and the runs that it took. -/
structure Reply where
  isModel : Bool
  notes : List Note := []
  runs : List Run := []

/-- A source of answers. -/
abbrev Source := String → Reply

/-- A source that a question may fail to reach. -/
abbrev Oracle := String → Except Escape Reply

namespace Oracle

def ofSource (source : Source) : Oracle :=
  fun name => .ok (source name)

/-- What keeps an answer away. -/
def escape? (oracle : Oracle) (name : String) : Option Escape :=
  match oracle name with
  | .ok _ => none
  | .error escape => some escape

/-- The answers.  Nobody goes by the one that stands in where there is none. -/
def source (oracle : Oracle) : Source := fun name =>
  match oracle name with
  | .ok reply => reply
  | .error _ => { isModel := false }

end Oracle

/-- The models are those of a list.  Leading colons do not matter. -/
def ofList (models : List String) : Source := fun name =>
  { isModel := (models.map Constant.bare).contains (Constant.bare name) }

/-! ## Asking the application -/

structure Runner where
  command : List String
  persistenceBase : String
  timeout : Seconds
  workingDirectory : Option String

namespace Runner

/-- The command that asks about a name. -/
def commandFor (r : Runner) (name : String) : List String :=
  r.command.map fun part =>
    String.ofList (Text.replaceAll "\x7bname\x7d".toList name.toList part.toList)

def warn (text : String) : List Note :=
  [⟨.warning, .persistence, text⟩]

/-- The answer that the outcome of a command gives. -/
def interpret (r : Runner) (name : String) : Outcome → Except Escape (Bool × List Note)
  | .timedOut =>
    .ok (false, warn ("Model oracle timed out after " ++ r.timeout.tenthsText ++ "s for " ++ name ++
      "; treating as non-model"))
  | .unavailable reason =>
    .ok (false, warn ("Model oracle unavailable (" ++ reason ++ "); treating " ++ name ++
      " as non-model"))
  | .finished status output =>
    if status = 0 then .ok ((Text.words output).contains r.persistenceBase, [])
    else
      .ok (false, warn ("Model oracle exited with status " ++ toString status ++ " for " ++ name ++
        "; treating as non-model"))
  | .escaped escape => .error escape

/-- The command that is run to find out about a name, if one is: only a well-formed path of constants
becomes part of a command. -/
def attempt? (r : Runner) (given : String) : Option Run :=
  let name := Constant.bare given
  if Constant.isPath name then some ⟨r.commandFor name, r.timeout, r.workingDirectory⟩ else none

def ask (r : Runner) (run : List String → Outcome) (given : String) : Except Escape Reply :=
  let name := Constant.bare given
  match r.attempt? given with
  | some attempt =>
    (r.interpret name (run attempt.command)).map fun (isModel, notes) =>
      { isModel, notes, runs := [attempt] }
  | none =>
    .ok
      { isModel := false
        notes := [⟨.debug, .persistence, "Refusing to query oracle for malformed constant " ++
          Literal.quoted name⟩] }

end Runner

def isListed (settings : ModelSettings) : Bool :=
  settings.kind == "static"

def runnerOf (settings : ModelSettings) : Runner where
  command := settings.command
  persistenceBase := settings.persistenceBase
  timeout := settings.timeout
  workingDirectory := settings.workingDirectory

/-- The oracle that the settings describe; there is none if the command is empty. -/
def ofSettings? (settings : ModelSettings) (run : List String → Outcome) : Option Oracle :=
  if isListed settings then some (.ofSource (ofList settings.models))
  else if settings.command.isEmpty then none
  else some ((runnerOf settings).ask run)

/-! ## Commands with known outcomes -/

/-- The outcomes of commands; the last entry for a command counts. -/
abbrev CommandTable := List (List String × Outcome)

def CommandTable.run (table : CommandTable) (command : List String) : Outcome :=
  match table.reverse.find? fun entry => entry.1 == command with
  | some entry => entry.2
  | none =>
    .unavailable ("[Errno 2] No such file or directory: " ++ Literal.quoted (command.headD ""))

/-! ## Answers that are kept -/

/-- The answers so far, the names that the source was asked about, and the commands it ran. -/
structure Memo where
  answers : List (String × Bool) := []
  asked : List String := []
  runs : List Run := []

namespace Memo

def answer? (m : Memo) (name : String) : Option Bool :=
  (m.answers.find? fun a => a.1 == name).map Prod.snd

/-- The source is asked once about each name. -/
def ask (m : Memo) (source : Source) (name : String) : Bool × Memo × List Note :=
  match m.answer? name with
  | some answer => (answer, m, [])
  | none =>
    let reply := source name
    let memo : Memo :=
      { answers := m.answers ++ [(name, reply.isModel)]
        asked := m.asked ++ [name]
        runs := m.runs ++ reply.runs }
    (reply.isModel, memo, reply.notes ++
      [⟨.debug, .persistence, "Model oracle: " ++ name ++
        (if reply.isModel then " -> model" else " -> not a model")⟩])

end Memo
end Persistence
end Bulkhead
