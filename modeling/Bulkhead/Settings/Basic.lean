/-
The settings of an analysis.
-/
import Bulkhead.FileSystem
import Bulkhead.Naming
import Bulkhead.Settings.Check

namespace Bulkhead

/-- A length of time in seconds, as it was given: an integer or a number with a fraction. -/
inductive Seconds where
  | whole (n : Int)
  | real (x : Number.Double)
deriving DecidableEq, Repr

namespace Seconds

def text : Seconds → String
  | .whole n => toString n
  | .real x => x.text

def tenthsText : Seconds → String
  | .whole n => (Number.Double.nearest (decide (n < 0)) n.natAbs 1).tenthsText
  | .real x => x.tenthsText

end Seconds

/-- How to find out whether a constant is a persistence model. -/
structure ModelSettings where
  kind : String := "runner"
  command : List String := ["bin/rails", "runner", "puts \x7bname\x7d.ancestors"]
  persistenceBase : String := "ActiveRecord::Base"
  timeout : Seconds := .real (Number.Double.nearest false 60 1)
  workingDirectory : Option String := none
  models : List String := []
deriving DecidableEq, Repr

/-- A list of names without repetitions, in the order of their characters. -/
def sortedSet (names : List String) : List String :=
  (names.mergeSort fun a b => decide (a ≤ b)).eraseDups

/-- Sets the value of a name: in its place if there is one, else at the end. -/
def putNamed {α : Type} (name : String) (value : α) : List (String × α) → List (String × α)
  | [] => [(name, value)]
  | (key, old) :: rest =>
    if key = name then (key, value) :: rest else (key, old) :: putNamed name value rest

/-- Named values of which the later ones replace earlier ones of the same name. -/
def ofPairs {α : Type} (pairs : List (String × α)) : List (String × α) :=
  pairs.foldl (fun made pair => putNamed pair.1 pair.2 made) []

/-- The path of the engines with a slash at its end. -/
def closePath (path : String) : String :=
  if path.toList.getLast? == some '/' then path else path ++ "/"

theorem getLast?_closePath (path : String) : (closePath path).toList.getLast? = some '/' := by
  unfold closePath
  split
  · next h => exact eq_of_beq h
  · simp [String.toList_append]

/-- The settings.  The path of the engines ends with a slash, so that what follows it in a file name
is the directory of an engine. -/
structure Settings where
  enginesPath : String
  closed : enginesPath.toList.getLast? = some '/'
  unprotected : List String := []
  stronglyProtected : List String := []
  overrides : List (String × List String) := []
  apiPath : String
  model : ModelSettings := {}
deriving DecidableEq, Repr

namespace Settings

def defaultApiPath : String :=
  "\x7bengine\x7d/app/api/\x7bengine\x7d/api"

/-- Why settings were refused.  Those read from a file name it. -/
inductive Failure where
  | notMapping (file : Option Path) (typeName : String)
  | invalid (file : Option Path) (fault : Fault)
  | timeoutTooLarge
  | notYaml (path : Path)
  | unread (path : Path)
  | unavailable (path : Path) (failure : FileSystem.ReadFailure)

namespace Failure

def inFile (path : Path) : Failure → Failure
  | .notMapping _ typeName => .notMapping (some path) typeName
  | .invalid _ fault => .invalid (some path) fault
  | failure => failure

def fileText : Option Path → String
  | some path => path.toString ++ ": "
  | none => ""

def message : Failure → String
  | .notMapping file typeName =>
    fileText file ++ "configuration must be a mapping, got " ++ typeName
  | .invalid file fault => fileText file ++ fault.message
  | .timeoutTooLarge => "int too large to convert to float"
  | .notYaml path => "Failed to parse YAML for configuration " ++ path.toString
  | .unread path => "no document could be read from " ++ path.toString
  | .unavailable path failure =>
    "Failed to read configuration " ++ path.toString ++ ": " ++ failure.message

end Failure

/-! ## The shape of the document -/

open Check

def nameList : Check :=
  every [isList, items (every [isText, notEmpty])]

def nameListOrNull : Check :=
  anyOf [nameList, isNull]

def overrideShape : Check :=
  every [isObject, has "Engine", field "Engine" (every [isText, notEmpty]),
    field "AllowedModules" nameListOrNull]

def modelShape : Check :=
  every [isObject, field "Kind" (oneOf ["runner", "static"]),
    field "Command" (every [isList, notEmpty, items isText]),
    field "PersistenceBase" (every [isText, notEmpty]),
    field "TimeoutSeconds" (every [isNumber, aboveZero]),
    field "WorkingDirectory" isText, field "Models" nameList,
    only ["Kind", "Command", "PersistenceBase", "TimeoutSeconds", "WorkingDirectory", "Models"]]

def shape : Check :=
  every [isObject, has "EnginesPath", field "EnginesPath" (every [isText, notEmpty]),
    field "UnprotectedEngines" nameListOrNull,
    field "StronglyProtectedEngines" nameListOrNull,
    field "EngineSpecificOverrides" (anyOf [isNull, every [isList, items overrideShape]]),
    field "ApiPath" (every [isText, holds "\x7bengine\x7d" "\\\x7bengine\\\x7d"]),
    field "ModelOracle" modelShape]

/-! ## Reading -/

def textOf : Value → String
  | .text s => s
  | _ => ""

def textsOf : Value → List String
  | .list items => items.map textOf
  | _ => []

def textsIn (v : Value) (name : String) : List String :=
  ((v.field? name).map textsOf).getD []

def constants (names : List String) : List String :=
  sortedSet (names.map Naming.toConstant)

def readOverrides : Value → List (String × List String)
  | .list entries =>
    ofPairs (entries.map fun entry =>
      (Naming.toConstant (((entry.field? "Engine").map textOf).getD ""),
        textsIn entry "AllowedModules"))
  | _ => []

def readTimeout (v : Value) : Option Seconds :=
  match v.field? "TimeoutSeconds" with
  | some (.int n) => (Number.Double.ofInt? n).map .real
  | some (.real x) => some (.real x)
  | _ => some ({ : ModelSettings }).timeout

def readModel (v : Value) : Option ModelSettings :=
  let absent : ModelSettings := {}
  (readTimeout v).map fun timeout =>
    { kind := ((v.field? "Kind").map textOf).getD absent.kind
      command := ((v.field? "Command").map textsOf).getD absent.command
      persistenceBase := ((v.field? "PersistenceBase").map textOf).getD absent.persistenceBase
      timeout
      workingDirectory := (v.field? "WorkingDirectory").map textOf
      models := sortedSet (textsIn v "Models") }

/-- The settings stand in a section of their own or are the whole document. -/
def section? (v : Value) : Value :=
  match v.field? "EngineApiBoundary" with
  | some (.object fields) => .object fields
  | _ => v

/-- Reads the settings from a document. -/
def ofValue (document : Value) : Except Failure Settings :=
  let v := section? document
  match v with
  | .object _ =>
    match shape v with
    | some fault => .error (.invalid none fault)
    | none =>
      match readModel ((v.field? "ModelOracle").getD .null) with
      | none => .error .timeoutTooLarge
      | some model =>
        .ok
          { enginesPath := closePath (((v.field? "EnginesPath").map textOf).getD "")
            closed := getLast?_closePath _
            unprotected := constants (textsIn v "UnprotectedEngines")
            stronglyProtected := constants (textsIn v "StronglyProtectedEngines")
            overrides := readOverrides ((v.field? "EngineSpecificOverrides").getD .null)
            apiPath := ((v.field? "ApiPath").map textOf).getD defaultApiPath
            model }
  | v => .error (.notMapping none v.typeName)

end Settings
end Bulkhead
