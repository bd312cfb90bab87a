/-
Reading the arguments of the command line.

Options come in a long form that may be shortened as long as it stays clear, with their value after
an equals sign or as the next argument.  Arguments after two dashes are never options.
-/
import Bulkhead.Journal
import Bulkhead.Path
import Bulkhead.Text.Digit

namespace Bulkhead
namespace CommandLine

/-- Why the program ends without doing any work. -/
inductive Exit where
  | help
  | usage
deriving DecidableEq, Repr

/-- An option: its spellings, and whether it takes a value. -/
structure Flag where
  spellings : List String
  takesValue : Bool
deriving DecidableEq, Repr

def helpFlag : Flag :=
  ⟨["-h", "--help"], false⟩

/-- What an argument is taken for. -/
inductive Mark where
  | plain
  | dashes
  | option (flag : Option Flag) (attached : Option String)
  | ambiguous
deriving DecidableEq, Repr

/-- Parts a text at its first equals sign. -/
def cutEquals (arg : String) : String × Option String :=
  let cs := arg.toList
  let name := String.ofList (cs.takeWhile (· != '='))
  match cs.dropWhile (· != '=') with
  | [] => (name, none)
  | _ :: value => (name, some (String.ofList value))

def flagNamed? (flags : List Flag) (spelling : String) : Option Flag :=
  flags.find? fun flag => flag.spellings.contains spelling

/-- The options that an argument with two dashes may be short for, with the value attached to it. -/
def shortened (flags : List Flag) (arg : String) : List (Flag × Option String) :=
  let (name, value) := cutEquals arg
  flags.flatMap fun flag =>
    (flag.spellings.filter fun spelling => name.toList.isPrefixOf spelling.toList).map fun _ =>
      (flag, value)

/-- A minus sign and digits, with a point perhaps. -/
def isNegativeNumber : List Char → Bool
  | '-' :: cs =>
    let whole := cs.takeWhile Text.isDigit
    match cs.drop whole.length with
    | [] => !whole.isEmpty
    | '.' :: part => !part.isEmpty && part.all Text.isDigit
    | _ => false
  | _ => false

/-- An argument that is no known option, nor short for one. -/
def markOfUnknown (cs : List Char) : Mark :=
  if isNegativeNumber cs || cs.contains ' ' then .plain else .option none none

/-- What an argument before two dashes is taken for.  More letters may follow the one for help. -/
def markOf (flags : List Flag) (arg : String) : Mark :=
  match flagNamed? flags arg, cutEquals arg with
  | some flag, _ => .option (some flag) none
  | none, (name, value) =>
    match value, flagNamed? flags name with
    | some value, some flag => .option (some flag) (some value)
    | _, _ =>
      match arg.toList with
      | ['-'] => .plain
      | '-' :: '-' :: cs =>
        match shortened flags arg with
        | [(flag, value)] => .option (some flag) value
        | _ :: _ :: _ => .ambiguous
        | [] => markOfUnknown ('-' :: '-' :: cs)
      | '-' :: 'h' :: _ => .option (some helpFlag) none
      | '-' :: cs => markOfUnknown ('-' :: cs)
      | _ => .plain

/-- The arguments with their marks. -/
def marks (flags : List Flag) : List String → List (String × Mark)
  | [] => []
  | "--" :: rest => ("--", .dashes) :: rest.map (·, .plain)
  | arg :: rest => (arg, markOf flags arg) :: marks flags rest

/-- How many arguments that are not options a command takes; they stand side by side. -/
inductive Arity where
  | none
  | any
  | some
deriving DecidableEq, Repr

/-- The arguments of a command: options in order, plain arguments, and whether any is left over. -/
structure Given where
  options : List (Flag × String) := []
  plain : List String := []
  leftOver : Bool := false
deriving DecidableEq, Repr

namespace Given

def values (g : Given) (flag : Flag) : List String :=
  g.options.filterMap fun o => if o.1 = flag then .some o.2 else .none

/-- The last value of an option. -/
def last? (g : Given) (flag : Flag) : Option String :=
  (g.values flag).getLast?

def has (g : Given) (flag : Flag) : Bool :=
  !(g.values flag).isEmpty

end Given

/-- One option at the front.  Help ends the program at once. -/
def takeOption (flag : Option Flag) (attached : Option String) (given : Given)
    (rest : List (String × Mark)) : Except Exit (Given × List (String × Mark)) :=
  match flag with
  | .none => .ok ({ given with leftOver := true }, rest)
  | .some flag =>
    let add (value : String) : Given := { given with options := given.options ++ [(flag, value)] }
    if flag.takesValue then
      match attached, rest with
      | .some value, rest => .ok (add value, rest)
      | .none, (value, .plain) :: rest => .ok (add value, rest)
      | .none, _ => .error .usage
    else
      match attached with
      | .none => if flag = helpFlag then .error .help else .ok (add "", rest)
      | .some _ => .error .usage

/-- The arguments of a command.  The first argument bounds their number. -/
def takeAll (arity : Arity) : Nat → Bool → Given → List (String × Mark) → Except Exit Given
  | _, _, given, [] => .ok given
  | 0, _, _, _ :: _ => .error .usage
  | bound + 1, taken, given, (arg, mark) :: rest =>
    match mark with
    | .ambiguous => .error .usage
    | .option flag attached =>
      match takeOption flag attached given rest with
      | .ok (given, rest) => takeAll arity bound taken given rest
      | .error exit => .error exit
    | _ =>
      let isPlace (m : Mark) : Bool := m == .plain || m == .dashes
      let here := ((arg, mark) :: rest).takeWhile fun a => isPlace a.2
      let rest := ((arg, mark) :: rest).dropWhile fun a => isPlace a.2
      let fits :=
        match arity with
        | .none => false
        | .any => true
        | .some => here.any fun a => a.2 == .plain
      if fits && !taken then
        let plain := (here.filter fun a => a.2 == .plain).map Prod.fst
        takeAll arity bound true { given with plain } rest
      else takeAll arity bound taken { given with leftOver := true } rest

def takeGiven (flags : List Flag) (arity : Arity) (args : List String) : Except Exit Given :=
  let marked := marks (helpFlag :: flags) args
  if marked.any fun a => a.2 == .ambiguous then .error .usage
  else
    match takeAll arity (args.length + 1) false {} marked with
    | .error exit => .error exit
    | .ok given =>
      if arity = .some && given.plain.isEmpty then .error .usage else .ok given

/-! ## The commands -/

structure CheckOptions where
  settings : Path
  root : Option Path
  models : List String
  trace : Bool
  trees : List Path

inductive Command where
  | check (options : CheckOptions)
  | checksum (settings : Path) (root : Option Path)
  | factories (root : Path) (enginesPath : String) (trees : List Path)

structure Invocation where
  level : Level
  command : Command

def levelFlag : Flag := ⟨["--log-level"], true⟩

def configFlag : Flag := ⟨["--config"], true⟩

def rootFlag : Flag := ⟨["--root"], true⟩

def modelsFlag : Flag := ⟨["--models"], true⟩

def traceFlag : Flag := ⟨["--trace"], false⟩

def enginesPathFlag : Flag := ⟨["--engines-path"], true⟩

/-- The arguments must all have been used, and the settings be named. -/
def readCheck (args : List String) : Except Exit Command := do
  let given ← takeGiven [configFlag, rootFlag, modelsFlag, traceFlag] .some args
  match given.last? configFlag, given.leftOver with
  | .some settings, false =>
    return .check
      { settings := .ofString settings
        root := (given.last? rootFlag).map .ofString
        models := given.values modelsFlag
        trace := given.has traceFlag
        trees := given.plain.map .ofString }
  | _, _ => throw .usage

def readChecksum (args : List String) : Except Exit Command := do
  let given ← takeGiven [configFlag, rootFlag] .none args
  match given.last? configFlag, given.leftOver with
  | .some settings, false =>
    return .checksum (.ofString settings) ((given.last? rootFlag).map .ofString)
  | _, _ => throw .usage

def readFactories (args : List String) : Except Exit Command := do
  let given ← takeGiven [rootFlag, enginesPathFlag] .any args
  if given.leftOver then throw .usage
  return .factories (.ofString ((given.last? rootFlag).getD "."))
    ((given.last? enginesPathFlag).getD "engines/") (given.plain.map .ofString)

def readCommand (name : String) (args : List String) : Except Exit Command :=
  match name with
  | "check" => readCheck args
  | "checksum" => readChecksum args
  | "factories" => readFactories args
  | _ => .error .usage

/-- The options before the name of the command, and then the command with its arguments.  The first
argument bounds their number. -/
def readFrom : Nat → Level → Given → List (String × Mark) → Except Exit Invocation
  | 0, _, _, _ => .error .usage
  | _, _, _, [] => .error .usage
  | bound + 1, level, given, (arg, mark) :: rest =>
    match mark with
    | .ambiguous | .dashes => .error .usage
    | .plain => do
      let command ← readCommand arg (rest.map Prod.fst)
      if given.leftOver then throw .usage
      return ⟨level, command⟩
    | .option flag attached => do
      let (given, rest) ← takeOption flag attached given rest
      match given.last? levelFlag with
      | .none => readFrom bound level given rest
      | .some name =>
        match Level.ofName? name with
        | .some level => readFrom bound level given rest
        | .none => throw .usage

/-- Reads the arguments of the program. -/
def read (args : List String) : Except Exit Invocation :=
  let marked := marks [helpFlag, levelFlag] args
  if marked.any fun a => a.2 == .ambiguous then .error .usage
  else readFrom (args.length + 1) .warning {} marked

end CommandLine
end Bulkhead
