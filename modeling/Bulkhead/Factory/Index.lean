/-
The classes that factories build, by file.

The class of a factory is the one it gives, else that of the factory block around it, else the one
its name spells.  A factory that gives a parent and no class builds what the parent builds; that is
settled when all files have been read.
-/
import Bulkhead.Factory.Declaration
import Bulkhead.Journal
import Bulkhead.Protection
import Bulkhead.SourceTree.Document

namespace Bulkhead
namespace Factory

/-- What a declaration says about its names: the parent if it counts, and the class. -/
structure Registration where
  names : List String
  parent : Option String
  className : String
deriving DecidableEq, Repr

/-- What the blocks around a node say. -/
structure Scope where
  parent : Option String := none
  className : Option String := none
deriving DecidableEq, Repr

/-- What holds inside a factory.  With a class of its own the parent does not matter. -/
def Scope.enter (scope : Scope) (f : Factory) : Scope :=
  match nonEmpty f.className with
  | some className => ⟨none, some className⟩
  | none =>
    ⟨(nonEmpty f.parent).or scope.parent,
      some ((nonEmpty scope.className).getD (Naming.toConstant f.name))⟩

def register (scope : Scope) (f : Factory) : Registration where
  names := f.name :: f.aliases
  parent := scope.parent
  className := scope.className.getD ""

mutual

/-- The declarations in a branch, in reading order.  Nothing inside the arguments of a declaration
is looked at. -/
def registrations (scope : Scope) : Branch → List Registration
  | .node kind value source location slots =>
    let b : Branch := .node kind value source location slots
    match (callAt b).bind ofCall? with
    | none => registrationsIn scope slots
    | some f =>
      let inner := scope.enter f
      if isDeclaration b then [register inner f] else registrationsIn inner slots

def registrationsIn (scope : Scope) : List (Option Branch) → List Registration
  | [] => []
  | none :: rest => registrationsIn scope rest
  | some b :: rest => registrations scope b ++ registrationsIn scope rest

end

/-- The names of one file, with their classes or with their parents. -/
abbrev Names := List (String × String)

/-- The classes and the parents by file, in the order of the files. -/
structure Index where
  classes : List (String × Names) := []
  parents : List (String × Names) := []
deriving DecidableEq, Repr

namespace Index

def addNames (value : String) (names : List String) (made : Names) : Names :=
  names.foldl (fun made name => putNamed name value made) made

def classesOf (found : List Registration) : Names :=
  found.foldl (fun made r => if r.parent.isNone then addNames r.className r.names made else made) []

def parentsOf (found : List Registration) : Names :=
  found.foldl
    (fun made r =>
      match r.parent with
      | some parent => addNames parent r.names made
      | none => made) []

/-- Takes in the declarations of a file.  A second file of the same path replaces the first. -/
def addTree (index : Index) (t : SourceTree) : Index :=
  let found := (t.root.map (registrations {})).getD []
  { classes := putNamed t.path (classesOf found) index.classes
    parents := putNamed t.path (parentsOf found) index.parents }

/-! ## Parents -/

/-- The names of all files; later files win. -/
def merge (files : List (String × Names)) : Names :=
  ofPairs (files.flatMap Prod.snd)

/-- The number of parents that a way has not been at. -/
def ahead (parents : Names) (seen : List String) : Nat :=
  parents.countP fun pair => !seen.contains pair.2

theorem ahead_lt {parents : Names} {seen : List String} {name next : String}
    (h : named? name parents = some next) (hnew : ¬seen.contains next = true) :
    ahead parents (next :: seen) < ahead parents seen := by
  have hfewer (pair : String × String) (hpair : (!(next :: seen).contains pair.2) = true) :
      (!seen.contains pair.2) = true := by
    rw [List.contains_cons, Bool.not_or, Bool.and_eq_true] at hpair
    exact hpair.2
  have hle (rest : Names) : ahead rest (next :: seen) ≤ ahead rest seen :=
    List.countP_mono_left fun pair _ => hfewer pair
  induction parents with
  | nil => cases h
  | cons pair rest ih =>
    rw [ahead, ahead, List.countP_cons, List.countP_cons]
    rw [named?] at h
    by_cases hkey : pair.1 = name
    · rw [if_pos hkey] at h
      cases h
      rw [if_neg (by simp), if_pos (by simpa using hnew)]
      exact Nat.lt_succ_of_le (hle rest)
    · rw [if_neg hkey] at h
      refine Nat.add_lt_add_of_lt_of_le (ih h) ?_
      by_cases hpair : (!(next :: seen).contains pair.2) = true
      · exact Nat.le_of_eq (by rw [if_pos hpair, if_pos (hfewer pair hpair)])
      · rw [if_neg hpair]
        exact Nat.zero_le _

/-- The last name on the way from parent to parent.  The way ends before a name it has been at. -/
def ancestor (parents : Names) (seen : List String) (name : String) : String × List Note :=
  match _hnext : named? name parents with
  | none => (name, [])
  | some next =>
    if _hseen : seen.contains next then
      (name, [⟨.debug, .factories, "Cycle in factory parents at " ++ next⟩])
    else ancestor parents (next :: seen) next
termination_by ahead parents seen
decreasing_by exact ahead_lt _hnext _hseen

/-- Settles the names of one file that have a parent. -/
def resolveNames (classes parents : Names) (path : String) : Names → Names → Names × List Note
  | [], made => (made, [])
  | (factory, parent) :: rest, made =>
    let (last, notes) := ancestor parents [parent] parent
    match named? last classes with
    | none =>
      let (made, more) := resolveNames classes parents path rest made
      (made, notes ++ ⟨.debug, .factories, "Factory " ++ factory ++ " in " ++ path ++
        " has unresolved parent " ++ last⟩ :: more)
    | some className =>
      let (made, more) := resolveNames classes parents path rest (putNamed factory className made)
      (made, notes ++ more)

def resolveFiles (classes parents : Names) :
    List (String × Names) → List (String × Names) → List (String × Names) × List Note
  | [], made => (made, [])
  | (path, names) :: rest, made =>
    let (own, notes) := resolveNames classes parents path names ((named? path made).getD [])
    let (made, more) := resolveFiles classes parents rest (putNamed path own made)
    (made, notes ++ more)

/-- Settles all names that have a parent. -/
def resolve (index : Index) : Index × List Note :=
  let (classes, notes) :=
    resolveFiles (merge index.classes) (merge index.parents) index.parents index.classes
  ({ index with classes }, notes)

def indexedNote (index : Index) : Note where
  level := .debug
  topic := .factories
  text := "Indexed " ++ toString (index.classes.flatMap Prod.snd).length ++
    " factories from " ++ toString index.classes.length ++ " files"

/-- Takes in trees up to the first that could not be read. -/
def addTrees (index : Index) :
    List (Except SourceTree.Failure SourceTree) → Index × Option SourceTree.Failure
  | [] => (index, none)
  | .ok t :: rest => (index.addTree t).addTrees rest
  | .error failure :: _ => (index, some failure)

/-- The class that a factory builds, in the first file that has it. -/
def lookup? (index : Index) (factory : String) : Option String :=
  index.classes.findSome? fun file => named? factory file.2

def toValue (index : Index) : Value :=
  .record (index.classes.map fun file =>
    (file.1, .record (file.2.map fun name => (name.1, .text name.2))))

end Index

/-- An index that is built when it is first asked for. -/
structure Ledger where
  index : Option Index := none

/-- The index, built from the trees if that has not been tried.  When a tree cannot be read, what
was taken in before it is kept as the index, with its parents not settled. -/
def Ledger.consult (ledger : Ledger) (trees : List (Except SourceTree.Failure SourceTree)) :
    Except SourceTree.Failure Index × Ledger × List Note :=
  match ledger.index with
  | some index => (.ok index, ledger, [])
  | none =>
    match Index.addTrees {} trees with
    | (index, some failure) => (.error failure, ⟨some index⟩, [])
    | (index, none) =>
      let (index, notes) := index.resolve
      (.ok index, ⟨some index⟩, notes ++ [index.indexedNote])

/-! ## Finding the files -/

def directory : Path :=
  .ofString "spec/factories"

/-- The files below a directory whose names have the given ending. -/
def filesIn (host : Host) (base : Path) (ending : String) :
    Except FileSystem.Failure (List Path) := do
  let base := base.join directory
  let files ← host.filesBelow base fun segments =>
    ending.toList.isSuffixOf (segments.getLastD "").toList
  return files.map fun file => base.join ⟨0, file.1⟩

/-- The tree documents with factories of the application and of all engines, in order. -/
def discover (host : Host) (root : Path) (enginesPath : Path) (ending : String) :
    Except FileSystem.Failure (List Path) := do
  let engines := root.join enginesPath
  let own ← filesIn host root ending
  let names ← if ← host.isDirectory engines then host.list engines else pure []
  let found ← names.mapM fun e => filesIn host (engines.child e.1) ending
  return Path.sort (own ++ found.flatten).eraseDups

end Factory
end Bulkhead
