/-
File systems as values.

A file system lists its directories and files by their segments below the root, which always exists.
An absolute path starts at the root, a relative one at the working directory.
-/
import Bulkhead.Path
import Bulkhead.Text.Utf8

namespace Bulkhead

inductive Entry where
  | directory
  | file (content : ByteArray) (modified : Int)

namespace Entry

def isDirectory : Entry → Bool
  | directory => true
  | file _ _ => false

/-- The time of change of a file. -/
def modified? : Entry → Option Int
  | directory => none
  | file _ modified => some modified

end Entry

structure FileSystem where
  entries : List (List String × Entry) := []
  workingDirectory : List String := []

namespace FileSystem

/-- Why an operation on a path failed. -/
inductive Cause where
  | noSuchFile
  | notADirectory
  | isADirectory
  | denied
  | nameTooLong
  | inputOutput
  | notAPath
deriving DecidableEq, Repr

namespace Cause

/-- The path leads nowhere. -/
def isAbsence : Cause → Bool
  | noSuchFile | notADirectory | notAPath => true
  | isADirectory | denied | nameTooLong | inputOutput => false

/-- The cause is an error of the system.  A text that cannot be a path is turned away before. -/
def isSystem : Cause → Bool
  | notAPath => false
  | _ => true

end Cause

structure Failure where
  cause : Cause
  path : Path
deriving DecidableEq, Repr

namespace Failure

def message (f : Failure) : String :=
  let system (error : String) : String := error ++ ": " ++ Literal.quoted f.path.toString
  match f.cause with
  | .noSuchFile => system "[Errno 2] No such file or directory"
  | .notADirectory => system "[Errno 20] Not a directory"
  | .isADirectory => system "[Errno 21] Is a directory"
  | .denied => system "[Errno 13] Permission denied"
  | .nameTooLong => system "[Errno 36] File name too long"
  | .inputOutput => system "[Errno 5] Input/output error"
  | .notAPath => "embedded null byte"

end Failure

def lookup (fs : FileSystem) (place : List String) : Option Entry :=
  if place.isEmpty then some .directory
  else (fs.entries.find? fun e => e.1 == place).map Prod.snd

/-- The place that the segments lead to from a given place. -/
def walk (fs : FileSystem) : List String → List String → Except Cause (List String × Entry)
  | place, [] =>
    match fs.lookup place with
    | some entry => .ok (place, entry)
    | none => .error .noSuchFile
  | place, segment :: rest =>
    match fs.lookup place with
    | none => .error .noSuchFile
    | some (.file _ _) => .error .notADirectory
    | some .directory =>
      -- Above the root there is the root.
      if segment = ".." then fs.walk place.dropLast rest else fs.walk (place ++ [segment]) rest

/-- The place that a path starts at. -/
def start (fs : FileSystem) (p : Path) : List String :=
  if p.isAbsolute then [] else fs.workingDirectory

def resolve (fs : FileSystem) (p : Path) : Except Failure (List String × Entry) :=
  match fs.walk (fs.start p) p.segments with
  | .ok found => .ok found
  | .error cause => .error ⟨cause, p⟩

def isDirectory (fs : FileSystem) (p : Path) : Bool :=
  match fs.resolve p with
  | .ok (_, .directory) => true
  | _ => false

def isFile (fs : FileSystem) (p : Path) : Bool :=
  match fs.resolve p with
  | .ok (_, .file _ _) => true
  | _ => false

/-- The names in a directory and what they stand for. -/
def list (fs : FileSystem) (p : Path) : Except Failure (List (String × Entry)) :=
  match fs.resolve p with
  | .error failure => .error failure
  | .ok (_, .file _ _) => .error ⟨.notADirectory, p⟩
  | .ok (place, .directory) =>
    .ok <| fs.entries.filterMap fun e =>
      match place.isPrefixOf? e.1 with
      | some [name] => some (name, e.2)
      | _ => none

/-- The names of the directories in a directory. -/
def directories (fs : FileSystem) (p : Path) : Except Failure (List String) :=
  (fs.list p).map fun found => (found.filter fun e => e.2.isDirectory).map Prod.fst

/-- What there is below a directory at any depth, with the segments that lead to it. -/
def below (fs : FileSystem) (p : Path) : List (List String × Entry) :=
  match fs.resolve p with
  | .ok (place, .directory) =>
    fs.entries.filterMap fun e => (place.isPrefixOf? e.1).map fun segments => (segments, e.2)
  | _ => []

theorem below_of_not_isDirectory {fs : FileSystem} {p : Path} (h : fs.isDirectory p = false) :
    fs.below p = [] := by
  rw [isDirectory] at h
  rw [below]
  split at h
  · cases h
  · rfl

/-- The files below a directory at any depth, with the segments that lead to each and its time of
change. -/
def filesBelow (fs : FileSystem) (p : Path) : List (List String × Int) :=
  (fs.below p).filterMap fun e => e.2.modified?.map fun modified => (e.1, modified)

def content (fs : FileSystem) (p : Path) : Except Failure ByteArray :=
  match fs.resolve p with
  | .error failure => .error failure
  | .ok (_, .directory) => .error ⟨.isADirectory, p⟩
  | .ok (_, .file content _) => .ok content

/-- Why a text could not be read. -/
inductive ReadFailure where
  | unavailable (failure : Failure)
  | notText (fault : Option Utf8.Fault)
deriving DecidableEq, Repr

namespace ReadFailure

/-- The failure is an error of the system. -/
def isSystem : ReadFailure → Bool
  | .unavailable failure => failure.cause.isSystem
  | .notText _ => false

def message : ReadFailure → String
  | .unavailable failure => failure.message
  | .notText fault => (fault.map Utf8.Fault.message).getD ""

end ReadFailure

/-- The text of a file, with its line ends unified. -/
def readText (fs : FileSystem) (p : Path) : Except ReadFailure String :=
  match fs.content p with
  | .error failure => .error (.unavailable failure)
  | .ok bytes =>
    match String.fromUTF8? bytes with
    | some s => .ok (String.ofList (Text.unifyLines s.toList))
    | none => .error (.notText (Utf8.firstFault 0 0 bytes.toList))

/-! ## Changes -/

def set (fs : FileSystem) (place : List String) (entry : Entry) : FileSystem :=
  if fs.entries.any fun e => e.1 == place then
    { fs with entries := fs.entries.map fun e => if e.1 == place then (place, entry) else e }
  else { fs with entries := fs.entries ++ [(place, entry)] }

/-- Makes the directories that are missing on the way to a place. -/
def makeWay (fs : FileSystem) : List String → List String → FileSystem
  | _, [] => fs
  | made, segment :: rest =>
    let place := made ++ [segment]
    match fs.lookup place with
    | some _ => fs.makeWay place rest
    | none => (fs.set place .directory).makeWay place rest

def makeDirectory (fs : FileSystem) (p : Path) : FileSystem :=
  fs.makeWay (fs.start p) p.segments

/-- Writes a file, with the directories that lead to it. -/
def write (fs : FileSystem) (p : Path) (content : ByteArray) (modified : Int) : FileSystem :=
  (fs.makeWay (fs.start p) p.segments.dropLast).set (fs.start p ++ p.segments)
    (.file content modified)

/-- Removes a file or a directory with all it holds. -/
def remove (fs : FileSystem) (p : Path) : FileSystem :=
  { fs with entries := fs.entries.filter fun e => !(fs.start p ++ p.segments).isPrefixOf e.1 }

/-- Changes the time of change of a file. -/
def touch (fs : FileSystem) (p : Path) (modified : Int) : FileSystem :=
  { fs with
    entries := fs.entries.map fun e =>
      if e.1 == fs.start p ++ p.segments then
        match e.2 with
        | .file content _ => (e.1, .file content modified)
        | .directory => e
      else e }

end FileSystem
end Bulkhead
