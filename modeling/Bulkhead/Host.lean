/-
The machine that an analysis runs on.

Besides its files a host has obstacles: why the status of a path cannot be had, why a directory cannot
be listed, why a file cannot be opened, and why a question does not reach the application.  A file
system stands for the host that has these files and no obstacle.
-/
import Bulkhead.FileSystem
import Bulkhead.Persistence

namespace Bulkhead

open FileSystem (Cause)

structure Host where
  files : FileSystem
  status : Path → Option Cause := fun _ => none
  listing : Path → Option Cause := fun _ => none
  opening : Path → Option Cause := fun _ => none
  asking : String → Option Persistence.Escape := fun _ => none

namespace Host

/-- The host where nothing stands in the way of these files. -/
def clear (files : FileSystem) : Host :=
  { files }

instance : Coe FileSystem Host := ⟨clear⟩

/-! ## Status -/

/-- What the status of a path tells, if it is to be had.  Of a path that leads nowhere nothing is
true. -/
def test (host : Host) (p : Path) (fact : Bool) : Except FileSystem.Failure Bool :=
  match host.status p with
  | none => .ok fact
  | some cause => if cause.isAbsence then .ok false else .error ⟨cause, p⟩

def isFile (host : Host) (p : Path) : Except FileSystem.Failure Bool :=
  host.test p (host.files.isFile p)

def isDirectory (host : Host) (p : Path) : Except FileSystem.Failure Bool :=
  host.test p (host.files.isDirectory p)

/-! ## Listings -/

/-- The names of the directories among the entries of a directory. -/
def directoriesAmong (host : Host) (p : Path) :
    List (String × Entry) → Except FileSystem.Failure (List String)
  | [] => .ok []
  | (name, entry) :: rest => do
    let isDirectory ← host.test (p.child name) entry.isDirectory
    let names ← host.directoriesAmong p rest
    return if isDirectory then name :: names else names

/-- The names in a directory and what they stand for. -/
def list (host : Host) (p : Path) : Except FileSystem.Failure (List (String × Entry)) :=
  match host.listing p with
  | some cause => .error ⟨cause, p⟩
  | none => host.files.list p

/-- The names of the directories in a directory. -/
def directories (host : Host) (p : Path) : Except FileSystem.Failure (List String) := do
  host.directoriesAmong p (← host.list p)

/-- The listing of a directory is denied.  Other failures to list it are not passed over. -/
def isClosed (host : Host) (p : Path) : Except FileSystem.Failure Bool :=
  match host.listing p with
  | none => .ok false
  | some .denied => .ok true
  | some cause => .error ⟨cause, p⟩

/-- The way from a directory down the segments leads through a closed one. -/
def isHidden (host : Host) : Path → List String → Except FileSystem.Failure Bool
  | _, [] => .ok false
  | p, segment :: rest => do
    if ← host.isClosed p then return true else host.isHidden (p.child segment) rest

/-- A file that is wanted among what there is below a directory, with its time of change. -/
def fileAmong (host : Host) (p : Path) (wanted : List String → Bool) :
    List String × Entry → Except FileSystem.Failure (Option (List String × Int))
  | (segments, .directory) => do
    let path := p.join ⟨0, segments⟩
    let _ ← host.isClosed path
    if wanted segments then let _ ← host.test path false
    return none
  | (segments, .file _ modified) => do
    if wanted segments then
      let isFile ← host.test (p.join ⟨0, segments⟩) true
      return if isFile then some (segments, modified) else none
    else return none

/-- The files that are wanted among what there is below a directory, as far as it is not hidden. -/
def filesAmong (host : Host) (p : Path) (wanted : List String → Bool) :
    List (List String × Entry) → Except FileSystem.Failure (List (List String × Int))
  | [] => .ok []
  | e :: rest => do
    let hidden ← host.isHidden p e.1
    let file ← if hidden then pure none else host.fileAmong p wanted e
    return file.toList ++ (← host.filesAmong p wanted rest)

/-- The files that are wanted below a directory, at any depth, with the segments that lead to each
and its time of change; none if there is no such directory. -/
def filesBelow (host : Host) (p : Path) (wanted : List String → Bool) :
    Except FileSystem.Failure (List (List String × Int)) := do
  if ← host.isDirectory p then
    if ← host.isClosed p then return []
    host.filesAmong p wanted (host.files.below p)
  else return []

/-! ## Contents -/

/-- The text of a file, with its line ends unified. -/
def readText (host : Host) (p : Path) : Except FileSystem.ReadFailure String :=
  match host.opening p with
  | some cause => .error (.unavailable ⟨cause, p⟩)
  | none => host.files.readText p

/-! ## Hosts without obstacles -/

section Clear

variable (fs : FileSystem) (p : Path)

@[simp]
theorem test_clear (fact : Bool) : (clear fs).test p fact = .ok fact := rfl

@[simp]
theorem isFile_clear : (clear fs).isFile p = .ok (fs.isFile p) := rfl

@[simp]
theorem isDirectory_clear : (clear fs).isDirectory p = .ok (fs.isDirectory p) := rfl

@[simp]
theorem list_clear : (clear fs).list p = fs.list p := rfl

@[simp]
theorem readText_clear : (clear fs).readText p = fs.readText p := rfl

theorem directoriesAmong_clear (found : List (String × Entry)) :
    (clear fs).directoriesAmong p found =
      .ok ((found.filter fun e => e.2.isDirectory).map Prod.fst) := by
  induction found with
  | nil => rfl
  | cons e rest ih =>
    obtain ⟨name, entry⟩ := e
    rw [directoriesAmong, ih, List.filter_cons]
    cases entry <;> rfl

@[simp]
theorem directories_clear : (clear fs).directories p = fs.directories p := by
  rw [directories, list_clear, FileSystem.directories]
  cases fs.list p with
  | error failure => rfl
  | ok found => exact directoriesAmong_clear fs p found

theorem isHidden_clear (segments : List String) : (clear fs).isHidden p segments = .ok false := by
  induction segments generalizing p with
  | nil => rfl
  | cons segment rest ih => exact ih (p.child segment)

variable (wanted : List String → Bool)

theorem fileAmong_clear (e : List String × Entry) :
    (clear fs).fileAmong p wanted e =
      .ok ((e.2.modified?.map fun modified => (e.1, modified)).filter fun file => wanted file.1) := by
  obtain ⟨segments, entry⟩ := e
  cases entry with
  | directory =>
    rw [fileAmong]
    cases wanted segments <;> rfl
  | file content modified =>
    cases hwanted : wanted segments <;>
      simp [fileAmong, Entry.modified?, hwanted, Option.filter] <;> rfl

theorem filesAmong_clear (found : List (List String × Entry)) :
    (clear fs).filesAmong p wanted found =
      .ok ((found.filterMap fun e => e.2.modified?.map fun modified => (e.1, modified)).filter
        fun file => wanted file.1) := by
  induction found with
  | nil => rfl
  | cons e rest ih =>
    rw [filesAmong, isHidden_clear, ih, List.filterMap_cons]
    show ((clear fs).fileAmong p wanted e >>= fun file => Except.ok (file.toList ++ _)) = _
    rw [fileAmong_clear]
    cases e.2.modified? with
    | none => rfl
    | some modified => cases hwanted : wanted e.1 <;> simp [Option.filter, hwanted] <;> rfl

@[simp]
theorem filesBelow_clear :
    (clear fs).filesBelow p wanted = .ok ((fs.filesBelow p).filter fun file => wanted file.1) := by
  rw [filesBelow, isDirectory_clear, FileSystem.filesBelow]
  cases hdirectory : fs.isDirectory p with
  | true => exact filesAmong_clear fs p wanted (fs.below p)
  | false =>
    rw [FileSystem.below_of_not_isDirectory hdirectory]
    rfl

end Clear

end Host
end Bulkhead
