/-
The published lists of all engines, read when they are asked for and kept.

What was read is kept together with a digest of the files in the engine's API directory and their
times of change.  Before it is used again after a `revalidate`, the digest is compared.  The engine
counts as compared from then on, also if the reading that may follow fails.
-/
import Bulkhead.Digest.Sha256
import Bulkhead.Failure
import Bulkhead.Host
import Bulkhead.Journal
import Bulkhead.Naming
import Bulkhead.PublicApi.Listing

namespace Bulkhead
namespace PublicApi

/-- What an engine publishes. -/
structure Artifacts where
  allowlist : List String
  legacyDependents : List String
deriving DecidableEq, Repr

structure Shelved where
  digest : String
  artifacts : Artifacts
deriving DecidableEq, Repr

structure Catalog where
  enginesDirectory : Path
  apiPath : String
  shelf : List (String × Shelved) := []
  verified : List String := []

namespace Catalog

/-- The API directory of the engine in the given directory. -/
def apiDirectory (c : Catalog) (directory : String) : Except Template.Fault Path :=
  (Template.fill c.apiPath directory).map fun path => c.enginesDirectory.join (.ofString path)

/-- The directory of an engine: the one it was found in, else the one its name spells. -/
def directoryName (found : Option String) (engine : String) : String :=
  match found with
  | some directory => if directory.isEmpty then Naming.toDirectory engine else directory
  | none => Naming.toDirectory engine

/-! ## Digests -/

/-- The files below a directory by their paths, in order. -/
def arrange (directory : Path) (files : List (List String × Int)) : List (Path × Int) :=
  (files.map fun file => (directory.join ⟨0, file.1⟩, file.2)).mergeSort fun a b => a.1.le b.1

/-- The files below a directory, in order, with their times of change. -/
def inventory (host : Host) (directory : Path) : Except FileSystem.Failure (List (Path × Int)) :=
  (host.filesBelow directory fun _ => true).map (arrange directory)

def listingText (files : List (Path × Int)) : String :=
  String.join (files.map fun file => file.1.toString ++ ":" ++ toString file.2 ++ "\n")

def digest (files : List (Path × Int)) : String :=
  Sha256.hex (listingText files).toUTF8.toList

/-- The inventories of the API directories of all engines, one after the other. -/
def wholeInventory (c : Catalog) (host : Host) : List String → Except Failure (List (Path × Int))
  | [] => .ok []
  | directory :: rest => do
    let path ← (c.apiDirectory directory).mapError .template
    let files ← (inventory host path).mapError .files
    return files ++ (← c.wholeInventory host rest)

/-- The names in the engines directory.  If the system cannot list it there are none. -/
def engineNames (c : Catalog) (host : Host) : Except Failure (List String) :=
  match host.directories c.enginesDirectory with
  | .ok names => .ok names
  | .error failure => if failure.cause.isSystem then .ok [] else .error (.files failure)

/-- The digest of the API files of all engines. -/
def wholeDigest (c : Catalog) (host : Host) : Except Failure String := do
  let names ← c.engineNames host
  let files ← c.wholeInventory host (names.mergeSort fun a b => decide (a ≤ b))
  return digest files

/-! ## Reading -/

/-- The entries of one list in an API directory, with what is noted on the way. -/
def readList (host : Host) (directory : Path) (kind : Listing) :
    Except FileSystem.Failure (List String) × List Note :=
  let path := directory.child kind.fileName
  match host.isFile path with
  | .error failure => (.error failure, [])
  | .ok false => (.ok [], [])
  | .ok true =>
    let unreadable (failure : FileSystem.ReadFailure) : List Note :=
      [⟨.debug, .publicApi, "Unreadable API artifact " ++ path.toString ++ ": " ++
        failure.message⟩]
    match host.readText path with
    | .error (.notText fault) => (.ok [], unreadable (.notText fault))
    | .error (.unavailable failure) =>
      if failure.cause.isSystem then (.ok [], unreadable (.unavailable failure))
      else (.error failure, [])
    | .ok text =>
      let entries := kind.entries text
      (.ok entries, if entries.isEmpty then
        [⟨.debug, .publicApi, "API artifact " ++ path.toString ++ " declares no " ++ kind.name ++
          " entries"⟩] else [])

/-- The allowlist, or the whitelist if the allowlist has no entries. -/
def readPublic (host : Host) (directory : Path) :
    Except FileSystem.Failure (List String) × List Note :=
  match readList host directory .allowlist with
  | (.ok [], notes) =>
    let (entries, more) := readList host directory .whitelist
    (entries, notes ++ more)
  | read => read

def readNote (engine : String) (artifacts : Artifacts) : Note where
  level := .debug
  topic := .publicApi
  text := "Read API artifacts for " ++ engine ++ ": " ++ toString artifacts.allowlist.length ++
    " allowlisted, " ++ toString artifacts.legacyDependents.length ++ " legacy dependents"

def readArtifacts (host : Host) (engine : String) (directory : Path) :
    Except FileSystem.Failure Artifacts × List Note :=
  match readPublic host directory with
  | (.error failure, notes) => (.error failure, notes)
  | (.ok allowlist, notes) =>
    match readList host directory .legacyDependents with
    | (.error failure, more) => (.error failure, notes ++ more)
    | (.ok legacyDependents, more) =>
      let artifacts : Artifacts := { allowlist, legacyDependents }
      (.ok artifacts, notes ++ more ++ [readNote engine artifacts])

/-! ## The shelf -/

def shelved? (c : Catalog) (engine : String) : Option Shelved :=
  (c.shelf.find? fun s => s.1 == engine).map Prod.snd

/-- What is kept of an engine and has been compared since the last `revalidate`. -/
def known? (c : Catalog) (engine : String) : Option Artifacts :=
  if c.verified.contains engine then (c.shelved? engine).map Shelved.artifacts else none

def shelve (c : Catalog) (engine : String) (entry : Shelved) : Catalog :=
  { c with shelf := (engine, entry) :: c.shelf.filter fun s => s.1 != engine }

def verify (c : Catalog) (engine : String) : Catalog :=
  { c with verified := engine :: c.verified }

/-- What an engine publishes, given its API directory, read again if its files changed. -/
def consult (c : Catalog) (host : Host) (engine : String) (directory : Path) :
    Except FileSystem.Failure Artifacts × Catalog × List Note :=
  match c.known? engine with
  | some artifacts => (.ok artifacts, c, [])
  | none =>
    match inventory host directory with
    | .error failure => (.error failure, c, [])
    | .ok files =>
      let now := digest files
      let compared := c.verify engine
      match (c.shelved? engine).filter fun kept => kept.digest = now with
      | some kept => (.ok kept.artifacts, compared, [])
      | none =>
        match readArtifacts host engine directory with
        | (.error failure, notes) => (.error failure, compared, notes)
        | (.ok artifacts, notes) => (.ok artifacts, compared.shelve engine ⟨now, artifacts⟩, notes)

/-- From now on digests are compared again. -/
def revalidate (c : Catalog) : Catalog :=
  { c with verified := [] }

end Catalog
end PublicApi
end Bulkhead
