/-
Which engines there are, and how each is protected.

The engines are the directories in the engines directory.  All are protected but those that the
settings take out; some are protected strongly.
-/
import Bulkhead.Host
import Bulkhead.Journal

namespace Bulkhead

structure Protection where
  settings : Settings
  root : Option Path
  unprotected : List String
  strong : List String
  overrides : List (String × List String)

/-- The value of a name. -/
def named? {α : Type} (name : String) : List (String × α) → Option α
  | [] => none
  | (key, value) :: rest => if key = name then some value else named? name rest

namespace Protection

/-- The names in the settings may have either spelling. -/
def ofSettings (settings : Settings) (root : Option Path) : Protection where
  settings := settings
  root := root
  unprotected := Settings.constants settings.unprotected
  strong := Settings.constants settings.stronglyProtected
  overrides := ofPairs (settings.overrides.map fun o => (Naming.toConstant o.1, o.2))

/-- A relative path of the engines starts at the root. -/
def enginesDirectory (p : Protection) : Path :=
  let path : Path := .ofString p.settings.enginesPath
  match p.root with
  | some root => root.join path
  | none => path

def isStrong (p : Protection) : Option String → Bool
  | some engine => p.strong.contains engine
  | none => false

def overridesFor (p : Protection) : Option String → Option (List String)
  | some engine => named? engine p.overrides
  | none => none

/-- The engines by the names of their directories.  Of directories that spell one engine the last in
order stands for it. -/
def byDirectory (names : List String) : List (String × String) :=
  ofPairs ((names.mergeSort fun a b => decide (a ≤ b)).map fun name =>
    (Naming.toConstant name, name))

/-- The engines with their directories, and a note if the engines directory cannot be listed. -/
def survey (p : Protection) (host : Host) : List (String × String) × List Note :=
  match host.directories p.enginesDirectory with
  | .ok names => (byDirectory names, [])
  | .error failure =>
    ([], [⟨.debug, .protection, "Engines directory " ++ p.enginesDirectory.toString ++
      " unavailable: " ++ failure.message⟩])

/-- What keeps the engines from being surveyed at all: that the system cannot list their directory
does not. -/
def obstacle? (p : Protection) (host : Host) : Option FileSystem.Failure :=
  match host.directories p.enginesDirectory with
  | .ok _ => none
  | .error failure => if failure.cause.isSystem then none else some failure

/-- The engines that are protected, in order. -/
def protectedEngines (p : Protection) (engines : List (String × String)) : List String :=
  sortedSet ((engines.map Prod.fst).filter fun engine => !p.unprotected.contains engine)

def protectedNote (engines : List String) : Note where
  level := .debug
  topic := .protection
  text := "Protected engines: " ++
    (if engines.isEmpty then "<none>" else String.intercalate ", " engines)

/-- The engine that owns a file: its directory follows the last occurrence of the engines path. -/
def ownerOf (p : Protection) (file : String) : Option String :=
  match Text.afterLast p.settings.enginesPath.toList file.toList with
  | none => none
  | some rest =>
    match rest.takeWhile (· != '/') with
    | [] => none
    | directory => some (Naming.toConstant (String.ofList directory))

end Protection
end Bulkhead
