/-
Snapshots of an application: its directories and files, and the outcomes of its commands.

A snapshot is written as an object with the fields `dirs`, a list of paths; `files`, from paths to
contents; and `runner`, a list of commands with their outcomes.  The content of a file is a text, or
an object with one of `text`, `hex` and `json` and perhaps the time of change `mtime_ns`.  The paths
start at the working directory.
-/
import Bulkhead.Host
import Bulkhead.Json.Write

namespace Bulkhead

structure Snapshot where
  files : FileSystem := {}
  commands : Persistence.CommandTable := []

namespace Snapshot

/-- The time of change of files that give none. -/
def defaultTime : Int := 1600000000000000000

def hexDigit (c : Char) : UInt8 :=
  if c.isDigit then (c.toNat - '0'.toNat).toUInt8
  else (c.toLower.toNat - 'a'.toNat + 10).toUInt8

/-- The bytes that pairs of hexadecimal digits spell. -/
def bytesOfHex : List Char → List UInt8
  | high :: low :: rest => (16 * hexDigit high + hexDigit low) :: bytesOfHex rest
  | _ => []

def textOf (v : Value) (name : String) (default : String) : String :=
  match v.field? name with
  | some (.text s) => s
  | _ => default

def textsOf : Value → List String
  | .list items => items.filterMap fun item =>
      match item with
      | .text s => some s
      | _ => none
  | _ => []

/-- The bytes of a file and its time of change. -/
def fileOf (v : Value) : ByteArray × Int :=
  match v with
  | .text s => (s.toUTF8, defaultTime)
  | v =>
    let content :=
      match v.field? "text", v.field? "hex", v.field? "json" with
      | some (.text s), _, _ => s.toUTF8
      | _, some (.text s), _ => ⟨(bytesOfHex s.toList).toArray⟩
      | _, _, some json => (Json.write json).toUTF8
      | _, _, _ => ByteArray.empty
    let modified :=
      match v.field? "mtime_ns" with
      | some (.int n) => n
      | _ => defaultTime
    (content, modified)

def writeFile (fs : FileSystem) (path : String) (v : Value) : FileSystem :=
  let (content, modified) := fileOf v
  fs.write (.ofString path) content modified

/-- The directory that a command is run in. -/
def home : List String :=
  ["snapshot"]

def filesOf (v : Value) : FileSystem :=
  let directories := ((v.field? "dirs").map textsOf).getD []
  let empty : FileSystem := { entries := [(home, .directory)], workingDirectory := home }
  let made := directories.foldl (fun fs path => fs.makeDirectory (.ofString path)) empty
  match v.field? "files" with
  | some (.object files) => files.foldl (fun fs file => writeFile fs file.1.plainText file.2) made
  | _ => made

/-! ## Paths that the system refuses -/

/-- A segment is too long where it would have to be looked up. -/
def hasLongName (fs : FileSystem) (p : Path) : Bool :=
  (List.range p.segments.length).any fun i =>
    decide (255 < ((p.segments[i]?.getD "").utf8ByteSize)) &&
      fs.isDirectory { p with segments := p.segments.take i }

def refusal? (fs : FileSystem) (p : Path) : Option FileSystem.Cause :=
  let text := p.toString
  if text.toList.contains '\x00' then some .notAPath
  else if 4095 < text.utf8ByteSize || hasLongName fs p then some .nameTooLong
  else none

/-- The host of these files. -/
def hostOf (fs : FileSystem) : Host where
  files := fs
  status := refusal? fs
  listing := refusal? fs
  opening := refusal? fs

/-! ## Commands -/

def outcomeOf (v : Value) : List String × Persistence.Outcome :=
  let command := ((v.field? "command").map textsOf).getD []
  let status :=
    match v.field? "returncode" with
    | some (.int n) => n
    | _ => 0
  match v.field? "timeout" with
  | some (.bool true) => (command, .timedOut)
  | _ => (command, .finished status (textOf v "stdout" ""))

def commandsOf (v : Value) : Persistence.CommandTable :=
  match v.field? "runner" with
  | some (.list entries) => entries.map outcomeOf
  | _ => []

def ofValue (v : Value) : Snapshot where
  files := filesOf v
  commands := commandsOf v

def host (snapshot : Snapshot) : Host :=
  hostOf snapshot.files

end Snapshot
end Bulkhead
