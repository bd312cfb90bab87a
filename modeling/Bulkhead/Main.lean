/-
The command line.

The arguments are those of the program.  The application is read from standard input as a snapshot.
-/
import Bulkhead.CommandLine.Report
import Bulkhead.Json.Read
import Bulkhead.Yaml.Read

namespace Bulkhead
namespace CommandLine

def usageLine : String :=
  "usage: engine-boundary [-h] [--log-level \x7bDEBUG,INFO,WARNING,ERROR\x7d] " ++
    "\x7bcheck,checksum,factories\x7d ..."

end CommandLine
end Bulkhead

open Bulkhead

def main (args : List String) : IO UInt32 := do
  match Json.read (← (← IO.getStdin).readToEnd) with
  | .error _ =>
    IO.eprintln "engine-boundary: the snapshot is not JSON"
    return 2
  | .ok document =>
    match CommandLine.run (.ofSnapshot Yaml.read (Snapshot.ofValue document)) args with
    | .error .help =>
      IO.println CommandLine.usageLine
      return 0
    | .error .usage =>
      IO.eprintln CommandLine.usageLine
      return 2
    | .ok report =>
      for line in report.output do IO.println line
      for line in report.errors do IO.eprintln line
      match report.ending with
      | .finished status => return status.toUInt32
      | .failed failure =>
        IO.eprintln ("engine-boundary: " ++ failure.message)
        return 1
