/-
Loading the settings from a YAML file.
-/
import Bulkhead.Host
import Bulkhead.Journal
import Bulkhead.Yaml.Reader

namespace Bulkhead
namespace Settings

def loadedNote (p : Path) (s : Settings) : Note where
  level := .debug
  topic := .settings
  text := "Loaded boundary configuration from " ++ p.toString ++ " (engines path " ++
    s.enginesPath ++ ", " ++ toString s.stronglyProtected.length ++ " strongly protected)"

def load (read : Yaml.Reader) (host : Host) (p : Path) : Except Failure (Settings × Note) :=
  match host.readText p with
  | .error failure => .error (.unavailable p failure)
  | .ok text =>
    match read text with
    | .error .malformed => .error (.notYaml p)
    | .error .other => .error (.unread p)
    | .ok document =>
      match ofValue document with
      | .ok settings => .ok (settings, loadedNote p settings)
      | .error failure => .error (failure.inFile p)

end Settings
end Bulkhead
