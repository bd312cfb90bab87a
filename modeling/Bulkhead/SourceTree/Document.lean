/-
Reading a source tree from a document, a text or a file.
-/
import Bulkhead.Host
import Bulkhead.Json.Read
import Bulkhead.SourceTree.Layout

namespace Bulkhead
namespace SourceTree

/-- Why a tree could not be read. -/
inductive Failure where
  | notMapping (typeName : String)
  | noPath
  | node (path : String) (fault : Branch.Fault)
  | notJson
  | longInteger
  | unavailable (path : Path) (failure : FileSystem.ReadFailure)
deriving DecidableEq, Repr

namespace Failure

def message : Failure → String
  | .notMapping typeName => "tree document must be a mapping, got " ++ typeName
  | .noPath => "tree document requires a non-empty 'path'"
  | .node path fault => path ++ ": " ++ fault.defect.message
  | .notJson => "invalid tree document JSON"
  | .longInteger => "integer with more than " ++ toString Json.digitLimit ++ " digits"
  | .unavailable path failure =>
    "failed to read tree document " ++ path.toString ++ ": " ++ failure.message

end Failure

def ofValue : Value → Except Failure SourceTree
  | .object fields =>
    match Fields.get? "path" fields with
    | some (.text path) =>
      if path.isEmpty then .error .noPath
      else
        match Fields.get? "root" fields with
        | none => .ok { path, root := none }
        | some .null => .ok { path, root := none }
        | some root =>
          match h : Branch.flatten root with
          | .ok nodes =>
            .ok
              { path
                root := some (.ofValue root)
                nodes
                nodes_eq := Branch.flatten_eq_layout h }
          | .error fault => .error (.node path fault)
    | _ => .error .noPath
  | v => .error (.notMapping v.typeName)

def ofText (s : String) : Except Failure SourceTree :=
  match Json.read s with
  | .ok v => ofValue v
  | .error .malformed => .error .notJson
  | .error .longInteger => .error .longInteger

def load (host : Host) (p : Path) : Except Failure SourceTree :=
  match host.readText p with
  | .ok s => ofText s
  | .error failure => .error (.unavailable p failure)

end SourceTree
end Bulkhead
