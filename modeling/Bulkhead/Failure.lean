/-
Why a run could not go on.
-/
import Bulkhead.Persistence
import Bulkhead.Settings.Basic
import Bulkhead.SourceTree.Document
import Bulkhead.Template

namespace Bulkhead

inductive Failure where
  | settings (failure : Settings.Failure)
  | tree (failure : SourceTree.Failure)
  | template (fault : Template.Fault)
  | files (failure : FileSystem.Failure)
  | oracle (escape : Persistence.Escape)
  | emptyCommand

namespace Failure

/-- The failures that a run reports and survives: settings and trees of the wrong shape, and files
that the system cannot open.  A file that is not text is not among them, nor a time that is no
number, nor a tree with an integer that is too long, nor what the reader of the settings does not
report as malformed. -/
def isReported : Failure → Bool
  | .settings (.unavailable _ failure) => failure.isSystem
  | .settings .timeoutTooLarge => false
  | .settings (.unread _) => false
  | .settings _ => true
  | .tree (.unavailable _ failure) => failure.isSystem
  | .tree .longInteger => false
  | .tree _ => true
  | .template _ => false
  | .files _ => false
  | .oracle _ => false
  | .emptyCommand => false

def message : Failure → String
  | .settings failure => failure.message
  | .tree failure => failure.message
  | .template (.unknownField name) => Literal.quoted name
  | .template .numberedField => "field without a value"
  | .template .numberTooLarge => "too many digits in a field"
  | .template .unbalanced => "brace out of place"
  | .template .unsupported => "field with more than a name"
  | .files failure => failure.message
  | .oracle .outputNotText => "output that is not text"
  | .oracle .nullInCommand => "embedded null byte"
  | .oracle .timeoutTooLarge => "timeout is too large"
  | .emptyCommand => "oracle command must not be empty"

end Failure
end Bulkhead
