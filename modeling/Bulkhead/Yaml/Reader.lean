/-
Readers of YAML documents.

An analysis works with any reader.  The one in `Yaml.Read` knows the part of the notation that is
used for settings.
-/
import Bulkhead.Value.Basic

namespace Bulkhead
namespace Yaml

/-- Why a text gives no document: it is malformed, or the reader failed on it in another way. -/
inductive Fault where
  | malformed
  | other
deriving DecidableEq, Repr

abbrev Reader := String → Except Fault Value

end Yaml
end Bulkhead
