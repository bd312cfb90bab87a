/-
Sets of characters given by runs of code points.
-/
namespace Bulkhead
namespace Text

/-- A set of characters, as the first and the last code point of each of its runs. -/
structure CharSet where
  runs : List (Nat × Nat)

namespace CharSet

def contains (s : CharSet) (c : Char) : Bool :=
  s.runs.any fun run => decide (run.1 ≤ c.toNat) && decide (c.toNat ≤ run.2)

end CharSet
end Text
end Bulkhead
