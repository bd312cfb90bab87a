/-
Paths of constants, such as `Billing::Invoice`.
-/
import Bulkhead.Text.Search
import Bulkhead.Text.Word

namespace Bulkhead
namespace Constant

def separator : List Char := [':', ':']

/-- A name without the colons in front of it. -/
def bare (name : String) : String :=
  String.ofList (name.toList.dropWhile (· == ':'))

def isCapital (c : Char) : Bool :=
  decide ('A'.toNat ≤ c.toNat) && decide (c.toNat ≤ 'Z'.toNat)

/-- A capital letter and then word characters. -/
def isSegment : List Char → Bool
  | [] => false
  | c :: cs => isCapital c && cs.all Text.isWord

/-- One or more segments, with separators between them. -/
def isPath (name : String) : Bool :=
  (Text.splitAll separator name.toList).all isSegment

def segments (name : String) : List String :=
  (Text.splitAll separator name.toList).map String.ofList

end Constant
end Bulkhead
