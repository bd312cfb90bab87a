/-
Paths in a file system, by their segments.

A path keeps its segments apart from empty ones and single dots; two dots are kept, because what
they lead to depends on the file system.
-/
import Bulkhead.Text.Search

namespace Bulkhead

/-- A path.  `slashes` tells how an absolute path starts: with one slash or, in a form of its own,
with two. -/
structure Path where
  slashes : Nat
  segments : List String
deriving DecidableEq, Repr

namespace Path

def isSegment (cs : List Char) : Bool :=
  !(cs == [] || cs == ['.'])

def ofString (s : String) : Path :=
  let cs := s.toList
  let leading := (cs.takeWhile (· == '/')).length
  { slashes := if leading = 2 then 2 else min leading 1
    segments := ((Text.splitAll ['/'] cs).filter isSegment).map String.ofList }

instance : Coe String Path := ⟨ofString⟩

def isAbsolute (p : Path) : Bool :=
  p.slashes != 0

/-- The current directory is written as a dot. -/
def toString (p : Path) : String :=
  let body := String.intercalate "/" p.segments
  if p.slashes = 0 then if p.segments.isEmpty then "." else body
  else String.ofList (List.replicate p.slashes '/') ++ body

instance : ToString Path := ⟨toString⟩

/-- The second path as seen from the first; an absolute one stands for itself. -/
def join (p q : Path) : Path :=
  if q.isAbsolute then q else { p with segments := p.segments ++ q.segments }

def child (p : Path) (name : String) : Path :=
  { p with segments := p.segments ++ [name] }

/-- The order by segments: the first that differ decide, and a beginning comes before the whole. -/
def segmentsLe : List String → List String → Bool
  | [], _ => true
  | _ :: _, [] => false
  | a :: as, b :: bs => if a = b then segmentsLe as bs else decide (a ≤ b)

def le (p q : Path) : Bool :=
  segmentsLe p.segments q.segments

def sort (paths : List Path) : List Path :=
  paths.mergeSort le

end Path
end Bulkhead
