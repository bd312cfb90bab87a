/-
Blank characters, and the words of a text that they separate.
-/
import Bulkhead.Text.CharSet

namespace Bulkhead
namespace Text

/-- The characters with the Unicode property `White_Space`, and the four information separators
from U+001C to U+001F. -/
def blankSet : CharSet where
  runs := [(0x9, 0xd), (0x1c, 0x20), (0x85, 0x85), (0xa0, 0xa0), (0x1680, 0x1680),
    (0x2000, 0x200a), (0x2028, 0x2029), (0x202f, 0x202f), (0x205f, 0x205f), (0x3000, 0x3000)]

def isBlank (c : Char) : Bool :=
  blankSet.contains c

/-- The words of a text: its maximal runs of characters that are not blank.  The list in front of
the recursion is the word in progress, reversed. -/
def wordsFrom : List Char → List Char → List (List Char)
  | [], [] => []
  | current, [] => [current.reverse]
  | current, c :: rest =>
    if isBlank c then
      match current with
      | [] => wordsFrom [] rest
      | _ => current.reverse :: wordsFrom [] rest
    else wordsFrom (c :: current) rest

def words (s : String) : List String :=
  (wordsFrom [] s.toList).map String.ofList

end Text
end Bulkhead
