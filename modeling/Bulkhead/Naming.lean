/-
The two spellings of an engine's name.

An engine lives in a directory such as `billing_core` and is referred to by a constant such as
`BillingCore`.  Names are compared in the constant spelling.
-/
import Bulkhead.Text.Digit
import Bulkhead.Text.Lowercase
import Bulkhead.Text.Search

namespace Bulkhead
namespace Naming

def isLowerLetter (c : Char) : Bool :=
  decide ('a'.toNat ≤ c.toNat) && decide (c.toNat ≤ 'z'.toNat)

def isUpperLetter (c : Char) : Bool :=
  decide ('A'.toNat ≤ c.toNat) && decide (c.toNat ≤ 'Z'.toNat)

/-- The letters above ASCII that are equal to an ASCII letter when case is ignored: the capital I
with a dot, the small i without one, the long s and the kelvin sign. -/
def isFoldedLetter (c : Char) : Bool :=
  c.toNat == 0x130 || c.toNat == 0x131 || c.toNat == 0x17f || c.toNat == 0x212a

/-- The characters that make up a word of a name. -/
def isNameChar (c : Char) : Bool :=
  isLowerLetter c || isUpperLetter c || isFoldedLetter c || Text.isDigit c

/-- The form of a name character at the start of a word. -/
def upperChar (c : Char) : Char :=
  if isLowerLetter c then Char.ofNat (c.toNat - 32)
  else if c.toNat = 0x131 then 'I'
  else if c.toNat = 0x17f then 'S'
  else c

/-- Where the spelling stands: outside the words that are respelled, right after a mark that starts
one, or inside one. -/
inductive Place where
  | outside
  | atWord
  | inWord
deriving DecidableEq, Repr

/-- The low line and the slash each start a word, which is capitalised; the slash is kept as the
separator of constants. -/
def joinWords : Place → List Char → List Char
  | _, [] => []
  | place, c :: cs =>
    if c = '_' then joinWords .atWord cs
    else if c = '/' then ':' :: ':' :: joinWords .atWord cs
    else if isNameChar c then
      match place with
      | .outside => c :: joinWords .outside cs
      | .atWord => upperChar c :: joinWords .inWord cs
      | .inWord => Text.lowerChar c ++ joinWords .inWord cs
    else c :: joinWords .outside cs

/-- A small letter at the very start becomes a capital. -/
def raiseFirst : List Char → List Char
  | [] => []
  | c :: cs => (if isLowerLetter c then upperChar c else c) :: cs

def constantChars (cs : List Char) : List Char :=
  joinWords .outside (raiseFirst cs)

/-- The spelling of a name as a constant: `billing_core/api` becomes `BillingCore::Api`. -/
def toConstant (name : String) : String :=
  String.ofList (constantChars name.toList)

/-- Parts a run of capitals and digits from the word that starts with its last capital.  The flag
says that the character before was one of the run. -/
def partAcronyms : Bool → List Char → List Char
  | _, [] => []
  | _, [c] => [c]
  | run, c :: d :: cs =>
    (if run && isUpperLetter c && isLowerLetter d then ['_', c] else [c]) ++
      partAcronyms (isUpperLetter c || Text.isDigit c) (d :: cs)

/-- Parts a small letter or digit from the capital after it.  The flag says that the character
before was a small letter or digit. -/
def partWords : Bool → List Char → List Char
  | _, [] => []
  | small, c :: cs =>
    (if small && isUpperLetter c then ['_', c] else [c]) ++
      partWords (isLowerLetter c || Text.isDigit c) cs

def directoryChars (cs : List Char) : List Char :=
  let parted := partWords false (partAcronyms false (Text.replaceAll [':', ':'] ['/'] cs))
  Text.lower (parted.map fun c => if c = '-' then '_' else c)

/-- The spelling of a name as a directory: `BillingCore::Api` becomes `billing_core/api`. -/
def toDirectory (name : String) : String :=
  String.ofList (directoryChars name.toList)

end Naming
end Bulkhead
