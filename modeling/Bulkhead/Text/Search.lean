/-
Finding, replacing and splitting inside a text, as functions on its list of characters.
-/
namespace Bulkhead
namespace Text

/-- The first text stands somewhere in the second. -/
def occursIn (needle : List Char) : List Char → Bool
  | [] => needle.isEmpty
  | c :: cs => needle.isPrefixOf (c :: cs) || occursIn needle cs

/-- What stands after the last place where `needle` begins. -/
def afterLast (needle : List Char) : List Char → Option (List Char)
  | [] => needle.isPrefixOf? []
  | c :: cs =>
    match afterLast needle cs with
    | some rest => some rest
    | none => needle.isPrefixOf? (c :: cs)

/-- Replaces `old` by `new` from left to right.  The number counts the characters of the last match
that are still to be left out. -/
def replaceFrom (old new : List Char) : Nat → List Char → List Char
  | _, [] => []
  | skip + 1, _ :: cs => replaceFrom old new skip cs
  | 0, c :: cs =>
    if old.isPrefixOf (c :: cs) then new ++ replaceFrom old new (old.length - 1) cs
    else c :: replaceFrom old new 0 cs

def replaceAll (old new cs : List Char) : List Char :=
  if old.isEmpty then cs else replaceFrom old new 0 cs

/-- The parts of a text between the separators.  The number counts the characters of the last
separator that are still to be left out. -/
def splitFrom (separator : List Char) : Nat → List Char → List (List Char)
  | _, [] => [[]]
  | skip + 1, _ :: cs => splitFrom separator skip cs
  | 0, c :: cs =>
    if separator.isPrefixOf (c :: cs) then [] :: splitFrom separator (separator.length - 1) cs
    else
      match splitFrom separator 0 cs with
      | [] => [[c]]
      | part :: parts => (c :: part) :: parts

def splitAll (separator cs : List Char) : List (List Char) :=
  if separator.isEmpty then [cs] else splitFrom separator 0 cs

/-- A text with every line end written as a single line feed. -/
def unifyLines : List Char → List Char
  | [] => []
  | '\r' :: '\n' :: cs => '\n' :: unifyLines cs
  | c :: cs => (if c = '\r' then '\n' else c) :: unifyLines cs

end Text
end Bulkhead
