/-
Scanning the scalars of a YAML text: unquoted, in single quotes and in double quotes.

Line ends inside a scalar are folded: one becomes a blank, and of several all but the first are
kept.
-/
import Bulkhead.Json.Read

namespace Bulkhead
namespace Yaml

/-- A place in a text, with its column. -/
structure Cursor where
  rest : List Char
  column : Nat

def isBreak (c : Char) : Bool :=
  c == '\n' || c.toNat == 0x85 || c.toNat == 0x2028 || c.toNat == 0x2029

def isGapChar (c : Char) : Bool :=
  c == ' ' || c == '\t' || isBreak c

/-- The text ends here or goes on with a gap. -/
def atGap : List Char → Bool
  | [] => true
  | c :: _ => isGapChar c

def isFlowMark (c : Char) : Bool :=
  ",[]\x7b\x7d".toList.contains c

/-- A line that starts with three dashes or three dots ends the document. -/
def atMarker (cursor : Cursor) : Bool :=
  cursor.column == 0 &&
    match cursor.rest with
    | '-' :: '-' :: '-' :: rest => atGap rest
    | '.' :: '.' :: '.' :: rest => atGap rest
    | _ => false

/-- Passes over blanks, line ends and comments.  The flags say that a comment is under way and that
a line end was passed; the latter is returned. -/
def skipGapFrom (comment crossed : Bool) (column : Nat) : List Char → Cursor × Bool
  | [] => (⟨[], column⟩, crossed)
  | c :: cs =>
    if isBreak c then skipGapFrom false true 0 cs
    else if comment then skipGapFrom true crossed (column + 1) cs
    else if c = ' ' then skipGapFrom false crossed (column + 1) cs
    else if c = '#' then skipGapFrom true crossed (column + 1) cs
    else (⟨c :: cs, column⟩, crossed)

def skipGap (cursor : Cursor) : Cursor × Bool :=
  skipGapFrom false false cursor.column cursor.rest

/-- A scanned scalar, the place after it, and whether it stands on one line. -/
structure Found (α : Type) where
  value : α
  after : Cursor
  oneLine : Bool

/-! ## Unquoted scalars -/

/-- An unquoted scalar can start here.  Inside a flow collection some marks cannot start one. -/
def startsPlain (flow : Bool) : List Char → Bool
  | [] => false
  | c :: cs =>
    if isGapChar c then false
    else if "-?:,[]\x7b\x7d#&*!|>'\"%@\x60".toList.contains c then
      !atGap cs && (c == '-' || (!flow && (c == '?' || c == ':')))
    else true

/-- The unquoted characters up to a gap or a mark. -/
def plainChunk (flow : Bool) : List Char → List Char × List Char
  | [] => ([], [])
  | c :: cs =>
    let key := c == ':' && (atGap cs || (flow && (cs.head?.map isFlowMark).getD true))
    if isGapChar c || key || (flow && (c == '?' || isFlowMark c)) then ([], c :: cs)
    else
      let found := plainChunk flow cs
      (c :: found.1, found.2)

/-- Counts line ends and passes over the blanks after them. -/
def skipLines (count column : Nat) : List Char → Nat × Cursor
  | [] => (count, ⟨[], column⟩)
  | c :: cs =>
    if isBreak c then skipLines (count + 1) 0 cs
    else if c = ' ' then skipLines count (column + 1) cs
    else (count, ⟨c :: cs, column⟩)

/-- What a gap with the given number of line ends becomes. -/
def foldLines (count : Nat) : List Char :=
  if count = 1 then [' '] else List.replicate (count - 1) '\n'

/-- The further chunks of an unquoted scalar whose lines are indented to `indent` at least.  The
first argument bounds their number; the length of the text is enough. -/
def plainRest (flow : Bool) (indent : Int) : Nat → Cursor → Found (List Char)
  | 0, cursor => ⟨[], cursor, true⟩
  | bound + 1, cursor =>
    let blanks := cursor.rest.takeWhile (· == ' ')
    let (count, next) := skipLines 0 cursor.column cursor.rest
    let stop := (blanks.isEmpty && count == 0) || (count != 0 && atMarker next) ||
      next.rest.head? == some '#' || (!flow && decide ((next.column : Int) < indent))
    let (chunk, rest) := plainChunk flow next.rest
    if stop || chunk.isEmpty then ⟨[], cursor, true⟩
    else
      let more := plainRest flow indent bound ⟨rest, next.column + chunk.length⟩
      { value := (if count = 0 then blanks else foldLines count) ++ chunk ++ more.value
        after := more.after
        oneLine := count == 0 && more.oneLine }

def plain (flow : Bool) (indent : Int) (cursor : Cursor) : Found String :=
  let (chunk, rest) := plainChunk flow cursor.rest
  let more := plainRest flow indent rest.length ⟨rest, cursor.column + chunk.length⟩
  { more with value := String.ofList (chunk ++ more.value) }

/-! ## Quoted scalars -/

/-- The gap in progress inside a quoted scalar: blanks, reversed, or a number of line ends.  After
an escaped line end all further ones count. -/
inductive Gap where
  | blanks (reversed : List Char)
  | lines (count : Nat)
  | escaped (count : Nat)

namespace Gap

def text : Gap → List Char
  | .blanks reversed => reversed.reverse
  | .lines count => foldLines count
  | .escaped count => List.replicate count '\n'

def addBlank (c : Char) : Gap → Gap
  | .blanks reversed => .blanks (c :: reversed)
  | gap => gap

def addBreak : Gap → Gap
  | .blanks _ => .lines 1
  | .lines count => .lines (count + 1)
  | .escaped count => .escaped (count + 1)

end Gap

/-- The characters that a backslash in double quotes and one letter stand for. -/
def shortEscapes : List (Char × Nat) :=
  [('0', 0), ('a', 7), ('b', 8), ('t', 9), ('\t', 9), ('n', 10), ('v', 11), ('f', 12), ('r', 13),
    ('e', 27), (' ', 32), ('"', 34), ('/', 47), ('\\', 92), ('N', 0x85), ('_', 0xa0),
    ('L', 0x2028), ('P', 0x2029)]

def longEscapes : List (Char × Nat) :=
  [('x', 2), ('u', 4), ('U', 8)]

def hexValue? (digits : List Char) : Option Nat :=
  digits.foldl (fun n c => n.bind fun n => (Json.hexDigit? c).map (16 * n + ·)) (some 0)

/-- The character of an escape, after the backslash, and the number of characters it took. -/
def escape? : List Char → Option (Char × Nat)
  | [] => none
  | c :: cs =>
    match shortEscapes.find? fun e => e.1 == c with
    | some e => some (Char.ofNat e.2, 1)
    | none =>
      match longEscapes.find? fun e => e.1 == c with
      | some e =>
        if cs.length < e.2 then none
        else (hexValue? (cs.take e.2)).map fun n => (Char.ofNat n, e.2 + 1)
      | none => none

/-- The rest of a quoted scalar.  The characters so far are reversed; `skip` counts the characters
of an escape that are still to be left out. -/
def quotedRest (quote : Char) (oneLine : Bool) (chars : List Char) (gap : Gap) (column : Nat) :
    Nat → List Char → Option (Found String)
  | _, [] => none
  | skip + 1, _ :: cs => quotedRest quote oneLine chars gap (column + 1) skip cs
  | 0, c :: cs =>
    let settled := gap.text.reverse ++ chars
    if isBreak c then
      if atMarker ⟨cs, 0⟩ then none else quotedRest quote false chars gap.addBreak 0 0 cs
    else if c = ' ' || c = '\t' then
      quotedRest quote oneLine chars (gap.addBlank c) (column + 1) 0 cs
    else if c = quote then
      if quote = '\'' && cs.head? == some '\'' then
        quotedRest quote oneLine ('\'' :: settled) (.blanks []) (column + 1) 1 cs
      else some ⟨String.ofList settled.reverse, ⟨cs, column + 1⟩, oneLine⟩
    else if quote = '"' && c = '\\' then
      if (cs.head?.map isBreak).getD false then
        quotedRest quote false settled (.escaped 0) 0 1 cs
      else
        match escape? cs with
        | some (d, length) =>
          quotedRest quote oneLine (d :: settled) (.blanks []) (column + 1) length cs
        | none => none
    else quotedRest quote oneLine (c :: settled) (.blanks []) (column + 1) 0 cs

/-- A quoted scalar, from its opening quote on. -/
def quoted (quote : Char) (cursor : Cursor) : Option (Found String) :=
  quotedRest quote true [] (.blanks []) (cursor.column + 1) 0 (cursor.rest.drop 1)

end Yaml
end Bulkhead
