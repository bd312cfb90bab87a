/-
Reading YAML text: one document of block and flow collections and scalars.

A block collection is held together by its column.  A sequence that is the value of a key may stand
in the column of the key.
-/
import Bulkhead.Yaml.Plain
import Bulkhead.Yaml.Reader
import Bulkhead.Yaml.Scalar

namespace Bulkhead
namespace Yaml

namespace Cursor

/-- The place one character further on the line. -/
def next (cursor : Cursor) : Cursor :=
  ⟨cursor.rest.drop 1, cursor.column + 1⟩

end Cursor

/-- A scalar, quoted or not, from the place where it starts. -/
def scalarAt (flow : Bool) (indent : Int) (cursor : Cursor) : Option (Found Scalar) :=
  match cursor.rest with
  | '"' :: _ => (quoted '"' cursor).map fun f => { f with value := .text f.value }
  | '\'' :: _ => (quoted '\'' cursor).map fun f => { f with value := .text f.value }
  | _ =>
    if startsPlain flow cursor.rest then
      let found := plain flow indent cursor
      some { found with value := resolve found.value }
    else none

/-! ## Flow collections -/

mutual

/-- A value inside a flow collection.  The first argument bounds the nesting; the length of the text
is enough. -/
def flowNode : Nat → Cursor → Option (Found Value)
  | 0, _ => none
  | bound + 1, cursor =>
    match cursor.rest with
    | '[' :: _ => flowItems bound [] cursor.next
    | c :: _ =>
      if c = '\x7b' then flowFields bound [] cursor.next
      else (scalarAt true 0 cursor).map fun f => { f with value := .scalar f.value }
    | [] => none

/-- The value after a colon; it may be left out. -/
def flowValue : Nat → Cursor → Option (Value × Cursor)
  | 0, _ => none
  | bound + 1, cursor =>
    let next := (skipGap cursor).1
    match next.rest with
    | [] => none
    | c :: _ =>
      if c = ',' || c = ']' || c = '\x7d' then some (.null, next)
      else (flowNode bound next).map fun f => (f.value, f.after)

/-- The items of a sequence from here on, after those already read, which are reversed.  A key with
its value is an item that is a mapping of its own. -/
def flowItems : Nat → List Value → Cursor → Option (Found Value)
  | 0, _, _ => none
  | bound + 1, items, cursor =>
    let start := (skipGap cursor).1
    match start.rest with
    | ']' :: _ => some ⟨.list items.reverse, start.next, true⟩
    | _ =>
      match flowNode bound start with
      | none => none
      | some found =>
        let (next, crossed) := skipGap found.after
        let item : Option (Value × Cursor) :=
          match next.rest, found.value with
          | ':' :: _, .scalar key =>
            if crossed || !found.oneLine then none
            else (flowValue bound next.next).map fun v => (.object [(key, v.1)], v.2)
          | ':' :: _, _ => none
          | _, value => some (value, next)
        match item with
        | none => none
        | some (value, after) =>
          let next := (skipGap after).1
          match next.rest with
          | ',' :: _ => flowItems bound (value :: items) next.next
          | ']' :: _ => some ⟨.list (value :: items).reverse, next.next, true⟩
          | _ => none

/-- The fields of a mapping from here on, after those already read. -/
def flowFields : Nat → Fields → Cursor → Option (Found Value)
  | 0, _, _ => none
  | bound + 1, fields, cursor =>
    let start := (skipGap cursor).1
    if start.rest.head? = some '\x7d' then some ⟨.object fields, start.next, true⟩
    else
      match flowNode bound start with
      | some ⟨.scalar key, after, oneLine⟩ =>
        let (next, crossed) := skipGap after
        let field : Option (Value × Cursor) :=
          match next.rest with
          | ':' :: _ => if crossed || !oneLine then none else flowValue bound next.next
          | _ => some (.null, next)
        match field with
        | none => none
        | some (value, after) =>
          let fields := Fields.put key value fields
          let next := (skipGap after).1
          match next.rest with
          | ',' :: _ => flowFields bound fields next.next
          | c :: _ => if c = '\x7d' then some ⟨.object fields, next.next, true⟩ else none
          | [] => none
      | _ => none

end

/-! ## Block collections -/

/-- The place after the colon of a key, if a colon and a gap follow on the line. -/
def afterColon (cursor : Cursor) : Option Cursor :=
  let blanks := (cursor.rest.takeWhile (· == ' ')).length
  match cursor.rest.drop blanks with
  | ':' :: rest => if atGap rest then some ⟨rest, cursor.column + blanks + 1⟩ else none
  | _ => none

/-- A dash and a gap start an entry of a sequence. -/
def atEntry (cursor : Cursor) : Bool :=
  match cursor.rest with
  | '-' :: rest => atGap rest
  | _ => false

def atEnd (cursor : Cursor) : Bool :=
  cursor.rest.isEmpty || atMarker cursor

mutual

/-- A value in a block of the given column.  `keys` says that a key may stand on this line, and
`level` that a sequence may stand in the column of the block. -/
def blockNode : Nat → Int → Bool → Bool → Cursor → Option (Value × Cursor)
  | 0, _, _, _, _ => none
  | bound + 1, indent, keys, level, cursor =>
    let (next, crossed) := skipGap cursor
    let keys := keys || crossed
    if atEnd next then some (.null, cursor)
    else if crossed && decide ((next.column : Int) ≤ indent) then
      if level && decide ((next.column : Int) = indent) && atEntry next then
        blockItems bound next.column true [] next
      else some (.null, cursor)
    else if atEntry next then
      if keys then blockItems bound next.column false [] next else none
    else
      match next.rest with
      | [] => none
      | c :: _ =>
        if c = '[' || c = '\x7b' then
          match flowNode bound next with
          | some found =>
            if (afterColon found.after).isSome then none else some (found.value, found.after)
          | none => none
        else
          match scalarAt false (indent + 1) next with
          | none => none
          | some found =>
            match afterColon found.after with
            | none => some (.scalar found.value, found.after)
            | some after =>
              if keys && found.oneLine then blockFields bound next.column [] found.value after
              else none

/-- The items of a sequence from the dash at the given column on, after those already read, which
are reversed. -/
def blockItems : Nat → Nat → Bool → List Value → Cursor → Option (Value × Cursor)
  | 0, _, _, _, _ => none
  | bound + 1, column, level, items, cursor =>
    match blockNode bound column true false cursor.next with
    | none => none
    | some (item, after) =>
      let items := item :: items
      let (next, crossed) := skipGap after
      if atEnd next || (crossed && decide (next.column < column)) then
        some (.list items.reverse, after)
      else if !crossed || next.column != column then none
      else if atEntry next then blockItems bound column level items next
      else if level then some (.list items.reverse, after)
      else none

/-- The fields of a mapping, from after the colon of a key on. -/
def blockFields : Nat → Nat → Fields → Scalar → Cursor → Option (Value × Cursor)
  | 0, _, _, _, _ => none
  | bound + 1, column, fields, key, cursor =>
    match blockNode bound column false true cursor with
    | none => none
    | some (value, after) =>
      let fields := Fields.put key value fields
      let (next, crossed) := skipGap after
      if atEnd next || (crossed && decide (next.column < column)) then some (.object fields, after)
      else if !crossed || next.column != column then none
      else
        match scalarAt false (column + 1) next with
        | none => none
        | some found =>
          match afterColon found.after with
          | some after =>
            if found.oneLine then blockFields bound column fields found.value after else none
          | none => none

end

/-! ## Documents -/

/-- The characters that a text may hold. -/
def isAllowed (c : Char) : Bool :=
  let n := c.toNat
  n == 9 || n == 10 || n == 13 || (decide (32 ≤ n) && decide (n ≤ 126)) || n == 0x85 ||
    (decide (0xa0 ≤ n) && n != 0xfffe && n != 0xffff)

def dropByteOrderMark : List Char → List Char
  | [] => []
  | c :: cs => if c.toNat = 0xfeff then cs else c :: cs

/-- Nothing but the end of the document is left. -/
def atDocumentEnd (cursor : Cursor) : Bool :=
  let next := (skipGap cursor).1
  match next.rest with
  | [] => true
  | '.' :: '.' :: '.' :: rest =>
    atMarker next && (skipGap ⟨rest, 3⟩).1.rest.isEmpty
  | _ => false

/-- The value of the one document of a text. -/
def read? (s : String) : Option Value :=
  if s.toList.all isAllowed then
    let start := (skipGap ⟨dropByteOrderMark s.toList, 0⟩).1
    let bound := 2 * start.rest.length + 2
    let found :=
      match start.rest with
      | '-' :: '-' :: '-' :: rest =>
        if atMarker start then blockNode bound (-1) false false ⟨rest, 3⟩
        else blockNode bound (-1) true false start
      | _ => blockNode bound (-1) true false start
    match found with
    | some (value, after) => if atDocumentEnd after then some value else none
    | none => none
  else none

def read : Reader := fun s =>
  match read? s with
  | some value => .ok value
  | none => .error .malformed

end Yaml
end Bulkhead
