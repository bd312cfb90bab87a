/-
Source trees as they are written: nodes nested in nodes.

A node is an object with the fields `type`, `value`, `source`, `line` and `column`, and the nodes
below it are in its field `children`.  What is read here is read without a check; a document is
checked when its nodes are numbered.
-/
import Bulkhead.Json.Write

namespace Bulkhead

/-- The kinds of nodes that the checks tell apart. -/
inductive Kind where
  | const
  | cbase
  | send
  | str
  | sym
  | hash
  | pair
  | array
  | block
  | moduleDecl
  | classDecl
  | other (name : String)
deriving DecidableEq, Repr

namespace Kind

def name : Kind → String
  | .const => "const"
  | .cbase => "cbase"
  | .send => "send"
  | .str => "str"
  | .sym => "sym"
  | .hash => "hash"
  | .pair => "pair"
  | .array => "array"
  | .block => "block"
  | .moduleDecl => "module"
  | .classDecl => "class"
  | .other name => name

def ofName (name : String) : Kind :=
  let known : List Kind :=
    [.const, .cbase, .send, .str, .sym, .hash, .pair, .array, .block, .moduleDecl, .classDecl]
  (known.find? fun kind => kind.name == name).getD (.other name)

end Kind

/-- The place of a node in its file. -/
structure Location where
  line : Int
  column : Int
deriving DecidableEq, Repr

/-- A node with the nodes below it.  A slot without a node stands for something left out, such as
the receiver of a call. -/
inductive Branch where
  | node (kind : Kind) (value : Option String) (source : String) (location : Location)
      (slots : List (Option Branch))
deriving Repr

/-! ## Node objects -/

namespace Value

/-- The entries of the field `children`, one for each slot. -/
def items (v : Value) : List Value :=
  match v.field? "children" with
  | some (.list items) => items
  | _ => []

def typeText (v : Value) : String :=
  match v.field? "type" with
  | some (.text name) => name
  | _ => ""

def kind (v : Value) : Kind :=
  .ofName v.typeText

/-- The field `value`, as text. -/
def given (v : Value) : Option String :=
  match v.field? "value" with
  | some .null => none
  | some (.scalar s) => some s.plainText
  | _ => none

def integer (v : Value) (name : String) (absent : Int) : Int :=
  match v.field? name with
  | some (.int n) => n
  | _ => absent

def location (v : Value) : Location :=
  ⟨v.integer "line" 1, v.integer "column" 0⟩

def ownSource (v : Value) : Option String :=
  match v.field? "source" with
  | some (.text s) => some s
  | _ => none

/-- A word after the text of its scope, if it has one. -/
def underScope (word : String) : Option String → String
  | none => word
  | some scope =>
    if [':', ':'].isSuffixOf scope.toList then scope ++ word else scope ++ "::" ++ word

end Value

/-- The text of a node that brings none of its own.  A constant stands after its scope. -/
def Kind.derivedSource (kind : Kind) (value scope : Option String) : String :=
  let word := value.getD ""
  match kind with
  | .cbase => "::"
  | .const => Value.underScope word scope
  | .str => Json.quoted word
  | .sym => ":" ++ word
  | _ => word

namespace Branch

def kind : Branch → Kind
  | .node kind _ _ _ _ => kind

def value : Branch → Option String
  | .node _ value _ _ _ => value

def source : Branch → String
  | .node _ _ source _ _ => source

def location : Branch → Location
  | .node _ _ _ location _ => location

def slots : Branch → List (Option Branch)
  | .node _ _ _ _ slots => slots

/-- The node in the given slot. -/
def child? (b : Branch) (slot : Nat) : Option Branch :=
  (b.slots[slot]?).join

/-- The nodes in the slots that hold one. -/
def children (b : Branch) : List Branch :=
  b.slots.filterMap id

mutual

/-- A node and all nodes below it, in reading order. -/
def all : Branch → List Branch
  | .node kind value source location slots =>
    .node kind value source location slots :: allIn slots

def allIn : List (Option Branch) → List Branch
  | [] => []
  | none :: rest => allIn rest
  | some b :: rest => all b ++ allIn rest

end

/-- The branch of a node object, given its slots. -/
def assemble (v : Value) (slots : List (Option Branch)) : Branch :=
  .node v.kind v.given
    (v.ownSource.getD (v.kind.derivedSource v.given ((slots[0]?).join.map source))) v.location slots

mutual

/-- The node that a value stands for, with all nodes below it. -/
def ofValue : Value → Branch
  | .object fields => assemble (.object fields) (slotsOfFields fields)
  | .scalar s => assemble (.scalar s) []
  | .list items => assemble (.list items) []

/-- The slots of a node, which are in its field `children`. -/
def slotsOfFields : List (Scalar × Value) → List (Option Branch)
  | [] => []
  | (name, value) :: rest =>
    if name = .text "children" then
      match value with
      | .list items => slotsOfItems items
      | _ => []
    else slotsOfFields rest

def slotsOfItems : List Value → List (Option Branch)
  | [] => []
  | .scalar .null :: rest => none :: slotsOfItems rest
  | item :: rest => some (ofValue item) :: slotsOfItems rest

end

end Branch
end Bulkhead
