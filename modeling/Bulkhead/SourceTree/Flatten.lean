/-
Numbering the nodes of a document, with a check of each.

The document is walked with a stack.  A value that is taken from the stack gets the next number, the
number is noted in the slot that the value came from, and the values in its own slots go onto the
stack, the last one first.  Three passes over the nodes follow: over their types and values, over
their texts, and over their locations.  The pass over the texts goes from the last node to the first,
because the text of a constant begins with that of its scope, which has a greater number.  The walk
and each pass stop at the first node that is at fault.
-/
import Bulkhead.SourceTree.Basic

namespace Bulkhead
namespace Branch

/-- What can be wrong with a node. -/
inductive Defect where
  | notMapping (typeName : String)
  | childrenNotList
  | badType
  | badValue (typeName : String)
  | badSource
  | badLine
  | badColumn
deriving DecidableEq, Repr

def Defect.message : Defect → String
  | .notMapping typeName => "node must be a mapping, got " ++ typeName
  | .childrenNotList => "node 'children' must be a list"
  | .badType => "node 'type' must be a non-empty string"
  | .badValue typeName => "node 'value' must be a scalar, got " ++ typeName
  | .badSource => "node 'source' must be a string"
  | .badLine => "node 'line' must be an integer"
  | .badColumn => "node 'column' must be an integer"

/-- A defect, and the number of the node that has it. -/
structure Fault where
  node : Nat
  defect : Defect
deriving DecidableEq, Repr

/-! ## The walk -/

/-- A node as the walk leaves it: its fields, the number of the node above it and the numbers in its
slots. -/
structure Draft where
  fields : Fields
  parent : Option Nat
  slots : List (Option Nat)

/-- A value on the stack.  Its place is the number of the node above it and the slot there. -/
structure Pending where
  value : Value
  place : Option (Nat × Nat)

/-- The fields of a node and the entries of its slots. -/
def unpack : Value → Except Defect (Fields × List Value)
  | .object fields =>
    match Fields.get? "children" fields with
    | none => .ok (fields, [])
    | some (.list items) => .ok (fields, items)
    | some _ => .error .childrenNotList
  | v => .error (.notMapping v.typeName)

/-- Notes a number in the slot that it belongs to. -/
def note (drafts : Array Draft) (number : Nat) : Option (Nat × Nat) → Array Draft
  | none => drafts
  | some (parent, slot) =>
    drafts.modify parent fun draft => { draft with slots := draft.slots.set slot (some number) }

/-- Puts the entries of the slots from `slot` on onto the stack, the last one first.  An entry that is
null leaves its slot empty. -/
def push (number slot : Nat) : List Value → List Pending → List Pending
  | [], stack => stack
  | .null :: rest, stack => push number (slot + 1) rest stack
  | item :: rest, stack => ⟨item, some (number, slot)⟩ :: push number (slot + 1) rest stack

mutual

/-- How much there is in a value.  What is in a list weighs less than the list. -/
def weight : Value → Nat
  | .scalar _ => 1
  | .list items => 1 + weightOfItems items
  | .object fields => 1 + weightOfFields fields

def weightOfItems : List Value → Nat
  | [] => 0
  | item :: rest => 1 + weight item + weightOfItems rest

def weightOfFields : List (Scalar × Value) → Nat
  | [] => 0
  | (_, value) :: rest => weight value + weightOfFields rest

end

def weightOfStack : List Pending → Nat
  | [] => 0
  | pending :: rest => weight pending.value + weightOfStack rest

theorem weight_get? {name : String} {fields : Fields} {v : Value}
    (h : Fields.get? name fields = some v) : weight v ≤ weightOfFields fields := by
  induction fields with
  | nil => cases h
  | cons field rest ih =>
    obtain ⟨key, value⟩ := field
    rw [Fields.get?] at h
    rw [weightOfFields]
    split at h
    · cases h
      omega
    · have := ih h
      omega

theorem weightOfItems_unpack {v : Value} {fields : Fields} {items : List Value}
    (h : unpack v = .ok (fields, items)) : weightOfItems items < weight v := by
  unfold unpack at h
  split at h
  · rw [weight]
    split at h
    · cases h
      rw [weightOfItems]
      omega
    · next hget =>
      cases h
      have := weight_get? hget
      rw [weight.eq_def] at this
      dsimp only at this
      omega
    · cases h
  · cases h

theorem weightOfStack_push (number slot : Nat) (items : List Value) (stack : List Pending) :
    weightOfStack (push number slot items stack) ≤ weightOfItems items + weightOfStack stack := by
  fun_induction push number slot items stack with
  | case1 => omega
  | case2 slot rest stack ih =>
    rw [weightOfItems]
    omega
  | case3 slot stack item rest _ ih =>
    rw [weightOfItems, weightOfStack]
    dsimp only
    omega

/-- Numbers what is on the stack, given the nodes that have a number. -/
def walk (drafts : Array Draft) : List Pending → Except Fault (Array Draft)
  | [] => .ok drafts
  | pending :: stack =>
    match _h : unpack pending.value with
    | .error defect => .error ⟨drafts.size, defect⟩
    | .ok (fields, items) =>
      let draft : Draft :=
        { fields
          parent := pending.place.map Prod.fst
          slots := List.replicate items.length none }
      walk ((note drafts drafts.size pending.place).push draft) (push drafts.size 0 items stack)
termination_by stack => weightOfStack stack
decreasing_by
  have := weightOfStack_push drafts.size 0 items stack
  have := weightOfItems_unpack _h
  rw [weightOfStack]
  omega

/-! ## The passes -/

/-- Reads each node in turn, where `number` is the number of the first. -/
def pass {α β : Type} (read : Nat → α → Except Defect β) (number : Nat) :
    List α → Except Fault (List β)
  | [] => .ok []
  | a :: rest =>
    match read number a with
    | .error defect => .error ⟨number, defect⟩
    | .ok b => (pass read (number + 1) rest).map (b :: ·)

/-- A node whose type and value have been read. -/
structure Labelled extends Draft where
  kind : Kind
  value : Option String

def readKind (fields : Fields) : Except Defect Kind :=
  match fields.get? "type" with
  | some (.text name) => if name.isEmpty then .error .badType else .ok (.ofName name)
  | _ => .error .badType

def readValue (fields : Fields) : Except Defect (Option String) :=
  match fields.get? "value" with
  | none => .ok none
  | some .null => .ok none
  | some (.scalar s) => .ok (some s.plainText)
  | some v => .error (.badValue v.typeName)

def readLabel (_ : Nat) (draft : Draft) : Except Defect Labelled := do
  let kind ← readKind draft.fields
  let value ← readValue draft.fields
  return { draft with kind, value }

def readSource (fields : Fields) : Except Defect (Option String) :=
  match fields.get? "source" with
  | none => .ok none
  | some .null => .ok none
  | some (.text s) => .ok (some s)
  | some _ => .error .badSource

/-- The text of node `number`, given the texts of the nodes after it. -/
def sourceFrom (later : List String) (number : Nat) (n : Labelled) (own : Option String) : String :=
  own.getD (n.kind.derivedSource n.value
    ((n.slots[0]?).join.map fun scope => (later[scope - (number + 1)]?).getD ""))

/-- The texts of the nodes from `number` on, read from the last to the first. -/
def readSources (number : Nat) : List Labelled → Except Fault (List String)
  | [] => .ok []
  | n :: rest =>
    match readSources (number + 1) rest with
    | .error fault => .error fault
    | .ok later =>
      match readSource n.fields with
      | .error defect => .error ⟨number, defect⟩
      | .ok own => .ok (sourceFrom later number n own :: later)

def readInt (fields : Fields) (name : String) (absent : Int) (defect : Defect) :
    Except Defect Int :=
  match fields.get? name with
  | none => .ok absent
  | some (.int n) => .ok n
  | some _ => .error defect

def readNode (number : Nat) (n : Labelled × String) : Except Defect Node := do
  let line ← readInt n.1.fields "line" 1 .badLine
  let column ← readInt n.1.fields "column" 0 .badColumn
  return {
    index := number
    kind := n.1.kind
    value := n.1.value
    parent := n.1.parent
    slots := n.1.slots
    source := n.2
    location := ⟨line, column⟩ }

/-- The numbered nodes of a value and of all that is below it. -/
def flatten (root : Value) : Except Fault (Array Node) := do
  let drafts ← walk #[] [⟨root, none⟩]
  let nodes ← pass readLabel 0 drafts.toList
  let sources ← readSources 0 nodes
  return (← pass readNode 0 (nodes.zip sources)).toArray

end Branch
end Bulkhead
