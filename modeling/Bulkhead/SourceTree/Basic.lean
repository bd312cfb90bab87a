/-
Source trees as they are searched: nodes numbered in reading order.

Each node knows the number of the node above it and the numbers in its slots, so that a search can
go up as well as down.  A node's number is greater than that of the node above it.
-/
import Bulkhead.SourceTree.Branch

namespace Bulkhead

structure Node where
  index : Nat
  kind : Kind
  value : Option String
  parent : Option Nat
  slots : List (Option Nat)
  source : String
  location : Location
deriving DecidableEq, Repr

namespace Branch

mutual

/-- The numbered nodes of a branch whose own number is `start`. -/
def layout (parent : Option Nat) (start : Nat) : Branch → List Node
  | .node kind value source location slots =>
    let (numbers, below) := layoutSlots start (start + 1) slots
    { index := start, kind, value, parent, slots := numbers, source, location } :: below

/-- The numbers in the slots of node `parent` and the nodes below it, where `start` is the first
number that is free. -/
def layoutSlots (parent start : Nat) : List (Option Branch) → List (Option Nat) × List Node
  | [] => ([], [])
  | none :: rest =>
    let (numbers, nodes) := layoutSlots parent start rest
    (none :: numbers, nodes)
  | some b :: rest =>
    let first := layout (some parent) start b
    let (numbers, nodes) := layoutSlots parent (start + first.length) rest
    (some start :: numbers, first ++ nodes)

end

/-- The numbered nodes of a tree that may be empty. -/
def layoutRoot : Option Branch → Array Node
  | none => #[]
  | some b => (layout none 0 b).toArray

end Branch

/-- The tree of one file. -/
structure SourceTree where
  path : String
  root : Option Branch
  nodes : Array Node := Branch.layoutRoot root
  nodes_eq : nodes = Branch.layoutRoot root := by rfl

namespace SourceTree

def size (t : SourceTree) : Nat :=
  t.nodes.size

def parent? (t : SourceTree) (n : Node) : Option Node :=
  n.parent.bind (t.nodes[·]?)

def child? (t : SourceTree) (n : Node) (slot : Nat) : Option Node :=
  ((n.slots[slot]?).join).bind (t.nodes[·]?)

def children (t : SourceTree) (n : Node) : List Node :=
  n.slots.filterMap fun number => number.bind (t.nodes[·]?)

/-- The position that an index stands for in a sequence: one below zero counts from the end. -/
def position? (size : Nat) (index : Int) : Option Nat :=
  let index := if index < 0 then index + size else index
  if 0 ≤ index ∧ index < size then some index.toNat else none

/-- The node at an index, which may count from the end. -/
def nodeAt? (t : SourceTree) (index : Int) : Option Node :=
  (position? t.size index).bind (t.nodes[·]?)

/-- The node in a slot, which may count from the end.  There is no node in a slot past the last one;
a slot before the first one is refused. -/
def childAt? (t : SourceTree) (n : Node) (slot : Int) : Option (Option Node) :=
  if (n.slots.length : Int) ≤ slot then some none
  else
    (position? n.slots.length slot).map fun slot => t.child? n slot

/-! ## Constants

A constant such as `A::B::C` is a chain of nodes: the node of `C` holds that of `A::B` in its first
slot. -/

/-- The names of a chain of scopes, from the inside out, when it ends at the top level.  The first
argument bounds the length of the chain; the number of nodes is enough. -/
def scopeNames (t : SourceTree) : Nat → Option Node → Option (List String)
  | _, none => some []
  | 0, some _ => none
  | bound + 1, some n =>
    match n.kind with
    | .const => (scopeNames t bound (t.child? n 0)).map (n.value.getD "" :: ·)
    | .cbase => some []
    | _ => none

/-- The qualified name of a constant.  One inside something other than a constant has none. -/
def constName (t : SourceTree) (n : Node) : Option String :=
  if n.kind = .const then
    (t.scopeNames (t.size + 1) (some n)).map fun names => String.intercalate "::" names.reverse
  else none

/-- The chain of constants from a node upwards. -/
def constChain (t : SourceTree) : Nat → Node → List Node
  | 0, _ => []
  | bound + 1, n =>
    if n.kind = .const then
      match t.parent? n with
      | some p => n :: t.constChain bound p
      | none => [n]
    else []

/-- A constant and the constants around it, as many as the limit allows. -/
def lineage (t : SourceTree) (n : Node) (limit : Int) : List Node :=
  (t.constChain (n.index + 1) n).take limit.toNat

/-- The outermost of the constants around a node, or the node itself. -/
def outermost (t : SourceTree) (n : Node) : Node :=
  match t.parent? n with
  | some p => (t.constChain n.index p).getLast?.getD n
  | none => n

end SourceTree
end Bulkhead
