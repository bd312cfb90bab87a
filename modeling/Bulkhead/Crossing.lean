/-
References from a file into an engine.

A constant reaches into an engine if it names a protected engine; an association does if its class
name starts with one.  Inside a strongly protected engine the interface of the main application
counts as an engine too.
-/
import Bulkhead.Constant
import Bulkhead.Protection
import Bulkhead.SourceTree.Basic

namespace Bulkhead

/-- What is reached: an engine, by the names in `lineage`, innermost first. -/
structure Reach where
  engine : String
  lineage : List String
  throughApi : Bool
deriving DecidableEq, Repr

/-- A reach, with its place in the file and the constant to ask about before it is reported.  An
association has no such constant: it always joins two models. -/
structure Crossing extends Reach where
  node : Node
  model : Option String
deriving DecidableEq, Repr

namespace Crossing

def mainApp : String := "MainApp::EngineApi"

def apiSegment : String := "Api"

/-- The number of names that are compared with the published lists. -/
def defaultDepth : Int := 5

/-! ## Constants -/

/-- The constant is part of the name that a module or class declaration gives. -/
def isDeclared (t : SourceTree) (n : Node) : Bool :=
  let outer := t.outermost n
  match t.parent? outer with
  | some p =>
    (p.kind == .moduleDecl || p.kind == .classDecl) && p.slots.head? == some (some outer.index)
  | none => false

/-- The constant is what a call is sent to.  A value object may share the name of an engine. -/
def isReceiver (t : SourceTree) (n : Node) : Bool :=
  match t.parent? n with
  | some p => p.kind == .send && p.slots.head? == some (some n.index)
  | none => false

/-- The constant around this one is the API of the engine. -/
def isThroughApi (t : SourceTree) (n : Node) : Bool :=
  match t.parent? n with
  | some p => p.kind == .const && p.value == some apiSegment
  | none => false

/-- The name lies in the interface of the main application and the file in an engine that is
strongly protected. -/
def isReserved (p : Protection) (current : Option String) (name : String) : Bool :=
  mainApp.toList.isPrefixOf name.toList && p.isStrong current

/-- The engine that a constant names, given the protected engines. -/
def engineNamed (p : Protection) (engines : List String) (t : SourceTree) (current : Option String)
    (n : Node) : Option String :=
  match t.constName n with
  | none => none
  | some name =>
    if isReserved p current name then some mainApp
    else if engines.contains name then some name
    else none

/-- The protected engines have to be known to say which engine a constant names. -/
def needsEngines (p : Protection) (t : SourceTree) (current : Option String) (n : Node) : Bool :=
  match t.constName n with
  | none => false
  | some name => !isReserved p current name

/-- The constant is looked at as a reference. -/
def isCandidate (t : SourceTree) (n : Node) : Bool :=
  n.kind == .const && !isDeclared t n && !isReceiver t n

def ofConst (p : Protection) (engines : List String) (t : SourceTree) (current : Option String)
    (depth : Int) (n : Node) : Option Crossing :=
  if isCandidate t n then
    (engineNamed p engines t current n).map fun engine =>
      { engine
        lineage := (t.lineage n depth).map fun n => Constant.bare n.source
        throughApi := isThroughApi t n
        node := n
        model := t.constName (t.outermost n) }
  else none

/-! ## Associations -/

def relationMethods : List String :=
  ["belongs_to", "has_one", "has_many"]

/-- The method of a call that declares an association. -/
def relation? (n : Node) : Option String :=
  if n.kind = .send then n.value.filter relationMethods.contains else none

/-- The value of the first pair that has a value and the key `class_name`. -/
def classNameIn (t : SourceTree) : List Node → Option Node
  | [] => none
  | pair :: rest =>
    if pair.kind = .pair then
      match t.child? pair 0, t.child? pair 1 with
      | some key, some value =>
        if key.kind = .sym ∧ key.value = some "class_name" then some value
        else classNameIn t rest
      | _, _ => classNameIn t rest
    else classNameIn t rest

/-- The literal class name of an association with a name and options. -/
def classNameNode (t : SourceTree) (n : Node) : Option Node :=
  if (relation? n).isSome ∧ n.slots.length = 3 then
    match t.child? n 1, t.child? n 2 with
    | some name, some options =>
      if name.kind = .sym ∧ options.kind = .hash then
        (classNameIn t (t.children options)).filter fun value => value.kind == .str
      else none
    | _, _ => none
  else none

/-- The class name of an association, bare, and the node that holds it.  An empty one says
nothing. -/
def associated? (t : SourceTree) (n : Node) : Option (Node × String) :=
  match classNameNode t n with
  | none => none
  | some node =>
    match node.value with
    | none => none
    | some value => if value.isEmpty then none else some (node, Constant.bare value)

/-- The engine that a class name starts with, unless it starts with nothing. -/
def leadingEngine (className : String) : Option String :=
  match Constant.segments className with
  | [] => none
  | first :: _ => if first.isEmpty then none else some first

def ofAssociation (engines : List String) (t : SourceTree) (n : Node) : Option Crossing :=
  match associated? t n with
  | none => none
  | some (node, className) =>
    match leadingEngine className with
    | none => none
    | some engine =>
      if engines.contains engine then
        some
          { engine
            lineage := [className]
            throughApi := (Constant.segments className)[1]? == some apiSegment
            node
            model := none }
      else none

/-- The protected engines have to be known to say whether an association reaches into one. -/
def associationNeedsEngines (t : SourceTree) (n : Node) : Bool :=
  match associated? t n with
  | none => false
  | some (_, className) => (leadingEngine className).isSome

/-- The protected engines have to be known to say whether there is a crossing at a node. -/
def dependsOnEngines (p : Protection) (t : SourceTree) (current : Option String) (n : Node) : Bool :=
  match n.kind with
  | .const => isCandidate t n && needsEngines p t current n
  | .send => associationNeedsEngines t n
  | _ => false

end Crossing
end Bulkhead
