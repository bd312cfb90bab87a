/-
Declarations of test factories, and calls that use them.

    factory :invoice, class: "Billing::Invoice", aliases: [:bill] do
      factory :paid_invoice
    end
    factory :overdue_invoice, parent: :invoice
-/
import Bulkhead.Constant
import Bulkhead.Naming
import Bulkhead.SourceTree.Branch

namespace Bulkhead

structure Factory where
  name : String
  aliases : List String
  parent : Option String
  className : Option String
deriving DecidableEq, Repr

namespace Factory

/-- A text that is there and not empty. -/
def nonEmpty : Option String → Option String
  | some s => if s.isEmpty then none else some s
  | none => none

/-- The value of the first pair with the given key. -/
def pairValue (key : String) : List Branch → Option Branch
  | [] => none
  | pair :: rest =>
    if pair.kind = .pair ∧ ((pair.child? 0).bind Branch.value) = some key then pair.child? 1
    else pairValue key rest

/-- An option of a call, by its key. -/
def option? (options : Option Branch) (key : String) : Option Branch :=
  match options with
  | some b => if b.kind = .hash then pairValue key b.children else none
  | none => none

def readAliases (options : Option Branch) : List String :=
  match option? options "aliases" with
  | some b => if b.kind = .array then b.children.filterMap fun item => nonEmpty item.value else []
  | none => []

/-- The class is a constant or a text; the colons in front do not matter. -/
def readClass (options : Option Branch) : Option String :=
  match option? options "class" with
  | none => none
  | some b =>
    match b.kind with
    | .const => some (Constant.bare b.source)
    | .str => (nonEmpty b.value).map Constant.bare
    | _ => none

/-- The factory that a call declares, if its first argument is a name. -/
def ofCall? (call : Branch) : Option Factory :=
  match call.child? 1 with
  | none => none
  | some first =>
    if first.kind = .sym ∨ first.kind = .str then
      (nonEmpty first.value).map fun name =>
        let options := call.child? 2
        { name
          aliases := readAliases options
          parent := (option? options "parent").bind Branch.value
          className := readClass options }
    else none

def isDeclaration (b : Branch) : Bool :=
  b.kind == .send && b.value == some "factory"

/-- The declaring call at a node: the node itself, or the call of a block. -/
def callAt (b : Branch) : Option Branch :=
  match b.kind with
  | .block => (b.child? 0).filter isDeclaration
  | _ => if isDeclaration b then some b else none

/-- The methods that build from a factory. -/
def methods : List String :=
  ["attributes_for", "attributes_for_list", "build", "build_list", "build_pair", "build_stubbed",
    "build_stubbed_list", "create", "create_list", "create_pair"]

/-- The factory that a call builds from. -/
def used? (b : Branch) : Option String :=
  if b.kind = .send ∧ (b.value.filter methods.contains).isSome then
    match b.child? 1 with
    | some first => if first.kind = .sym then first.value else none
    | none => none
  else none

/-- A file of examples, by its name. -/
def isExampleFile (path : String) : Bool :=
  "_spec.rb".toList.isSuffixOf path.toList

end Factory
end Bulkhead
