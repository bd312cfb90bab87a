/-
The offenses of a document, collected by recursion over its nested objects.

The recursion carries the objects around the one at hand, each with the slot that leads on, and
nothing else: no node has a number here, and no session is kept.  Every test on a constant or an
association is made on the nested objects, and every list that an engine publishes is read where it
is asked for.
-/
import Bulkhead.Proofs.Agreement
import Bulkhead.Proofs.NodeObject

namespace Bulkhead

namespace Value

/-! ## Constants -/

/-- The names of a constant and of its scopes, from the inside out, when the scopes end at the top
level. -/
def scopeNames (v : Value) : Option (List String) :=
  match v.kind with
  | .const =>
    let scope := (v.slot? 0).attach.map fun scope => scope.1.scopeNames
    (scope.getD (some [])).map (v.given.getD "" :: ·)
  | .cbase => some []
  | _ => none
termination_by sizeOf v
decreasing_by exact sizeOf_slot?_lt scope.2

theorem scopeNames_eq (v : Value) :
    v.scopeNames = match v.kind with
      | .const => (((v.slot? 0).map scopeNames).getD (some [])).map (v.given.getD "" :: ·)
      | .cbase => some []
      | _ => none := by
  rw [scopeNames]
  simp only [Option.attach_map_val]

/-- The qualified name of a constant. -/
def constName (v : Value) : Option String :=
  if v.kind = .const then v.scopeNames.map fun names => String.intercalate "::" names.reverse
  else none

/-! ## Associations -/

/-- The call declares an association. -/
def isRelation (v : Value) : Bool :=
  v.kind == .send && v.given.any Crossing.relationMethods.contains

/-- The value of a pair whose key is `class_name`. -/
def classNameOf (pair : Value) : Option Value :=
  if pair.kind = .pair then
    match pair.slot? 0, pair.slot? 1 with
    | some key, some value =>
      if key.kind = .sym ∧ key.given = some "class_name" then some value else none
    | _, _ => none
  else none

/-- The literal class name of an association: of the pairs in its options, the first that names a
class has to give it as a string. -/
def classNameObject (v : Value) : Option Value :=
  if v.isRelation ∧ v.items.length = 3 then
    match v.slot? 1, v.slot? 2 with
    | some name, some options =>
      if name.kind = .sym ∧ options.kind = .hash then
        (options.items.findSome? classNameOf).filter fun value => value.kind == .str
      else none
    | _, _ => none
  else none

end Value

namespace Site

/-- The outermost of the constants around an object, or the object itself. -/
def outermost (object : Value) : List (Value × Nat) → Site
  | [] => ⟨object, []⟩
  | (p, j) :: rest => if p.kind = .const then outermost p rest else ⟨object, (p, j) :: rest⟩

/-- The constant is part of the name that a module or class declaration gives. -/
def isDeclared (s : Site) : Bool :=
  match (outermost s.object s.above).above with
  | (p, 0) :: _ => p.kind == .moduleDecl || p.kind == .classDecl
  | _ => false

/-- The constant is what a call is sent to. -/
def isReceiver (s : Site) : Bool :=
  match s.above with
  | (p, 0) :: _ => p.kind == .send
  | _ => false

/-- The constant around this one is the API of the engine. -/
def isThroughApi (s : Site) : Bool :=
  match s.above with
  | (p, _) :: _ => p.kind == .const && p.given == some Crossing.apiSegment
  | [] => false

/-- A constant and the constants around it, at most five. -/
def lineage (s : Site) : List Value :=
  ((s.object :: s.above.map Prod.fst).takeWhile fun v => v.kind == .const).take 5

/-! ## References -/

/-- The engine that a qualified name stands for. -/
def engineOf (p : Protection) (engines : List String) (current : Option String) (name : String) :
    Option String :=
  if Crossing.isReserved p current name then some Crossing.mainApp
  else if engines.contains name then some name
  else none

def constReference (p : Protection) (engines : List String) (current : Option String) (s : Site) :
    Option Reference :=
  if s.isDeclared || s.isReceiver then none
  else
    (s.object.constName.bind (engineOf p engines current)).map fun engine =>
      { engine
        lineage := s.lineage.map fun v => Constant.bare v.source
        throughApi := s.isThroughApi
        location := s.object.location
        model := (outermost s.object s.above).object.constName }

/-- The reference that a class name makes, unless it is empty. -/
def classReference (engines : List String) (literal : Value) : Option Reference :=
  match literal.given with
  | none => none
  | some text =>
    let className := Constant.bare text
    if text.isEmpty then none
    else
      match Crossing.leadingEngine className with
      | none => none
      | some engine =>
        if engines.contains engine then
          some
            { engine
              lineage := [className]
              throughApi := (Constant.segments className)[1]? == some Crossing.apiSegment
              location := literal.location
              model := none }
        else none

def reference? (p : Protection) (engines : List String) (current : Option String) (s : Site) :
    Option Reference :=
  match s.object.kind with
  | .const => constReference p engines current s
  | .send => s.object.classNameObject.bind (classReference engines)
  | _ => none

end Site

/-! ## Offenses -/

namespace Value

mutual

/-- What is found at an object and at all objects below it, in reading order. -/
def gather {α : Type} (f : Site → Option α) (above : List (Value × Nat)) (v : Value) : List α :=
  (f ⟨v, above⟩).toList ++ gatherIn f v above 0 v.items
termination_by sizeOf v
decreasing_by exact sizeOf_items_lt v

/-- What is found below an object, where the entries given are those of the slots from `j` on. -/
def gatherIn {α : Type} (f : Site → Option α) (v : Value) (above : List (Value × Nat)) (j : Nat) :
    List Value → List α
  | [] => []
  | .null :: rest => gatherIn f v above (j + 1) rest
  | item :: rest => gather f ((v, j) :: above) item ++ gatherIn f v above (j + 1) rest
termination_by items => sizeOf items

end

mutual

/-- What is gathered is what is found at the sites. -/
theorem gather_eq {α : Type} (f : Site → Option α) (above : List (Value × Nat)) (v : Value) :
    v.gather f above = (v.sites above).filterMap f := by
  rw [gather, sites, List.filterMap_cons, gatherIn_eq f v above 0 v.items]
  cases f ⟨v, above⟩ <;> rfl
termination_by sizeOf v
decreasing_by exact sizeOf_items_lt v

theorem gatherIn_eq {α : Type} (f : Site → Option α) (v : Value) (above : List (Value × Nat))
    (j : Nat) (items : List Value) :
    v.gatherIn f above j items = (v.sitesIn above j items).filterMap f := by
  cases items with
  | nil => rw [gatherIn, sitesIn, List.filterMap_nil]
  | cons item rest =>
    have hrest := gatherIn_eq f v above (j + 1) rest
    by_cases hnull : item = .null
    · rw [hnull, null, gatherIn, sitesIn, hrest]
    · rw [gatherIn, sitesIn, List.filterMap_append, gather_eq f _ item, hrest]
      · exact hnull
      · exact hnull
termination_by sizeOf items

end

def pathText (document : Value) : String :=
  match document.field? "path" with
  | some (.text path) => path
  | _ => ""

/-- The offenses of a document, by recursion over the objects in its field `root`. -/
def offenses (p : Protection) (source : Persistence.Source) (fs : FileSystem) (document : Value) :
    List Offense :=
  let path := document.pathText
  let current := p.ownerOf path
  let engines := p.protectedEngines (p.survey fs).1
  match document.field? "root" with
  | none => []
  | some .null => []
  | some root =>
    root.gather (fun s =>
      (s.reference? p engines current).bind (Reference.offense? p source fs path current)) []

end Value
end Bulkhead
