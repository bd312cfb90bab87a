/-
What decides the class that a factory builds.

The index goes through a file once and takes along what the factory blocks around say.  Here the
same is said of each declaration by itself, from where it stands.  A place is a node with the nodes
around it; `declaredAt` looks at the factory at a place and then at those of the blocks around it,
the nearest first, for one that gives a class or a parent.  `declared_by_enclosure` says that a file
declares just that, place by place in reading order, and that in each of the two maps of a file the
last declaration of a name counts.
-/
import Bulkhead.Proofs.FailedBuild

namespace Bulkhead

namespace Branch

/-- A node with the nodes around it, the nearest first. -/
structure Place where
  branch : Branch
  above : List Branch

mutual

/-- The places of a node and of all nodes below it, in reading order. -/
def places (above : List Branch) : Branch → List Place
  | .node kind value source location slots =>
    let b : Branch := .node kind value source location slots
    ⟨b, above⟩ :: placesIn (b :: above) slots

def placesIn (above : List Branch) : List (Option Branch) → List Place
  | [] => []
  | none :: rest => placesIn above rest
  | some b :: rest => places above b ++ placesIn above rest

end

/-- The node has what is written at the place. -/
def Place.Holds (n : Node) (place : Place) : Prop :=
  n.kind = place.branch.kind ∧ n.value = place.branch.value ∧ n.source = place.branch.source ∧
    n.location = place.branch.location

mutual

/-- The places are those of the numbered nodes, in the order of their numbers. -/
theorem holds_layout (parent : Option Nat) (start : Nat) (above : List Branch) (b : Branch) :
    List.Forall₂ Place.Holds (layout parent start b) (places above b) := by
  cases b with
  | node kind value source location slots =>
    rw [layout, places]
    exact .cons ⟨rfl, rfl, rfl, rfl⟩ (holds_layoutSlots start (start + 1) _ slots)

theorem holds_layoutSlots (parent start : Nat) (above : List Branch)
    (slots : List (Option Branch)) :
    List.Forall₂ Place.Holds (layoutSlots parent start slots).2 (placesIn above slots) := by
  cases slots with
  | nil => exact .nil
  | cons slot rest =>
    cases slot with
    | none => exact holds_layoutSlots parent start above rest
    | some b =>
      rw [layoutSlots, placesIn]
      exact List.rel_append (holds_layout (some parent) start above b)
        (holds_layoutSlots parent _ above rest)

end

end Branch

namespace Factory

theorem nonEmpty_eq_some {text : Option String} {s : String} :
    nonEmpty text = some s ↔ text = some s ∧ s.isEmpty = false := by
  cases text with
  | none => simp [nonEmpty]
  | some s' =>
    rw [nonEmpty]
    cases hempty : s'.isEmpty with
    | true => grind
    | false => grind

/-- A missing text counts as an empty one. -/
theorem nonEmpty_getD (text : Option String) : nonEmpty (some (text.getD "")) = nonEmpty text := by
  cases text with
  | none => rfl
  | some s => rfl

theorem getD_nonEmpty (s : String) : (nonEmpty (some s)).getD "" = s := by
  rw [nonEmpty]
  split
  · next hempty => exact (String.isEmpty_iff.mp hempty).symm
  · rfl

/-! ## The factories that decide -/

/-- What the names of a factory stand for: a class, or whatever the parent stands for. -/
inductive Target where
  | builds (className : String)
  | follows (parent : String)
deriving DecidableEq, Repr

namespace Target

def class? : Target → Option String
  | builds className => some className
  | follows _ => none

def parent? : Target → Option String
  | builds _ => none
  | follows parent => some parent

end Target

/-- What a factory says itself.  With a class of its own the parent does not matter. -/
def ownTarget? (f : Factory) : Option Target :=
  match nonEmpty f.className, nonEmpty f.parent with
  | some className, _ => some (.builds className)
  | none, some parent => some (.follows parent)
  | none, none => none

/-- The class that the name of a factory spells, unless it spells nothing. -/
def spelled? (f : Factory) : Option String :=
  nonEmpty (some (Naming.toConstant f.name))

/-- What the names of the first factory stand for, where the others are around it, the nearest
first: what the first of them says that says anything.  If none does, it is the class that a name
spells, and the outermost comes first. -/
def targetOf (chain : List Factory) : Target :=
  (chain.findSome? ownTarget?).getD (.builds ((chain.reverse.findSome? spelled?).getD ""))

/-- What holds inside factories, the innermost first. -/
def scopeOf (chain : List Factory) : Scope :=
  chain.foldr (fun f scope => scope.enter f) {}

def Scope.target (scope : Scope) : Target :=
  match scope.parent with
  | some parent => .follows parent
  | none => .builds (scope.className.getD "")

theorem enter_of_class {f : Factory} {className : String}
    (h : nonEmpty f.className = some className) (scope : Scope) :
    scope.enter f = ⟨none, some className⟩ := by
  rw [Scope.enter, h]

theorem enter_of_parent {f : Factory} {parent : String} (hclass : nonEmpty f.className = none)
    (hparent : nonEmpty f.parent = some parent) (scope : Scope) :
    (scope.enter f).target = .follows parent := by
  rw [Scope.enter, hclass, hparent]
  rfl

theorem enter_of_neither {f : Factory} (hclass : nonEmpty f.className = none)
    (hparent : nonEmpty f.parent = none) (scope : Scope) :
    scope.enter f =
      ⟨scope.parent, some ((nonEmpty scope.className).getD (Naming.toConstant f.name))⟩ := by
  rw [Scope.enter, hclass, hparent, Option.none_or]

theorem target_eq_follows {scope : Scope} {parent : String} :
    scope.target = .follows parent ↔ scope.parent = some parent := by
  rw [Scope.target]
  cases scope.parent with
  | none => simp
  | some parent' => simp

theorem target_eq_builds {scope : Scope} {className : String} :
    scope.target = .builds className ↔
      scope.parent = none ∧ scope.className.getD "" = className := by
  rw [Scope.target]
  cases scope.parent with
  | none => simp
  | some parent => simp

/-- A class that a factory gives is not empty. -/
theorem nonEmpty_of_builds {chain : List Factory} {className : String}
    (h : chain.findSome? ownTarget? = some (.builds className)) :
    nonEmpty (some className) = some className := by
  obtain ⟨f, -, hf⟩ := List.exists_of_findSome?_eq_some h
  rw [ownTarget?] at hf
  split at hf
  · next given hgiven =>
    cases hf
    exact nonEmpty_eq_some.mpr ⟨rfl, (nonEmpty_eq_some.mp hgiven).2⟩
  · cases hf
  · cases hf

theorem nonEmpty_of_spelled {chain : List Factory} {className : String}
    (h : chain.findSome? spelled? = some className) :
    nonEmpty (some className) = some className := by
  obtain ⟨f, -, hf⟩ := List.exists_of_findSome?_eq_some h
  exact nonEmpty_eq_some.mpr ⟨rfl, (nonEmpty_eq_some.mp hf).2⟩

/-- Going out past a factory that says nothing: its name counts only if the names further out spell
nothing. -/
theorem targetOf_of_neither {f : Factory} (hown : ownTarget? f = none) (around : List Factory) :
    targetOf (f :: around) =
      match targetOf around with
      | .follows parent => .follows parent
      | .builds className =>
        .builds ((nonEmpty (some className)).getD (Naming.toConstant f.name)) := by
  rw [targetOf, targetOf, List.findSome?_cons, hown, List.reverse_cons, List.findSome?_append]
  cases hfound : around.findSome? ownTarget? with
  | some target =>
    cases target with
    | follows parent => rfl
    | builds className =>
      show Target.builds className = .builds ((nonEmpty (some className)).getD _)
      rw [nonEmpty_of_builds hfound, Option.getD_some]
  | none =>
    show Target.builds _ = .builds _
    congr 1
    cases hspelled : around.reverse.findSome? spelled? with
    | some className =>
      rw [Option.getD_some, nonEmpty_of_spelled hspelled]
      rfl
    | none =>
      have hself : [f].findSome? spelled? = spelled? f := by
        rw [List.findSome?_singleton]
      rw [Option.none_or, hself]
      exact getD_nonEmpty (Naming.toConstant f.name)

/-- What is carried along on the way in is what is found on the way out. -/
theorem target_scopeOf (chain : List Factory) : (scopeOf chain).target = targetOf chain := by
  induction chain with
  | nil => rfl
  | cons f around ih =>
    have hscope : scopeOf (f :: around) = (scopeOf around).enter f := rfl
    rw [hscope]
    cases hclass : nonEmpty f.className with
    | some className =>
      rw [enter_of_class hclass, targetOf, List.findSome?_cons, ownTarget?, hclass]
      rfl
    | none =>
      cases hparent : nonEmpty f.parent with
      | some parent =>
        rw [enter_of_parent hclass hparent, targetOf, List.findSome?_cons, ownTarget?, hclass,
          hparent]
        rfl
      | none =>
        have hown : ownTarget? f = none := by rw [ownTarget?, hclass, hparent]
        rw [enter_of_neither hclass hparent, targetOf_of_neither hown]
        cases htarget : targetOf around with
        | follows parent =>
          have hfollows := target_eq_follows.mp (ih.trans htarget)
          exact target_eq_follows.mpr hfollows
        | builds className =>
          obtain ⟨hnone, hgiven⟩ := target_eq_builds.mp (ih.trans htarget)
          refine target_eq_builds.mpr ⟨hnone, ?_⟩
          rw [Option.getD_some, ← nonEmpty_getD, hgiven]

/-! ## Declarations at their places -/

/-- The factory that a node declares itself. -/
def declared? (b : Branch) : Option Factory :=
  if isDeclaration b then ofCall? b else none

/-- The factory whose block a node is. -/
def ofBlock? (b : Branch) : Option Factory :=
  if b.kind = .block then (b.child? 0).bind declared? else none

/-- A declaration as it counts: its names, and what they stand for. -/
structure Declared where
  names : List String
  target : Target
deriving DecidableEq, Repr

def Registration.declared (r : Registration) : Declared where
  names := r.names
  target :=
    match r.parent with
    | some parent => .follows parent
    | none => .builds r.className

/-- What is declared at a place, unless it lies inside another declaration. -/
def declaredAt (place : Branch.Place) : Option Declared :=
  if place.above.any fun b => (declared? b).isSome then none
  else
    (declared? place.branch).map fun f =>
      ⟨f.name :: f.aliases, targetOf (f :: place.above.filterMap ofBlock?)⟩

theorem declared_register (scope : Scope) (f : Factory) :
    (register scope f).declared = ⟨f.name :: f.aliases, scope.target⟩ := by
  rw [Registration.declared, register, Scope.target]

theorem declared?_of_block {b : Branch} (h : b.kind = .block) : declared? b = none := by
  rw [declared?, isDeclaration, h]
  rfl

theorem callAt_of_block {b : Branch} (h : b.kind = .block) :
    (callAt b).bind ofCall? = ofBlock? b := by
  rw [callAt, ofBlock?, h, if_pos rfl]
  cases b.child? 0 with
  | none => rfl
  | some call =>
    rw [Option.bind_some, declared?]
    cases hcall : isDeclaration call with
    | true => simp [Option.filter, hcall]
    | false => simp [Option.filter, hcall]

theorem callAt_of_ne {b : Branch} (h : b.kind ≠ .block) :
    (callAt b).bind ofCall? = declared? b := by
  rw [callAt, declared?]
  cases isDeclaration b with
  | true => cases hkind : b.kind <;> simp_all
  | false => cases hkind : b.kind <;> simp_all

/-- What the index does at a node: it takes in a declaration, goes into the block of a factory, or
just goes on. -/
theorem registrations_cases (scope : Scope) (b : Branch) :
    (∃ f, declared? b = some f ∧ registrations scope b = [register (scope.enter f) f]) ∨
      (declared? b = none ∧ ∃ f, ofBlock? b = some f ∧
        registrations scope b = registrationsIn (scope.enter f) b.slots) ∨
      (declared? b = none ∧ ofBlock? b = none ∧
        registrations scope b = registrationsIn scope b.slots) := by
  obtain ⟨kind, value, source, location, slots⟩ := b
  rw [registrations]
  dsimp only
  generalize hb : Branch.node kind value source location slots = b
  have hslots : b.slots = slots := by rw [← hb]; rfl
  rw [hslots]
  by_cases hblock : b.kind = .block
  · have hcall : isDeclaration b = false := by rw [isDeclaration, hblock]; rfl
    rw [callAt_of_block hblock, declared?_of_block hblock, hcall]
    cases ofBlock? b with
    | some f => exact .inr (.inl ⟨rfl, f, rfl, rfl⟩)
    | none => exact .inr (.inr ⟨rfl, rfl, rfl⟩)
  · have hnone : ofBlock? b = none := if_neg hblock
    rw [callAt_of_ne hblock, hnone]
    cases hdeclared : declared? b with
    | some f =>
      have hcall : isDeclaration b = true := by
        by_contra hcall
        rw [declared?, if_neg hcall] at hdeclared
        cases hdeclared
      exact .inl ⟨f, rfl, if_pos hcall⟩
    | none => exact .inr (.inr ⟨rfl, rfl, rfl⟩)

mutual

/-- Nothing inside a declaration is declared. -/
theorem places_inside (above : List Branch)
    (h : (above.any fun b => (declared? b).isSome) = true) (b : Branch) :
    (b.places above).filterMap declaredAt = [] := by
  cases b with
  | node kind value source location slots =>
    have hbelow := placesIn_inside (.node kind value source location slots :: above)
      (by rw [List.any_cons, h, Bool.or_true]) slots
    rw [Branch.places, List.filterMap_cons, declaredAt, if_pos h, hbelow]

theorem placesIn_inside (above : List Branch)
    (h : (above.any fun b => (declared? b).isSome) = true) (slots : List (Option Branch)) :
    (Branch.placesIn above slots).filterMap declaredAt = [] := by
  cases slots with
  | nil => rfl
  | cons slot rest =>
    cases slot with
    | none => exact placesIn_inside above h rest
    | some b =>
      rw [Branch.placesIn, List.filterMap_append, places_inside above h b,
        placesIn_inside above h rest]
      rfl

end

mutual

theorem declared_registrations (above : List Branch)
    (h : (above.any fun b => (declared? b).isSome) = false) (b : Branch) :
    (registrations (scopeOf (above.filterMap ofBlock?)) b).map Registration.declared =
      (b.places above).filterMap declaredAt := by
  cases b with
  | node kind value source location slots =>
    generalize hb : Branch.node kind value source location slots = b
    have hplaces : b.places above = ⟨b, above⟩ :: Branch.placesIn (b :: above) slots := by
      rw [← hb, Branch.places]
    have hslots : b.slots = slots := by rw [← hb]; rfl
    have hself : declaredAt ⟨b, above⟩ = (declared? b).map fun f =>
        ⟨f.name :: f.aliases, targetOf (f :: above.filterMap ofBlock?)⟩ := by
      rw [declaredAt, h]
      rfl
    rw [hplaces, List.filterMap_cons, hself]
    rcases registrations_cases (scopeOf (above.filterMap ofBlock?)) b with
      ⟨f, hf, hfound⟩ | ⟨hnone, f, hf, hfound⟩ | ⟨hnone, hblock, hfound⟩
    · have hinside := placesIn_inside (b :: above) (by rw [List.any_cons, hf]; rfl) slots
      rw [hfound, hf, hinside, List.map_singleton, declared_register]
      exact congrArg (fun target => [Declared.mk _ target]) (target_scopeOf (f :: _))
    · have hbelow := declared_registrationsIn (b :: above)
        (by rw [List.any_cons, hnone, h]; rfl) slots
      rw [List.filterMap_cons_some hf] at hbelow
      rw [hfound, hslots, hnone, ← hbelow]
      rfl
    · have hbelow := declared_registrationsIn (b :: above)
        (by rw [List.any_cons, hnone, h]; rfl) slots
      rw [List.filterMap_cons_none hblock] at hbelow
      rw [hfound, hslots, hnone, ← hbelow]
      rfl

theorem declared_registrationsIn (above : List Branch)
    (h : (above.any fun b => (declared? b).isSome) = false) (slots : List (Option Branch)) :
    (registrationsIn (scopeOf (above.filterMap ofBlock?)) slots).map Registration.declared =
      (Branch.placesIn above slots).filterMap declaredAt := by
  cases slots with
  | nil => rfl
  | cons slot rest =>
    cases slot with
    | none => exact declared_registrationsIn above h rest
    | some b =>
      rw [registrationsIn, Branch.placesIn, List.map_append, List.filterMap_append,
        declared_registrations above h b, declared_registrationsIn above h rest]

end

/-! ## The maps of a file -/

namespace Index

theorem named?_addNames (value : String) (names : List String) (made : Names) (name : String) :
    named? name (addNames value names made) =
      if name ∈ names then some value else named? name made := by
  have hstep (first : String) (rest : List String) (made : Names) :
      addNames value (first :: rest) made = addNames value rest (putNamed first value made) := rfl
  induction names generalizing made with
  | nil => rfl
  | cons first rest ih =>
    rw [hstep, ih, named?_putNamed]
    by_cases hrest : name ∈ rest
    · rw [if_pos hrest, if_pos (List.mem_cons_of_mem first hrest)]
    · rw [if_neg hrest]
      by_cases hfirst : first = name
      · rw [if_pos hfirst, if_pos (hfirst ▸ List.mem_cons_self)]
      · have hnone : name ∉ first :: rest := by
          rintro (_ | ⟨_, hmem⟩)
          · exact hfirst rfl
          · exact hrest hmem
        rw [if_neg hfirst, if_neg hnone]

/-- In a map that takes in what each declaration gives for its names, the last declaration of a name
that gives anything counts. -/
theorem named?_foldl (value? : Target → Option String) (found : List Registration) (name : String)
    (made : Names) :
    named? name (found.foldl (fun made r =>
        ((value? r.declared.target).map fun value => addNames value r.names made).getD made) made) =
      (((found.map Registration.declared).reverse.findSome? fun d =>
        if name ∈ d.names then value? d.target else none).or (named? name made)) := by
  induction found generalizing made with
  | nil => rfl
  | cons r found ih =>
    have hnames : r.declared.names = r.names := rfl
    rw [List.foldl_cons, ih, List.map_cons, List.reverse_cons, List.findSome?_append,
      Option.or_assoc, List.findSome?_singleton, hnames]
    congr 1
    cases value? r.declared.target with
    | none => simp
    | some value =>
      rw [Option.map_some, Option.getD_some, named?_addNames]
      by_cases hname : name ∈ r.names
      · rw [if_pos hname, if_pos hname, Option.some_or]
      · rw [if_neg hname, if_neg hname, Option.none_or]

theorem named?_classesOf (found : List Registration) (name : String) :
    named? name (classesOf found) = (found.map Registration.declared).reverse.findSome? fun d =>
      if name ∈ d.names then d.target.class? else none := by
  have hfold : classesOf found = found.foldl (fun made r =>
      ((r.declared.target.class?).map fun value => addNames value r.names made).getD made) [] := by
    rw [classesOf]
    congr 1
    funext made r
    obtain ⟨names, parent, className⟩ := r
    cases parent <;> rfl
  rw [hfold, named?_foldl]
  exact Option.or_none

theorem named?_parentsOf (found : List Registration) (name : String) :
    named? name (parentsOf found) = (found.map Registration.declared).reverse.findSome? fun d =>
      if name ∈ d.names then d.target.parent? else none := by
  have hfold : parentsOf found = found.foldl (fun made r =>
      ((r.declared.target.parent?).map fun value => addNames value r.names made).getD made) [] := by
    rw [parentsOf]
    congr 1
    funext made r
    obtain ⟨names, parent, className⟩ := r
    cases parent <;> rfl
  rw [hfold, named?_foldl]
  exact Option.or_none

end Index

/-- The places of a file, in reading order. -/
def placesOf (t : SourceTree) : List Branch.Place :=
  (t.root.map (Branch.places [])).getD []

/-- A file declares what is declared at its places, one by one in the order of its nodes: each call
of `factory` with a name that lies in no other, under its name and its aliases, for the class or the
parent that the nearest of the factory and the blocks around it gives, and otherwise for a class that
a name spells.  In the classes and in the parents of the file the last declaration of a name
counts. -/
theorem declared_by_enclosure (index : Index) (t : SourceTree) :
    let declared := (placesOf t).filterMap declaredAt
    List.Forall₂ Branch.Place.Holds t.nodes.toList (placesOf t) ∧
      (declarations t).map Registration.declared = declared ∧
      ∃ classes parents,
        named? t.path (index.addTree t).classes = some classes ∧
        named? t.path (index.addTree t).parents = some parents ∧
        ∀ name,
          named? name classes = declared.reverse.findSome? (fun d =>
            if name ∈ d.names then d.target.class? else none) ∧
          named? name parents = declared.reverse.findSome? fun d =>
            if name ∈ d.names then d.target.parent? else none := by
  intro declared
  have hdeclared : (declarations t).map Registration.declared = declared := by
    show List.map _ ((t.root.map (registrations {})).getD []) =
      ((t.root.map (Branch.places [])).getD []).filterMap declaredAt
    cases t.root with
    | none => rfl
    | some b => exact declared_registrations [] rfl b
  refine ⟨?_, hdeclared, Index.classesOf (declarations t), Index.parentsOf (declarations t), ?_, ?_,
    fun name => ⟨?_, ?_⟩⟩
  · rw [t.nodes_eq, placesOf]
    cases t.root with
    | none => exact .nil
    | some b => exact Branch.holds_layout none 0 [] b
  · exact (named?_putNamed ..).trans (if_pos rfl)
  · exact (named?_putNamed ..).trans (if_pos rfl)
  · rw [Index.named?_classesOf, hdeclared]
  · rw [Index.named?_parentsOf, hdeclared]

end Factory
end Bulkhead
