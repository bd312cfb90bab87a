/-
Which tree documents are accepted, and which fault is reported of one that is not.

The faults are told over the objects of a document in reading order, which is the order of their
numbers: first the shape of all objects, then their types and values, then their sources from the last
object to the first, then their locations.  `search` finds the first defect in a list of numbered
objects.  Its lemmas say that the walk with its stack and each of the passes stop at what it finds,
and `errorOf_flatten` puts them together.
-/
import Bulkhead.Proofs.Numbering

namespace Bulkhead

/-! ## Node objects that are well formed -/

namespace Value

/-- The fields of a node object, apart from `children`, are as they should be. -/
structure HasFields (v : Value) : Prop where
  object : ∃ fields, v = .object fields
  type : ∃ name, v.field? "type" = some (.text name) ∧ name ≠ ""
  value : ∀ w, v.field? "value" = some w → ∃ s, w = .scalar s
  source : ∀ w, v.field? "source" = some w → w = .null ∨ ∃ s, w = .text s
  line : ∀ w, v.field? "line" = some w → ∃ n, w = .int n
  column : ∀ w, v.field? "column" = some w → ∃ n, w = .int n

/-- The value is a node object that is well formed all the way down. -/
inductive IsNode : Value → Prop
  | leaf {v : Value} (h : v.HasFields) (hchildren : v.field? "children" = none) : IsNode v
  | inner {v : Value} {items : List Value} (h : v.HasFields)
      (hchildren : v.field? "children" = some (.list items))
      (hitems : ∀ item ∈ items, item ≠ .null → IsNode item) : IsNode v

/-- The value is the document of a file: an object with a path, whose root is well formed or left
out. -/
structure IsDocument (v : Value) : Prop where
  object : ∃ fields, v = .object fields
  path : ∃ path, v.field? "path" = some (.text path) ∧ path ≠ ""
  root : ∀ root, v.field? "root" = some root → root = .null ∨ root.IsNode

end Value

/-! ## Defects -/

namespace Value

open Branch (Defect)

def isList : Value → Bool
  | .list _ => true
  | _ => false

def isScalar : Value → Bool
  | .scalar _ => true
  | _ => false

def isTextOrNull : Value → Bool
  | .text _ => true
  | .null => true
  | _ => false

def isInt : Value → Bool
  | .int _ => true
  | _ => false

def isTypeName : Value → Bool
  | .text name => !name.isEmpty
  | _ => false

/-- A node is an object, and its children are a list if they are there. -/
def shapeDefect? (v : Value) : Option Defect :=
  match v with
  | .object _ => if (v.field? "children").all isList then none else some .childrenNotList
  | _ => some (.notMapping v.typeName)

/-- A node has a type, and a value that is no list or object if it has one. -/
def labelDefect? (v : Value) : Option Defect :=
  if (v.field? "type").any isTypeName then
    ((v.field? "value").filter (!·.isScalar)).map fun w => .badValue w.typeName
  else some .badType

def sourceDefect? (v : Value) : Option Defect :=
  if (v.field? "source").all isTextOrNull then none else some .badSource

def placeDefect? (v : Value) : Option Defect :=
  if (v.field? "line").all isInt then
    if (v.field? "column").all isInt then none else some .badColumn
  else some .badLine

end Value

namespace Branch

/-- The first defect in a list of numbered objects. -/
def search (defect? : Value → Option Defect) (objects : List (Value × Nat)) : Option Fault :=
  objects.findSome? fun object => (defect? object.1).map (⟨object.2, ·⟩)

/-- The fault that is reported of the given nodes, which are in reading order.  The searches come one
after the other; the one for sources goes backwards. -/
def reported? (sites : List Site) : Option Fault :=
  let objects := (sites.map Site.object).zipIdx
  (search Value.shapeDefect? objects).or
    ((search Value.labelDefect? objects).or
      ((search Value.sourceDefect? objects.reverse).or (search Value.placeDefect? objects)))

end Branch

/-- The document is refused, for the reason that is given. -/
inductive SourceTree.Refused : Value → SourceTree.Failure → Prop
  | document {v : Value} (h : ∀ fields, v ≠ .object fields) : Refused v (.notMapping v.typeName)
  | path {fields : Fields}
      (h : ∀ path, (Value.object fields).field? "path" = some (.text path) → path = "") :
      Refused (.object fields) .noPath
  | node {v root : Value} {path : String} {fault : Branch.Fault}
      (hpath : v.field? "path" = some (.text path)) (hfilled : path ≠ "")
      (hroot : v.field? "root" = some root) (hnull : root ≠ .null)
      (hfault : Branch.reported? (root.sites []) = some fault) : Refused v (.node path fault)

/-! ## What stops a reading -/

/-- Why a reading did not go through. -/
def errorOf {ε α : Type} : Except ε α → Option ε
  | .ok _ => none
  | .error e => some e

theorem errorOf_bind {ε α β : Type} {x : Except ε α} {k : α → Except ε β} {later : Option ε}
    (h : ∀ a, x = .ok a → errorOf (k a) = later) : errorOf (x >>= k) = (errorOf x).or later := by
  cases x with
  | error e => rfl
  | ok a => exact h a rfl

theorem errorOf_map {ε α β : Type} (x : Except ε α) (f : α → β) :
    errorOf (x.map f) = errorOf x := by
  cases x <;> rfl

namespace Branch

section Fields

variable (fields : Fields)

theorem errorOf_readKind : errorOf (readKind fields) =
    if ((Value.object fields).field? "type").any Value.isTypeName then none
    else some .badType := by
  rw [readKind, Value.field?_object]
  rcases fields.get? "type" with _ | (s | items | inner)
  · rfl
  · cases s with
    | text name =>
      show errorOf (if name.isEmpty then _ else _) = if !name.isEmpty then _ else _
      cases name.isEmpty <;> rfl
    | _ => rfl
  · rfl
  · rfl

theorem errorOf_readValue : errorOf (readValue fields) =
    (((Value.object fields).field? "value").filter (!·.isScalar)).map
      fun w => .badValue w.typeName := by
  rw [readValue, Value.field?_object]
  rcases fields.get? "value" with _ | (s | items | inner)
  · rfl
  · cases s <;> rfl
  · rfl
  · rfl

theorem errorOf_readSource :
    errorOf (readSource fields) = (Value.object fields).sourceDefect? := by
  rw [readSource, Value.sourceDefect?, Value.field?_object]
  rcases fields.get? "source" with _ | (s | items | inner)
  · rfl
  · cases s <;> rfl
  · rfl
  · rfl

theorem errorOf_readInt (name : String) (absent : Int) (defect : Defect) :
    errorOf (readInt fields name absent defect) =
      if ((Value.object fields).field? name).all Value.isInt then none else some defect := by
  rw [readInt, Value.field?_object]
  rcases fields.get? name with _ | (s | items | inner)
  · rfl
  · cases s <;> rfl
  · rfl
  · rfl

end Fields

theorem errorOf_unpack (v : Value) : errorOf (unpack v) = v.shapeDefect? := by
  cases v with
  | scalar s => rfl
  | list items => rfl
  | object fields =>
    rw [unpack, Value.shapeDefect?, Value.field?_object]
    rcases Fields.get? "children" fields with _ | (s | items | inner) <;> rfl

theorem errorOf_readLabel (number : Nat) (draft : Draft) :
    errorOf (readLabel number draft) = (Value.object draft.fields).labelDefect? := by
  have hlabel : (Value.object draft.fields).labelDefect? =
      (errorOf (readKind draft.fields)).or (errorOf (readValue draft.fields)) := by
    rw [errorOf_readKind, errorOf_readValue, Value.labelDefect?]
    split <;> rfl
  rw [hlabel]
  refine errorOf_bind fun kind _ => ?_
  rw [← Option.or_none (o := errorOf (readValue draft.fields))]
  exact errorOf_bind fun value _ => rfl

theorem errorOf_readNode (number : Nat) (n : Labelled × String) :
    errorOf (readNode number n) = (Value.object n.1.fields).placeDefect? := by
  have hplace : (Value.object n.1.fields).placeDefect? =
      (errorOf (readInt n.1.fields "line" 1 .badLine)).or
        (errorOf (readInt n.1.fields "column" 0 .badColumn)) := by
    rw [errorOf_readInt, errorOf_readInt, Value.placeDefect?]
    split <;> rfl
  rw [hplace]
  refine errorOf_bind fun line _ => ?_
  rw [← Option.or_none (o := errorOf (readInt n.1.fields "column" 0 .badColumn))]
  exact errorOf_bind fun column _ => rfl

/-! ## Passes -/

section Search

variable (defect? : Value → Option Defect)

theorem search_cons (object : Value) (number : Nat) (rest : List (Value × Nat)) :
    search defect? ((object, number) :: rest) =
      ((defect? object).map (⟨number, ·⟩)).or (search defect? rest) := by
  rw [search, List.findSome?_cons]
  cases defect? object <;> rfl

theorem search_append (before after : List (Value × Nat)) :
    search defect? (before ++ after) = (search defect? before).or (search defect? after) :=
  List.findSome?_append

variable {defect?} {α β : Type}

/-- A pass stops at the first object with the defect that it looks for. -/
theorem errorOf_pass {read : Nat → α → Except Defect β} {object : α → Value}
    (h : ∀ number a, errorOf (read number a) = defect? (object a)) (number : Nat) (l : List α) :
    errorOf (pass read number l) = search defect? ((l.map object).zipIdx number) := by
  induction l generalizing number with
  | nil => rfl
  | cons a rest ih =>
    rw [List.map_cons, List.zipIdx_cons, search_cons, ← h number a, ← ih, pass]
    cases read number a with
    | error defect => rfl
    | ok b =>
      dsimp only
      rw [errorOf_map]
      rfl

end Search

/-- The sources are read from the last to the first. -/
theorem errorOf_readSources (number : Nat) (nodes : List Labelled) :
    errorOf (readSources number nodes) =
      search Value.sourceDefect?
        ((nodes.map fun n => Value.object n.fields).zipIdx number).reverse := by
  induction nodes generalizing number with
  | nil => rfl
  | cons n rest ih =>
    rw [List.map_cons, List.zipIdx_cons, List.reverse_cons, search_append, ← ih, search_cons,
      ← errorOf_readSource, readSources]
    cases readSources (number + 1) rest with
    | error fault => rfl
    | ok later => cases readSource n.fields <;> rfl

theorem length_readSources {number : Nat} {nodes : List Labelled} {sources : List String}
    (h : readSources number nodes = .ok sources) : sources.length = nodes.length := by
  induction nodes generalizing number sources with
  | nil =>
    cases h
    rfl
  | cons n rest ih =>
    rw [readSources] at h
    split at h
    · cases h
    · next later hlater =>
      split at h
      · cases h
      · cases h
        rw [List.length_cons, List.length_cons, ih hlater]

/-! ## The walk -/

def Draft.object (draft : Draft) : Value :=
  .object draft.fields

mutual

/-- The drafts are those of the objects in reading order. -/
theorem objects_collect {parent : Option Nat} {start : Nat} {v : Value} {drafts : List Draft}
    (above : List (Value × Nat)) (h : collect parent start v = .ok drafts) :
    drafts.map Draft.object = (v.sites above).map Site.object := by
  cases hunpack : unpack v with
  | error defect =>
    rw [collect_of_error hunpack] at h
    cases h
  | ok unpacked =>
    obtain ⟨fields, items⟩ := unpacked
    have hlt := weightOfItems_unpack hunpack
    rw [collect_of_ok hunpack] at h
    obtain ⟨found, hfound, rfl⟩ := map_eq_ok.mp h
    obtain ⟨rfl, hitems⟩ := unpack_eq_ok hunpack
    rw [Value.sites, hitems, List.map_cons, List.map_cons,
      objects_collectSlots (.object fields) above 0 hfound]
    rfl
termination_by weight v

theorem objects_collectSlots {parent start : Nat} {items : List Value}
    {found : List (Option Nat) × List Draft} (v : Value) (above : List (Value × Nat)) (j : Nat)
    (h : collectSlots parent start items = .ok found) :
    found.2.map Draft.object = (v.sitesIn above j items).map Site.object := by
  cases items with
  | nil =>
    rw [collectSlots] at h
    cases h
    rw [Value.sitesIn]
    rfl
  | cons item rest =>
    have hitem : weight item < weightOfItems (item :: rest) := by
      rw [weightOfItems]
      omega
    have hbound : weightOfItems rest < weightOfItems (item :: rest) := by
      rw [weightOfItems]
      omega
    by_cases hnull : item = .null
    · rw [hnull, collectSlots_null] at h
      obtain ⟨below, hbelow, rfl⟩ := map_eq_ok.mp h
      have hrest := objects_collectSlots v above (j + 1) hbelow
      rw [hnull, Value.null, Value.sitesIn]
      exact hrest
    · rw [collectSlots_cons hnull] at h
      obtain ⟨first, hfirst, h⟩ := bind_eq_ok.mp h
      obtain ⟨below, hbelow, h⟩ := bind_eq_ok.mp h
      cases h
      rw [Value.sitesIn, List.map_append, List.map_append, objects_collect ((v, j) :: above) hfirst,
        objects_collectSlots v above (j + 1) hbelow]
      exact hnull
termination_by weightOfItems items

end

mutual

/-- The walk stops at the first object that is not of the right shape. -/
theorem errorOf_collect (parent : Option Nat) (start : Nat) (above : List (Value × Nat))
    (v : Value) :
    errorOf (collect parent start v) =
      search Value.shapeDefect? (((v.sites above).map Site.object).zipIdx start) := by
  rw [Value.sites, List.map_cons, List.zipIdx_cons, search_cons, ← errorOf_unpack]
  cases hunpack : unpack v with
  | error defect =>
    rw [collect_of_error hunpack]
    rfl
  | ok unpacked =>
    obtain ⟨fields, items⟩ := unpacked
    have hlt := weightOfItems_unpack hunpack
    obtain ⟨-, hitems⟩ := unpack_eq_ok hunpack
    rw [collect_of_ok hunpack, errorOf_map, hitems, errorOf_collectSlots start (start + 1) v above 0]
    rfl
termination_by weight v

theorem errorOf_collectSlots (parent start : Nat) (v : Value) (above : List (Value × Nat)) (j : Nat)
    (items : List Value) :
    errorOf (collectSlots parent start items) =
      search Value.shapeDefect? (((v.sitesIn above j items).map Site.object).zipIdx start) := by
  cases items with
  | nil =>
    rw [collectSlots, Value.sitesIn]
    rfl
  | cons item rest =>
    have hitem : weight item < weightOfItems (item :: rest) := by
      rw [weightOfItems]
      omega
    have hbound : weightOfItems rest < weightOfItems (item :: rest) := by
      rw [weightOfItems]
      omega
    by_cases hnull : item = .null
    · rw [hnull, collectSlots_null, errorOf_map, Value.null, Value.sitesIn]
      exact errorOf_collectSlots parent start v above (j + 1) rest
    · rw [collectSlots_cons hnull, Value.sitesIn, List.map_append, List.zipIdx_append,
        search_append, ← errorOf_collect (some parent) start ((v, j) :: above) item]
      · refine errorOf_bind fun first hfirst => ?_
        have hlength : ((item.sites ((v, j) :: above)).map Site.object).length = first.length := by
          rw [← objects_collect _ hfirst, List.length_map]
        rw [hlength, ← errorOf_collectSlots parent (start + first.length) v above (j + 1) rest]
        cases collectSlots parent (start + first.length) rest <;> rfl
      · exact hnull
termination_by weightOfItems items

end

/-- What is reported of a document is what the searches find first. -/
theorem errorOf_flatten (root : Value) : errorOf (flatten root) = reported? (root.sites []) := by
  have hwalk : walk #[] [⟨root, none⟩] = (collect none 0 root).map List.toArray := by
    rw [walk_pending]
    show collect none 0 root >>= _ = _
    cases collect none 0 root with
    | error fault => rfl
    | ok drafts =>
      show walk _ [] = _
      rw [walk]
      simp [note, Except.map]
  rw [reported?, ← errorOf_collect none, ← errorOf_map (collect none 0 root) List.toArray, ← hwalk]
  refine errorOf_bind fun made hmade => ?_
  rw [hwalk] at hmade
  obtain ⟨drafts, hdrafts, rfl⟩ := map_eq_ok.mp hmade
  have hlabels : errorOf (pass readLabel 0 drafts) =
      search Value.labelDefect? (drafts.map Draft.object).zipIdx :=
    errorOf_pass errorOf_readLabel 0 drafts
  rw [← objects_collect [] hdrafts, ← hlabels]
  refine errorOf_bind fun nodes hnodes => ?_
  obtain rfl := labels_of_pass hnodes
  have hobjects : (drafts.map label).map (fun n => Value.object n.fields) =
      drafts.map Draft.object := List.map_map
  rw [← hobjects, ← errorOf_readSources]
  refine errorOf_bind fun sources hsources => ?_
  have hzip : ((drafts.map label).zip sources).map (fun n => Value.object n.1.fields) =
      (drafts.map label).map fun n => Value.object n.fields := by
    have hfirst := List.map_fst_zip (Nat.le_of_eq (length_readSources hsources).symm)
    nth_rewrite 2 [← hfirst]
    rw [List.map_map]
    rfl
  rw [← hzip, ← errorOf_pass errorOf_readNode]
  cases pass readNode 0 ((drafts.map label).zip sources) <;> rfl

end Branch

/-! ## Documents without a fault -/

namespace Value

/-- No pass finds a fault in the object. -/
def Faultless (v : Value) : Prop :=
  v.shapeDefect? = none ∧ v.labelDefect? = none ∧ v.sourceDefect? = none ∧ v.placeDefect? = none

theorem isList_iff {v : Value} : v.isList = true ↔ ∃ items, v = .list items := by
  cases v <;> simp [isList]

theorem isScalar_iff {v : Value} : v.isScalar = true ↔ ∃ s, v = .scalar s := by
  cases v <;> simp [isScalar]

theorem isTextOrNull_iff {v : Value} : v.isTextOrNull = true ↔ v = .null ∨ ∃ s, v = .text s := by
  rcases v with (s | items | fields)
  · cases s <;> simp [isTextOrNull, null, text]
  · simp [isTextOrNull, null, text]
  · simp [isTextOrNull, null, text]

theorem isInt_iff {v : Value} : v.isInt = true ↔ ∃ n, v = .int n := by
  rcases v with (s | items | fields)
  · cases s <;> simp [isInt, int]
  · simp [isInt, int]
  · simp [isInt, int]

theorem isTypeName_iff {v : Value} : v.isTypeName = true ↔ ∃ name, v = .text name ∧ name ≠ "" := by
  rcases v with (s | items | fields)
  · cases s <;> simp [isTypeName, text]
  · simp [isTypeName, text]
  · simp [isTypeName, text]

/-- A field that may be left out. -/
theorem field_all {p : Value → Bool} {P : Value → Prop} (h : ∀ {w}, p w = true ↔ P w) {v : Value}
    {name : String} : (v.field? name).all p = true ↔ ∀ w, v.field? name = some w → P w := by
  cases v.field? name with
  | none => simp
  | some w => simp [h]

theorem shapeDefect?_eq_none {v : Value} : v.shapeDefect? = none ↔
    (∃ fields, v = .object fields) ∧
      ∀ w, v.field? "children" = some w → ∃ items, w = .list items := by
  cases v with
  | object fields => simp [shapeDefect?, field_all isList_iff]
  | scalar s => simp [shapeDefect?]
  | list items => simp [shapeDefect?]

theorem labelDefect?_eq_none {v : Value} : v.labelDefect? = none ↔
    (∃ name, v.field? "type" = some (.text name) ∧ name ≠ "") ∧
      ∀ w, v.field? "value" = some w → ∃ s, w = .scalar s := by
  have htype : (v.field? "type").any isTypeName = true ↔
      ∃ name, v.field? "type" = some (.text name) ∧ name ≠ "" := by
    cases v.field? "type" with
    | none => simp
    | some w => simp [isTypeName_iff]
  have hvalue : ((v.field? "value").filter (!·.isScalar)) = none ↔
      ∀ w, v.field? "value" = some w → ∃ s, w = .scalar s := by
    simp [Option.filter_eq_none_iff, isScalar_iff]
  rw [labelDefect?, ← htype, ← hvalue]
  split
  · next h => simp [h]
  · next h => simp [h]

theorem sourceDefect?_eq_none {v : Value} : v.sourceDefect? = none ↔
    ∀ w, v.field? "source" = some w → w = .null ∨ ∃ s, w = .text s := by
  rw [sourceDefect?, ← field_all isTextOrNull_iff]
  split
  · next h => simp [h]
  · next h => simp [h]

theorem placeDefect?_eq_none {v : Value} : v.placeDefect? = none ↔
    (∀ w, v.field? "line" = some w → ∃ n, w = .int n) ∧
      ∀ w, v.field? "column" = some w → ∃ n, w = .int n := by
  rw [placeDefect?, ← field_all isInt_iff, ← field_all isInt_iff]
  split
  · next h => simp [h]
  · next h => simp [h]

theorem faultless_iff {v : Value} : v.Faultless ↔
    v.HasFields ∧ ∀ w, v.field? "children" = some w → ∃ items, w = .list items := by
  rw [Faultless, shapeDefect?_eq_none, labelDefect?_eq_none, sourceDefect?_eq_none,
    placeDefect?_eq_none]
  constructor
  · rintro ⟨⟨hobject, hchildren⟩, ⟨htype, hvalue⟩, hsource, hline, hcolumn⟩
    exact ⟨⟨hobject, htype, hvalue, hsource, hline, hcolumn⟩, hchildren⟩
  · rintro ⟨h, hchildren⟩
    exact ⟨⟨h.object, hchildren⟩, ⟨h.type, h.value⟩, h.source, h.line, h.column⟩

/-- One step down: an object is well formed if it is without fault and its entries are well formed. -/
theorem isNode_iff_items {v : Value} :
    v.IsNode ↔ v.Faultless ∧ ∀ item ∈ v.items, item ≠ .null → item.IsNode := by
  rw [faultless_iff]
  constructor
  · intro h
    cases h with
    | leaf h hchildren => simp [h, items, hchildren]
    | inner h hchildren hitems => simpa [h, items, hchildren] using hitems
  · rintro ⟨⟨h, hchildren⟩, hitems⟩
    cases hfield : v.field? "children" with
    | none => exact .leaf h hfield
    | some children =>
      obtain ⟨items, rfl⟩ := hchildren children hfield
      refine .inner h hfield fun item hitem => hitems item ?_
      rwa [Value.items, hfield]

mutual

/-- A value is well formed if all objects in it are without fault. -/
theorem isNode_iff (above : List (Value × Nat)) (v : Value) :
    v.IsNode ↔ ∀ s ∈ v.sites above, s.object.Faultless := by
  rw [isNode_iff_items, sites, List.forall_mem_cons, areNodes_iff v above 0]
termination_by sizeOf v
decreasing_by exact sizeOf_items_lt v

theorem areNodes_iff (v : Value) (above : List (Value × Nat)) (j : Nat) (items : List Value) :
    (∀ item ∈ items, item ≠ .null → item.IsNode) ↔
      ∀ s ∈ v.sitesIn above j items, s.object.Faultless := by
  cases items with
  | nil => simp [sitesIn]
  | cons item rest =>
    have hrest := areNodes_iff v above (j + 1) rest
    rw [List.forall_mem_cons, hrest]
    by_cases hnull : item = .null
    · rw [hnull, null, sitesIn]
      simp
    · rw [sitesIn, List.forall_mem_append, ← isNode_iff _ item]
      · simp [hnull]
      · exact hnull
termination_by sizeOf items

end

end Value

theorem Branch.search_eq_none {defect? : Value → Option Defect} {objects : List (Value × Nat)} :
    search defect? objects = none ↔ ∀ object ∈ objects.map Prod.fst, defect? object = none := by
  rw [search, List.findSome?_eq_none_iff, List.forall_mem_map]
  simp only [Option.map_eq_none_iff]

theorem Branch.reported?_eq_none {sites : List Site} :
    reported? sites = none ↔ ∀ s ∈ sites, s.object.Faultless := by
  simp only [reported?, Option.or_eq_none_iff, search_eq_none, List.map_reverse, List.mem_reverse,
    List.zipIdx_map_fst, List.forall_mem_map]
  constructor
  · rintro ⟨hshape, hlabel, hsource, hplace⟩ s hs
    exact ⟨hshape s hs, hlabel s hs, hsource s hs, hplace s hs⟩
  · intro h
    exact ⟨fun s hs => (h s hs).1, fun s hs => (h s hs).2.1, fun s hs => (h s hs).2.2.1,
      fun s hs => (h s hs).2.2.2⟩

/-! ## Documents -/

namespace SourceTree

/-- The nodes of a root can be numbered just where it is well formed. -/
theorem flatten_root_iff {root : Value} :
    (∃ nodes, Branch.flatten root = .ok nodes) ↔ root.IsNode := by
  rw [Value.isNode_iff [], ← Branch.reported?_eq_none, ← Branch.errorOf_flatten]
  cases Branch.flatten root with
  | ok nodes => simp [errorOf]
  | error fault => simp [errorOf]

theorem flatten_root_error {root : Value} {fault : Branch.Fault} :
    Branch.flatten root = .error fault ↔ Branch.reported? (root.sites []) = some fault := by
  rw [← Branch.errorOf_flatten]
  cases Branch.flatten root with
  | ok nodes => simp [errorOf]
  | error fault => simp [errorOf]

theorem ofValue_of_isDocument {v : Value} (h : v.IsDocument) : ∃ t, ofValue v = .ok t := by
  obtain ⟨fields, rfl⟩ := h.object
  obtain ⟨path, hpath, hfilled⟩ := h.path
  by_cases hroot : ((Value.object fields).field? "root").getD .null = .null
  · exact ⟨_, ofValue_of_no_root hpath hfilled hroot⟩
  · cases hgiven : (Value.object fields).field? "root" with
    | none =>
      rw [hgiven] at hroot
      exact absurd rfl hroot
    | some root =>
      rw [hgiven, Option.getD_some] at hroot
      have hnodes := flatten_root_iff.mpr ((h.root root hgiven).resolve_left hroot)
      exact ⟨_, (ofValue_of_root hpath hfilled hgiven hroot).1 hnodes⟩

theorem ofValue_of_refused {v : Value} {failure : Failure} (h : Refused v failure) :
    ofValue v = .error failure := by
  cases h with
  | document h =>
    cases v with
    | object fields => exact absurd rfl (h fields)
    | scalar s => rfl
    | list items => rfl
  | @path fields h =>
    simp only [Value.field?_object] at h
    simp only [ofValue]
    split
    · next path hpath =>
      rw [h path hpath]
      rfl
    · rfl
  | @node _ root path fault hpath hfilled hroot hnull hfault =>
    cases v with
    | scalar s => cases hpath
    | list items => cases hpath
    | object fields =>
      exact (ofValue_of_root hpath hfilled hroot hnull).2 fault (flatten_root_error.mpr hfault)

/-- There is a reason to refuse every value that is no document. -/
theorem isDocument_or_refused (v : Value) : v.IsDocument ∨ ∃ failure, Refused v failure := by
  cases v with
  | scalar s => exact .inr ⟨_, .document (by simp)⟩
  | list items => exact .inr ⟨_, .document (by simp)⟩
  | object fields =>
    by_cases hpath : ∃ path, (Value.object fields).field? "path" = some (.text path) ∧ path ≠ ""
    · obtain ⟨path, hgiven, hfilled⟩ := hpath
      by_cases hroot : ∀ root, (Value.object fields).field? "root" = some root →
          root = .null ∨ root.IsNode
      · exact .inl ⟨⟨fields, rfl⟩, ⟨path, hgiven, hfilled⟩, hroot⟩
      · simp only [not_forall, not_or] at hroot
        obtain ⟨root, hrooted, hnull, hnode⟩ := hroot
        cases hfault : Branch.reported? (root.sites []) with
        | none =>
          rw [Branch.reported?_eq_none, ← Value.isNode_iff] at hfault
          exact absurd hfault hnode
        | some fault => exact .inr ⟨_, .node hgiven hfilled hrooted hnull hfault⟩
    · refine .inr ⟨_, .path fun path hgiven => ?_⟩
      by_contra hfilled
      exact hpath ⟨path, hgiven, hfilled⟩

/-- A value is read as a tree just where it is the document of a file; otherwise it is refused for the
reason that the passes over it come to first. -/
theorem documents_judged (v : Value) :
    ((∃ t, ofValue v = .ok t) ↔ v.IsDocument) ∧
      ∀ failure, ofValue v = .error failure ↔ Refused v failure := by
  constructor
  · refine ⟨fun ⟨t, ht⟩ => ?_, ofValue_of_isDocument⟩
    rcases isDocument_or_refused v with hdocument | ⟨failure, hrefused⟩
    · exact hdocument
    · cases ht.symm.trans (ofValue_of_refused hrefused)
  · refine fun failure => ⟨fun herror => ?_, ofValue_of_refused⟩
    rcases isDocument_or_refused v with hdocument | ⟨failure', hrefused⟩
    · obtain ⟨t, ht⟩ := ofValue_of_isDocument hdocument
      cases ht.symm.trans herror
    · cases (ofValue_of_refused hrefused).symm.trans herror
      exact hrefused

end SourceTree
end Bulkhead
