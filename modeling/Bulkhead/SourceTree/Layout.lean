/-
The numbers that the walk gives are those of the layout.

`collect` goes through a value by recursion and makes the drafts that the walk makes with its stack.
`walk_pending` is the invariant of the walk as an equation: to walk a stack is to collect what is on
top and then to walk the rest.  Below a node it becomes `walk_push`, where the number of the node, its
draft somewhere among the others and the slots of it that are noted so far are kept apart.  What the
passes read from the drafts is then the layout of the branch: `flatten_eq_layout`.
-/
import Bulkhead.Outcome
import Bulkhead.SourceTree.Flatten

namespace Bulkhead
namespace Branch

mutual

/-- The drafts of a value that gets the number `start` and of all that is below it. -/
def collect (parent : Option Nat) (start : Nat) (v : Value) : Except Fault (List Draft) :=
  match _h : unpack v with
  | .error defect => .error ⟨start, defect⟩
  | .ok (fields, items) =>
    (collectSlots start (start + 1) items).map fun found => ⟨fields, parent, found.1⟩ :: found.2
termination_by weight v
decreasing_by exact weightOfItems_unpack _h

/-- The numbers in the slots of node `parent` and the drafts of what is below it, where `start` is the
first number that is free. -/
def collectSlots (parent start : Nat) :
    List Value → Except Fault (List (Option Nat) × List Draft)
  | [] => .ok ([], [])
  | .null :: rest => (collectSlots parent start rest).map fun found => (none :: found.1, found.2)
  | item :: rest => do
    let first ← collect (some parent) start item
    let found ← collectSlots parent (start + first.length) rest
    return (some start :: found.1, first ++ found.2)
termination_by items => weightOfItems items
decreasing_by
  all_goals
    rw [weightOfItems]
    omega

end

theorem collect_of_error {v : Value} {defect : Defect} (h : unpack v = .error defect)
    (parent : Option Nat) (start : Nat) : collect parent start v = .error ⟨start, defect⟩ := by
  rw [collect]
  split
  · next h' =>
    cases h.symm.trans h'
    rfl
  · next h' => cases h.symm.trans h'

theorem collect_of_ok {v : Value} {fields : Fields} {items : List Value}
    (h : unpack v = .ok (fields, items)) (parent : Option Nat) (start : Nat) :
    collect parent start v = (collectSlots start (start + 1) items).map fun found =>
      ⟨fields, parent, found.1⟩ :: found.2 := by
  rw [collect]
  split
  · next h' => cases h.symm.trans h'
  · next h' =>
    cases h.symm.trans h'
    rfl

theorem collectSlots_null (parent start : Nat) (rest : List Value) :
    collectSlots parent start (.null :: rest) =
      (collectSlots parent start rest).map fun found => (none :: found.1, found.2) := by
  rw [Value.null, collectSlots]

theorem collectSlots_cons {item : Value} (hnull : item ≠ .null) (parent start : Nat)
    (rest : List Value) :
    collectSlots parent start (item :: rest) =
      collect (some parent) start item >>= fun first =>
        collectSlots parent (start + first.length) rest >>= fun found =>
          .ok (some start :: found.1, first ++ found.2) := by
  rw [collectSlots]
  · rfl
  · exact hnull

/-! ## The walk -/

theorem push_null (number slot : Nat) (rest : List Value) (stack : List Pending) :
    push number slot (.null :: rest) stack = push number (slot + 1) rest stack := by
  rw [Value.null, push]

theorem push_cons {item : Value} (hnull : item ≠ .null) (number slot : Nat) (rest : List Value)
    (stack : List Pending) :
    push number slot (item :: rest) stack =
      ⟨item, some (number, slot)⟩ :: push number (slot + 1) rest stack := by
  rw [push]
  exact hnull

theorem walk_of_error {pending : Pending} {defect : Defect}
    (h : unpack pending.value = .error defect) (drafts : Array Draft) (stack : List Pending) :
    walk drafts (pending :: stack) = .error ⟨drafts.size, defect⟩ := by
  rw [walk]
  split
  · next h' =>
    cases h.symm.trans h'
    rfl
  · next h' => cases h.symm.trans h'

theorem walk_of_ok {pending : Pending} {fields : Fields} {items : List Value}
    (h : unpack pending.value = .ok (fields, items)) (drafts : Array Draft)
    (stack : List Pending) :
    walk drafts (pending :: stack) =
      walk ((note drafts drafts.size pending.place).push
          ⟨fields, pending.place.map Prod.fst, List.replicate items.length none⟩)
        (push drafts.size 0 items stack) := by
  rw [walk]
  split
  · next h' => cases h.symm.trans h'
  · next h' =>
    cases h.symm.trans h'
    rfl

theorem size_note (drafts : Array Draft) (number : Nat) (place : Option (Nat × Nat)) :
    (note drafts number place).size = drafts.size := by
  cases place with
  | none => rfl
  | some place => exact Array.size_modify

theorem modify_append_cons {α : Type} (before below : List α) (a : α) (f : α → α) :
    (before ++ a :: below).modify before.length f = before ++ f a :: below := by
  induction before with
  | nil => rfl
  | cons first before ih =>
    rw [List.cons_append, List.length_cons, List.modify_succ_cons, ih]
    rfl

/-- The next slot of a node is noted in its draft, wherever that stands. -/
theorem note_slot (before below : List Draft) (fields : Fields) (parent : Option Nat)
    (done rest : List (Option Nat)) (number : Nat) :
    note (before ++ ⟨fields, parent, done ++ none :: rest⟩ :: below).toArray number
        (some (before.length, done.length)) =
      (before ++ ⟨fields, parent, done ++ some number :: rest⟩ :: below).toArray := by
  rw [note, List.modify_toArray, modify_append_cons]
  congr 3
  simp

mutual

/-- To walk a stack is to collect what is on top and to walk the rest. -/
theorem walk_pending (v : Value) (place : Option (Nat × Nat)) (drafts : Array Draft)
    (stack : List Pending) :
    walk drafts (⟨v, place⟩ :: stack) =
      collect (place.map Prod.fst) drafts.size v >>= fun found =>
        walk (note drafts drafts.size place ++ found.toArray) stack := by
  cases h : unpack v with
  | error defect =>
    rw [walk_of_error h, collect_of_error h]
    rfl
  | ok unpacked =>
    obtain ⟨fields, items⟩ := unpacked
    have hsize := size_note drafts drafts.size place
    rw [walk_of_ok h, collect_of_ok h]
    dsimp only
    generalize note drafts drafts.size place = made at hsize
    obtain ⟨before⟩ := made
    have hslots := walk_push items before [] fields (place.map Prod.fst) [] stack
    rw [show before.length = drafts.size from hsize] at hslots
    rw [List.push_toArray]
    refine Eq.trans hslots ?_
    cases collectSlots drafts.size (drafts.size + 1) items with
    | error fault => rfl
    | ok found =>
      show walk _ stack = walk _ stack
      rw [List.append_toArray]
      rfl
termination_by weight v
decreasing_by exact weightOfItems_unpack h

/-- The same below a node, whose slots are noted up to those in `done`. -/
theorem walk_push (items : List Value) (before below : List Draft) (fields : Fields)
    (parent : Option Nat) (done : List (Option Nat)) (stack : List Pending) :
    walk (before ++ ⟨fields, parent, done ++ List.replicate items.length none⟩ :: below).toArray
        (push before.length done.length items stack) =
      collectSlots before.length (before.length + 1 + below.length) items >>= fun found =>
        walk (before ++ ⟨fields, parent, done ++ found.1⟩ :: (below ++ found.2)).toArray stack := by
  cases items with
  | nil =>
    rw [push, collectSlots]
    show walk _ stack = walk _ stack
    simp
  | cons item rest =>
    rw [List.length_cons, List.replicate_succ]
    by_cases hnull : item = .null
    · have hrest := walk_push rest before below fields parent (done ++ [none]) stack
      rw [List.length_append, List.length_singleton, List.append_assoc,
        List.singleton_append] at hrest
      rw [hnull, push_null, collectSlots_null, hrest]
      cases collectSlots before.length (before.length + 1 + below.length) rest with
      | error fault => rfl
      | ok found =>
        show walk _ stack = walk _ stack
        simp
    · have hsize : (before ++ ⟨fields, parent, done ++ none :: List.replicate rest.length none⟩ ::
          below).toArray.size = before.length + 1 + below.length := by
        simp
        omega
      rw [push_cons hnull, collectSlots_cons hnull, walk_pending item, hsize, note_slot,
        Option.map_some]
      cases collect (some before.length) (before.length + 1 + below.length) item with
      | error fault => rfl
      | ok first =>
        have hrest := walk_push rest before (below ++ first) fields parent
          (done ++ [some (before.length + 1 + below.length)]) stack
        rw [List.length_append, List.length_singleton, List.append_assoc,
          List.singleton_append, List.length_append, ← Nat.add_assoc] at hrest
        show walk (_ ++ first.toArray) _ = collectSlots _ _ rest >>= _ >>= _
        rw [List.append_toArray, List.append_assoc, List.cons_append]
        refine Eq.trans hrest ?_
        cases collectSlots before.length (before.length + 1 + below.length + first.length) rest with
        | error fault => rfl
        | ok found =>
          show walk _ stack = walk _ stack
          simp
termination_by weightOfItems items
decreasing_by all_goals rw [weightOfItems]; omega

end

/-! ## The passes -/

/-- The nodes of drafts, read without a check. -/
def readAll (number : Nat) : List Draft → List Node
  | [] => []
  | draft :: rest =>
    let v : Value := .object draft.fields
    let later := readAll (number + 1) rest
    { index := number
      kind := v.kind
      value := v.given
      parent := draft.parent
      slots := draft.slots
      source := sourceFrom (later.map Node.source) number { draft with kind := v.kind, value := v.given }
        v.ownSource
      location := v.location } :: later

theorem length_readAll (number : Nat) (drafts : List Draft) :
    (readAll number drafts).length = drafts.length := by
  induction drafts generalizing number with
  | nil => rfl
  | cons draft rest ih => rw [readAll, List.length_cons, List.length_cons, ih]

def label (draft : Draft) : Labelled :=
  let v : Value := .object draft.fields
  { draft with kind := v.kind, value := v.given }

theorem readKind_eq_ok {fields : Fields} {kind : Kind} (h : readKind fields = .ok kind) :
    kind = (Value.object fields).kind := by
  unfold readKind at h
  unfold Value.kind Value.typeText Value.field?
  split at h
  · next hget =>
    simp only [hget]
    split at h
    · cases h
    · cases h
      rfl
  · cases h

theorem readValue_eq_ok {fields : Fields} {value : Option String}
    (h : readValue fields = .ok value) : value = (Value.object fields).given := by
  unfold readValue at h
  unfold Value.given Value.field?
  split at h <;> simp_all

theorem readSource_eq_ok {fields : Fields} {source : Option String}
    (h : readSource fields = .ok source) : source = (Value.object fields).ownSource := by
  unfold readSource at h
  unfold Value.ownSource Value.field?
  split at h <;> simp_all

theorem readInt_eq_ok {fields : Fields} {name : String} {absent n : Int} {defect : Defect}
    (h : readInt fields name absent defect = .ok n) :
    n = (Value.object fields).integer name absent := by
  unfold readInt at h
  unfold Value.integer Value.field?
  split at h <;> simp_all

/-- A pass that goes through gives what each reading gives. -/
theorem pass_eq_ok {α β : Type} {read : Nat → α → Except Defect β} {number : Nat} {a : α}
    {rest : List α} {found : List β} (h : pass read number (a :: rest) = .ok found) :
    ∃ b later, read number a = .ok b ∧ pass read (number + 1) rest = .ok later ∧
      found = b :: later := by
  rw [pass] at h
  split at h
  · cases h
  · next b hb =>
    cases hrest : pass read (number + 1) rest with
    | error fault =>
      rw [hrest] at h
      cases h
    | ok later =>
      rw [hrest] at h
      cases h
      exact ⟨b, later, hb, rfl, rfl⟩

theorem label_of_readLabel {number : Nat} {draft : Draft} {n : Labelled}
    (h : readLabel number draft = .ok n) : n = label draft := by
  obtain ⟨kind, hkind, h⟩ := bind_eq_ok.mp h
  obtain ⟨value, hvalue, h⟩ := bind_eq_ok.mp h
  cases h
  rw [label, ← readKind_eq_ok hkind, ← readValue_eq_ok hvalue]

theorem labels_of_pass {number : Nat} {drafts : List Draft} {nodes : List Labelled}
    (h : pass readLabel number drafts = .ok nodes) : nodes = drafts.map label := by
  induction drafts generalizing number nodes with
  | nil =>
    cases h
    rfl
  | cons draft rest ih =>
    obtain ⟨n, later, hn, hlater, rfl⟩ := pass_eq_ok h
    rw [label_of_readLabel hn, ih hlater, List.map_cons]

theorem sources_of_readSources {number : Nat} {drafts : List Draft} {sources : List String}
    (h : readSources number (drafts.map label) = .ok sources) :
    sources = (readAll number drafts).map Node.source := by
  induction drafts generalizing number sources with
  | nil =>
    cases h
    rfl
  | cons draft rest ih =>
    rw [List.map_cons, readSources] at h
    split at h
    · cases h
    · next later hlater =>
      split at h
      · cases h
      · next own hown =>
        cases h
        rw [ih hlater, readSource_eq_ok hown]
        rfl

theorem node_of_readNode {number : Nat} {n : Labelled} {source : String} {node : Node}
    (h : readNode number (n, source) = .ok node) :
    node = { index := number, kind := n.kind, value := n.value, parent := n.parent,
             slots := n.slots, source, location := (Value.object n.fields).location } := by
  obtain ⟨line, hline, h⟩ := bind_eq_ok.mp h
  obtain ⟨column, hcolumn, h⟩ := bind_eq_ok.mp h
  cases h
  rw [Value.location, ← readInt_eq_ok hline, ← readInt_eq_ok hcolumn]

theorem nodes_of_pass {number : Nat} {drafts : List Draft} {nodes : List Node}
    (h : pass readNode number
      ((drafts.map label).zip ((readAll number drafts).map Node.source)) = .ok nodes) :
    nodes = readAll number drafts := by
  induction drafts generalizing number nodes with
  | nil =>
    cases h
    rfl
  | cons draft rest ih =>
    obtain ⟨n, later, hn, hlater, rfl⟩ := pass_eq_ok h
    rw [node_of_readNode hn, ih hlater]
    rfl

/-! ## The layout -/

theorem slotsOfFields_eq (fields : Fields) :
    slotsOfFields fields = slotsOfItems (Value.object fields).items := by
  rw [Value.items, Value.field?]
  induction fields with
  | nil => rfl
  | cons field rest ih =>
    obtain ⟨name, value⟩ := field
    by_cases hname : name = .text "children"
    · subst hname
      cases value <;> rfl
    · have hslots : slotsOfFields ((name, value) :: rest) = slotsOfFields rest := by
        cases value <;> rw [slotsOfFields.eq_def] <;> simp only [if_neg hname]
      have hget : Fields.get? "children" ((name, value) :: rest) =
          Fields.get? "children" rest := if_neg hname
      rw [hslots, hget, ih]

theorem ofValue_eq (v : Value) : ofValue v = assemble v (slotsOfItems v.items) := by
  cases v with
  | object fields => rw [ofValue, slotsOfFields_eq]
  | scalar s => rfl
  | list items => rfl

theorem slotsOfItems_null (rest : List Value) :
    slotsOfItems (.null :: rest) = none :: slotsOfItems rest := by
  rw [Value.null, slotsOfItems]

theorem slotsOfItems_cons {item : Value} (hnull : item ≠ .null) (rest : List Value) :
    slotsOfItems (item :: rest) = some (ofValue item) :: slotsOfItems rest := by
  rw [slotsOfItems]
  exact hnull

theorem unpack_eq_ok {v : Value} {fields : Fields} {items : List Value}
    (h : unpack v = .ok (fields, items)) : v = .object fields ∧ v.items = items := by
  unfold unpack at h
  split at h
  · rw [Value.items, Value.field?]
    split at h
    · next hget =>
      cases h
      rw [hget]
      exact ⟨rfl, rfl⟩
    · next hget =>
      cases h
      rw [hget]
      exact ⟨rfl, rfl⟩
    · cases h
  · cases h

/-- The text found under the number in the first slot is that of the branch in it. -/
theorem scope_layoutSlots (parent start : Nat) (slots : List (Option Branch)) (after : List Node) :
    ((layoutSlots parent start slots).1[0]?).join.map (fun scope =>
        ((((layoutSlots parent start slots).2 ++ after).map Node.source)[scope - start]?).getD "") =
      (slots[0]?).join.map source := by
  cases slots with
  | nil =>
    rw [layoutSlots]
    rfl
  | cons slot rest =>
    cases slot with
    | none =>
      rw [layoutSlots]
      rfl
    | some b =>
      obtain ⟨kind, value, source, location, slots⟩ := b
      rw [layoutSlots, layout]
      simp [Branch.source]

mutual

/-- What is read from collected drafts is the layout of the branch. -/
theorem readAll_collect {parent : Option Nat} {start : Nat} {v : Value} {drafts : List Draft}
    (h : collect parent start v = .ok drafts) (after : List Draft) :
    readAll start (drafts ++ after) =
      layout parent start (ofValue v) ++ readAll (start + drafts.length) after := by
  cases hunpack : unpack v with
  | error defect =>
    rw [collect_of_error hunpack] at h
    cases h
  | ok unpacked =>
    obtain ⟨fields, items⟩ := unpacked
    have hlt := weightOfItems_unpack hunpack
    rw [collect_of_ok hunpack] at h
    obtain ⟨found, hfound, rfl⟩ := map_eq_ok.mp h
    obtain ⟨hnumbers, hbelow⟩ := readAll_collectSlots hfound after
    obtain ⟨rfl, hitems⟩ := unpack_eq_ok hunpack
    have hsource : sourceFrom
          (((layoutSlots start (start + 1) (slotsOfItems items)).2 ++
            readAll (start + 1 + found.2.length) after).map Node.source) start
          { fields, parent, slots := found.1, kind := (Value.object fields).kind,
            value := (Value.object fields).given } (Value.object fields).ownSource =
        (assemble (.object fields) (slotsOfItems items)).source := by
      rw [sourceFrom, ← hnumbers, scope_layoutSlots]
      rfl
    rw [List.cons_append, readAll, hbelow, ofValue_eq, hitems]
    dsimp only
    rw [hsource, assemble, layout, ← hnumbers, List.length_cons, Nat.add_right_comm]
    rfl
termination_by weight v

theorem readAll_collectSlots {parent start : Nat} {items : List Value}
    {found : List (Option Nat) × List Draft} (h : collectSlots parent start items = .ok found)
    (after : List Draft) :
    (layoutSlots parent start (slotsOfItems items)).1 = found.1 ∧
      readAll start (found.2 ++ after) =
        (layoutSlots parent start (slotsOfItems items)).2 ++
          readAll (start + found.2.length) after := by
  cases items with
  | nil =>
    rw [collectSlots] at h
    cases h
    rw [slotsOfItems, layoutSlots]
    exact ⟨rfl, rfl⟩
  | cons item rest =>
    have hitem : weight item < weightOfItems (item :: rest) := by
      rw [weightOfItems]
      omega
    have hbound : weightOfItems rest < weightOfItems (item :: rest) := by
      rw [weightOfItems]
      omega
    by_cases hnull : item = .null
    · rw [hnull, collectSlots_null] at h
      obtain ⟨below, hbelow, rfl⟩ := map_eq_ok.mp h
      obtain ⟨hnumbers, hread⟩ := readAll_collectSlots hbelow after
      rw [hnull, slotsOfItems_null, layoutSlots]
      exact ⟨congrArg (none :: ·) hnumbers, hread⟩
    · rw [collectSlots_cons hnull] at h
      obtain ⟨first, hfirst, h⟩ := bind_eq_ok.mp h
      obtain ⟨below, hbelow, h⟩ := bind_eq_ok.mp h
      cases h
      have hread := readAll_collect hfirst (below.2 ++ after)
      have hlength : (layout (some parent) start (ofValue item)).length = first.length := by
        have hfirst := readAll_collect hfirst []
        rw [List.append_nil, readAll, List.append_nil] at hfirst
        rw [← hfirst, length_readAll]
      obtain ⟨hnumbers, hrest⟩ := readAll_collectSlots hbelow after
      rw [slotsOfItems_cons hnull, layoutSlots, hlength]
      refine ⟨congrArg (some start :: ·) hnumbers, ?_⟩
      rw [List.append_assoc, hread, hrest, List.append_assoc, List.length_append, Nat.add_assoc]
termination_by weightOfItems items


end

theorem flatten_eq_layout {root : Value} {nodes : Array Node} (h : flatten root = .ok nodes) :
    nodes = layoutRoot (some (ofValue root)) := by
  obtain ⟨made, hmade, h⟩ := bind_eq_ok.mp h
  obtain ⟨labels, hlabels, h⟩ := bind_eq_ok.mp h
  obtain ⟨sources, hsources, h⟩ := bind_eq_ok.mp h
  obtain ⟨found, hfound, h⟩ := bind_eq_ok.mp h
  cases h
  rw [walk_pending] at hmade
  obtain ⟨drafts, hdrafts, hmade⟩ := bind_eq_ok.mp hmade
  obtain rfl : drafts.toArray = made := by
    rw [walk] at hmade
    simpa [note] using hmade
  obtain rfl := labels_of_pass hlabels
  obtain rfl := sources_of_readSources hsources
  rw [nodes_of_pass hfound, layoutRoot]
  have hread := readAll_collect hdrafts []
  rw [List.append_nil, readAll, List.append_nil] at hread
  exact congrArg List.toArray hread

end Branch
end Bulkhead
