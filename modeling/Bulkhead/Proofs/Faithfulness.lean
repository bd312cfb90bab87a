/-
The numbered nodes of a tree are the nested objects of its document, and nothing is lost.

`Faithful` collects what that means: one node for each object, in reading order; links up and down
that are those of the document; ranges of numbers for everything below a node; and the document's
structure got back from the nodes alone.  `faithful_of_ofValue` proves it of every accepted document
with a root.
-/
import Mathlib.Data.List.Nodup
import Mathlib.Logic.Relation
import Bulkhead.Proofs.Numbering

namespace Bulkhead

/-- The structure of a node object: what is left of it without its own text. -/
inductive Outline where
  | node (type : String) (value : Option String) (location : Location)
      (slots : List (Option Outline))

namespace Value

mutual

def outline (v : Value) : Outline :=
  .node v.typeText v.given v.location (outlinesIn v.items)
termination_by sizeOf v
decreasing_by exact sizeOf_items_lt v

def outlinesIn : List Value → List (Option Outline)
  | [] => []
  | .null :: rest => none :: outlinesIn rest
  | item :: rest => some (outline item) :: outlinesIn rest
termination_by items => sizeOf items

end

end Value

namespace SourceTree

/-- The first number is that of the node above the second. -/
def ParentOf (t : SourceTree) (p i : Nat) : Prop :=
  ∃ n, t.nodes[i]? = some n ∧ n.parent = some p

/-- The first number stands in the first slot of the second. -/
def FirstOf (t : SourceTree) (k i : Nat) : Prop :=
  ∃ n, t.nodes[i]? = some n ∧ n.slots[0]? = some (some k)

/-- The structure in a slot that holds a number or not. -/
def rebuildSlot (rebuild : Nat → Option Outline) : Option Nat → Option (Option Outline)
  | none => some none
  | some k => (rebuild k).map some

/-- The structure below a number, followed from slot to slot.  The bound limits the depth; the
number of nodes is enough. -/
def rebuild (t : SourceTree) : Nat → Nat → Option Outline
  | 0, _ => none
  | bound + 1, i =>
    match t.nodes[i]? with
    | none => none
    | some n =>
      (n.slots.mapM (rebuildSlot (t.rebuild bound))).map (.node n.kind.name n.value n.location)

/-- The nodes of a tree are the objects of the document's root. -/
structure Faithful (t : SourceTree) (root : Value) : Prop where
  /-- There are as many nodes as sites. -/
  size_eq : t.size = (root.sites []).length
  /-- Objects at different places are different sites. -/
  nodup : (root.sites []).Nodup
  /-- A node has its place in reading order for its number, and the fields of its object. -/
  fields : ∀ (i : Nat) (n : Node) (s : Site),
    t.nodes[i]? = some n → (root.sites [])[i]? = some s →
      n.index = i ∧ n.kind.name = s.object.typeText ∧ n.value = s.object.given ∧
        n.source = s.object.source ∧ n.location = s.object.location ∧
        n.slots.length = s.object.items.length
  /-- The root comes first and has nothing above it. -/
  first : (root.sites [])[0]? = some ⟨root, []⟩ ∧ ∃ n, t.nodes[0]? = some n ∧ n.parent = none
  /-- A slot holds the number of the object in that slot. -/
  slot_iff : ∀ (p : Nat) (n : Node) (s : Site) (j i : Nat),
    t.nodes[p]? = some n → (root.sites [])[p]? = some s →
      (n.slots[j]? = some (some i) ↔ ∃ c, s.child? j = some c ∧ (root.sites [])[i]? = some c)
  /-- A slot is empty where the document has null. -/
  null_iff : ∀ (p : Nat) (n : Node) (s : Site) (j : Nat),
    t.nodes[p]? = some n → (root.sites [])[p]? = some s →
      (n.slots[j]? = some none ↔ s.object.items[j]? = some .null)
  /-- The node in a slot has the greater number, and knows what is above it. -/
  parent_of_slot : ∀ (p : Nat) (n : Node) (j i : Nat),
    t.nodes[p]? = some n → n.slots[j]? = some (some i) → p < i ∧ t.ParentOf p i
  /-- Every number but that of the root stands in one slot of one node. -/
  slot_unique : ∀ i, 0 < i → i < t.size →
    ∃! place : Nat × Nat, ∃ n, t.nodes[place.1]? = some n ∧ n.slots[place.2]? = some (some i)
  /-- What is below a node has the numbers right after its own. -/
  below_iff : ∀ (p : Nat) (s : Site) (i : Nat), (root.sites [])[p]? = some s →
    (Relation.TransGen t.ParentOf p i ↔ p < i ∧ i < p + (s.object.sites s.above).length)
  /-- The structure of every object can be got back from the nodes. -/
  rebuild_eq : ∀ (p : Nat) (s : Site), (root.sites [])[p]? = some s →
    t.rebuild t.size p = some s.object.outline
  /-- Going up comes to an end. -/
  parents_end : WellFounded t.ParentOf
  /-- Going down by first slots comes to an end. -/
  firsts_end : WellFounded t.FirstOf

/-! ## Ranges -/

variable {t : SourceTree} {root : Value}

theorem parentOf_of_fills {p k stop : Nat} {b : Branch}
    (h : Branch.Fills t.nodes.toList (some p) k stop b) : t.ParentOf p k := by
  obtain ⟨n, hn, -, hparent, -⟩ := h.first
  exact ⟨n, by rw [getElem?_nodes, hn], hparent⟩

/-- All numbers of a branch but the first are below it. -/
theorem below_of_fills {parent : Option Nat} {p stop i : Nat} {b : Branch}
    (h : Branch.Fills t.nodes.toList parent p stop b) (hp : p < i) (hstop : i < stop) :
    Relation.TransGen t.ParentOf p i := by
  induction hsize : stop - p using Nat.strongRecOn generalizing parent p stop b with
  | ind size ih =>
    obtain ⟨n, -, -, -, -, -, -, -, hslots⟩ := h.first
    obtain ⟨j, k, last, c, -, -, hk, hlast, hpk, hle, hc⟩ := hslots.cover hp hstop
    have hparent := parentOf_of_fills hc
    rcases Nat.eq_or_lt_of_le hk with rfl | hlt
    · exact .single hparent
    · exact .head hparent (ih (last - k) (by omega) hc hlt hlast rfl)

/-- The slots of the nodes of a branch hold numbers of the branch. -/
theorem slot_in_fills {parent : Option Nat} {p stop m i j : Nat} {b : Branch} {n : Node}
    (h : Branch.Fills t.nodes.toList parent p stop b) (hp : p ≤ m) (hstop : m < stop)
    (hn : t.nodes.toList[m]? = some n) (hslot : n.slots[j]? = some (some i)) :
    p < i ∧ i < stop := by
  induction hsize : stop - p using Nat.strongRecOn generalizing parent p stop b with
  | ind size ih =>
    obtain ⟨n', hn', -, -, -, -, -, -, hslots⟩ := h.first
    rcases Nat.eq_or_lt_of_le hp with rfl | hlt
    · rw [hn] at hn'
      cases hn'
      obtain ⟨c, last, -, hle, hlast, hc⟩ := hslots.number hslot
      have := hc.lt
      omega
    · obtain ⟨_, k, last, c, -, -, hk, hlast, hpk, hle, hc⟩ := hslots.cover hlt hstop
      have := ih (last - k) (by omega) hc hk hlast rfl
      omega

section Numbered

variable (h : Numbers t.nodes.toList root)

include h

/-- The node above another has it in one of its slots. -/
theorem slot_of_parentOf {p i : Nat} (hparent : t.ParentOf p i) :
    p < i ∧ ∃ (n : Node) (j : Nat), t.nodes.toList[p]? = some n ∧ n.slots[j]? = some (some i) := by
  obtain ⟨n, hn, hn'⟩ := hparent
  rw [getElem?_nodes] at hn
  obtain ⟨s, -, hs⟩ := h.shows_of_lt (List.getElem?_eq_some_iff.mp hn).1
  obtain ⟨parent, stop, b, hplaced⟩ := h.placed hs
  obtain ⟨n₁, hn₁, -, hparent, -⟩ := hplaced.fills.first
  rw [hn] at hn₁
  cases hn₁
  rw [hn'] at hparent
  cases habove : s.above with
  | nil =>
    rw [(hplaced.top habove).1] at hparent
    cases hparent
  | cons around rest =>
    obtain ⟨m, n₂, hm, hlt, -, hn₂, hslot⟩ := hplaced.inside _ _ _ habove
    rw [hm] at hparent
    cases hparent
    exact ⟨hlt, n₂, _, hn₂, hslot⟩

theorem range_of_below {parent : Option Nat} {p stop i : Nat} {b : Branch}
    (hfills : Branch.Fills t.nodes.toList parent p stop b)
    (hbelow : Relation.TransGen t.ParentOf p i) : p < i ∧ i < stop := by
  induction hbelow with
  | single hparent =>
    obtain ⟨-, n, j, hn, hslot⟩ := slot_of_parentOf h hparent
    exact slot_in_fills hfills (Nat.le_refl p) hfills.lt hn hslot
  | tail _ hparent ih =>
    obtain ⟨-, n, j, hn, hslot⟩ := slot_of_parentOf h hparent
    exact slot_in_fills hfills (Nat.le_of_lt ih.1) ih.2 hn hslot

theorem below_iff {p i : Nat} {s : Site} (hs : Shows t.nodes.toList root p s) :
    Relation.TransGen t.ParentOf p i ↔ p < i ∧ i < p + (s.object.sites s.above).length := by
  obtain ⟨parent, stop, b, hplaced⟩ := h.placed hs
  have hlength := (showsAll_sites b hplaced.fills hplaced.read hs).length
  rw [hlength]
  constructor
  · exact range_of_below h hplaced.fills
  · exact fun hi => below_of_fills hplaced.fills hi.1 hi.2

end Numbered

/-! ## The structure of the document -/

theorem mapM_rebuild {bound m start stop : Nat} {numbers : List (Option Nat)}
    {slots : List (Option Branch)} {items : List Value}
    (hfills : Branch.FillsSlots t.nodes.toList m start stop numbers slots)
    (hreads : List.Forall₂ Branch.SlotReads items slots)
    (hbelow : ∀ parent k last b v, start ≤ k → last ≤ stop →
      Branch.Fills t.nodes.toList parent k last b → Branch.ofValue v = b →
        t.rebuild bound k = some v.outline) :
    numbers.mapM (rebuildSlot (t.rebuild bound)) = some (Value.outlinesIn items) := by
  induction hreads generalizing start numbers with
  | nil =>
    rw [Branch.FillsSlots] at hfills
    rw [hfills.1, Value.outlinesIn]
    rfl
  | @cons item slot rest slots hslot _ ih =>
    cases hslot with
    | empty =>
      rw [Branch.FillsSlots] at hfills
      obtain ⟨others, rfl, hothers⟩ := hfills
      rw [List.mapM_cons, ih hothers hbelow]
      rw [Value.null, Value.outlinesIn]
      rfl
    | filled hnull hread =>
      rw [Branch.FillsSlots] at hfills
      obtain ⟨others, middle, rfl, hb, hothers⟩ := hfills
      have hlt := hb.lt
      have hle := hothers.le
      have hitem := hbelow _ start middle _ item (Nat.le_refl _) hle hb hread
      rw [List.mapM_cons, rebuildSlot, hitem,
        ih hothers (fun parent k last b v hk => hbelow parent k last b v (by omega)),
        Value.outlinesIn]
      · rfl
      · exact hnull

/-- Following the slots from a number gives the structure of the object that was read there. -/
theorem rebuild_of_fills {bound : Nat} {parent : Option Nat} {i stop : Nat} {b : Branch} {v : Value}
    (hfills : Branch.Fills t.nodes.toList parent i stop b) (hread : Branch.ofValue v = b)
    (hbound : stop - i ≤ bound) : t.rebuild bound i = some v.outline := by
  induction bound generalizing parent i stop b v with
  | zero =>
    have := hfills.lt
    omega
  | succ bound ih =>
    obtain ⟨n, hn, -, -, hkind, hvalue, -, hlocation, hslots⟩ := hfills.first
    have hreads := Branch.reads_of_ofValue hread
    have hbelow := mapM_rebuild hslots hreads.slots
      (fun parent k last b v hk hlast hb hv => ih hb hv (by omega))
    rw [rebuild, getElem?_nodes, hn]
    simp only [hbelow, Option.map_some]
    rw [Value.outline, hkind, hvalue, hlocation, hreads.kind, hreads.value, hreads.location,
      Value.kind, Kind.name_ofName]

/-! ## The theorem -/

section Numbered

variable (h : Numbers t.nodes.toList root)

include h

theorem slot_iff {p i j : Nat} {n : Node} {s : Site} (hs : Shows t.nodes.toList root p s)
    (hn : t.nodes.toList[p]? = some n) :
    n.slots[j]? = some (some i) ↔
      ∃ c, s.child? j = some c ∧ Shows t.nodes.toList root i c := by
  obtain ⟨parent, stop, b, hplaced⟩ := h.placed hs
  rcases Numbers.placed_slot hplaced hs hn j with
    ⟨c, k, last, bc, hc, hk, -⟩ | ⟨hc, -, hk⟩ | ⟨hc, -, hk⟩
  · rw [hc, hk]
    constructor
    · intro hi
      cases hi
      exact ⟨c, rfl, .child hs hn hk hc⟩
    · rintro ⟨c', hc', hshows⟩
      cases hc'
      rw [Numbers.index_unique (.child hs hn hk hc) hshows]
  · simp [hc, hk]
  · simp [hc, hk]

theorem null_iff {p j : Nat} {n : Node} {s : Site} (hs : Shows t.nodes.toList root p s)
    (hn : t.nodes.toList[p]? = some n) :
    n.slots[j]? = some none ↔ s.object.items[j]? = some .null := by
  obtain ⟨parent, stop, b, hplaced⟩ := h.placed hs
  rcases Numbers.placed_slot hplaced hs hn j with
    ⟨c, k, last, bc, hc, hk, -⟩ | ⟨-, hitem, hk⟩ | ⟨-, hitem, hk⟩
  · obtain ⟨hslot, -⟩ := Site.child?_eq_some.mp hc
    obtain ⟨hitem, hnull⟩ := Value.slot?_eq_some.mp hslot
    simp [hk, hitem, hnull]
  · simp [hk, hitem]
  · simp [hk, hitem]

theorem slot_unique {i : Nat} (hpos : 0 < i) (hi : i < t.nodes.toList.length) :
    ∃! place : Nat × Nat,
      ∃ n, t.nodes.toList[place.1]? = some n ∧ n.slots[place.2]? = some (some i) := by
  obtain ⟨s, -, hs⟩ := h.shows_of_lt hi
  obtain ⟨parent, stop, b, hplaced⟩ := h.placed hs
  cases habove : s.above with
  | nil =>
    have := (hplaced.top habove).2.1
    omega
  | cons around rest =>
    obtain ⟨p, j⟩ := around
    obtain ⟨m, n, -, -, hshows, hn, hslot⟩ := hplaced.inside p j rest habove
    refine ⟨(m, j), ⟨n, hn, hslot⟩, ?_⟩
    rintro ⟨m', j'⟩ ⟨n', hn', hslot'⟩
    obtain ⟨s', -, hshows'⟩ := h.shows_of_lt (List.getElem?_eq_some_iff.mp hn').1
    obtain ⟨c, hc, hci⟩ := (slot_iff h hshows hn).mp hslot
    obtain ⟨c', hc', hci'⟩ := (slot_iff h hshows' hn').mp hslot'
    cases h.site_unique hci hci'
    obtain ⟨-, habove⟩ := Site.child?_eq_some.mp hc
    obtain ⟨-, habove'⟩ := Site.child?_eq_some.mp hc'
    rw [habove] at habove'
    obtain ⟨object, above⟩ := s'
    cases habove'
    rw [Numbers.index_unique hshows hshows']

/-- The numbers in first slots grow, and there are only so many. -/
theorem firsts_end : WellFounded t.FirstOf := by
  refine Subrelation.wf (fun {k i} hfirst => ?_) (measure fun i => t.size - i).wf
  obtain ⟨n, hn, hslot⟩ := hfirst
  rw [getElem?_nodes] at hn
  obtain ⟨s, -, hs⟩ := h.shows_of_lt (List.getElem?_eq_some_iff.mp hn).1
  obtain ⟨hlt, n', hn', -⟩ := h.parent_of_slot hs hn hslot
  have hk : k < t.size := (List.getElem?_eq_some_iff.mp hn').1
  show t.size - k < t.size - i
  omega

end Numbered

/-- The nodes of an accepted document with a root are its nested objects, numbered in reading
order. -/
theorem faithful_of_ofValue {document root : Value} {t : SourceTree}
    (hdocument : ofValue document = .ok t) (hroot : document.field? "root" = some root)
    (hnull : root ≠ .null) : Faithful t root := by
  have h := numbers hdocument hroot hnull
  have hshows {i : Nat} {s : Site} (hs : (root.sites [])[i]? = some s) :
      Shows t.nodes.toList root i s := h.shows_iff.mpr hs
  exact {
    size_eq := by rw [size, ← Array.length_toList, ← h.showsAll.length, Nat.zero_add]
    nodup := by
      rw [List.nodup_iff_getElem?_ne_getElem?]
      intro i k hik hk heq
      have hs := List.getElem?_eq_getElem hk
      have := Numbers.index_unique (hshows (heq.trans hs)) (hshows hs)
      omega
    fields := by
      intro i n s hn hs
      obtain ⟨hindex, hkind, hrest⟩ := h.fields (hshows hs) (getElem?_nodes t i ▸ hn)
      exact ⟨hindex, by rw [hkind, Value.kind, Kind.name_ofName], hrest⟩
    first := by
      obtain ⟨b, -, hfills⟩ := h.fills
      obtain ⟨n, hn, -, hparent, -⟩ := hfills.first
      exact ⟨h.shows_iff.mp .root, n, by rw [getElem?_nodes, hn], hparent⟩
    slot_iff := by
      intro p n s j i hn hs
      rw [getElem?_nodes] at hn
      rw [slot_iff h (hshows hs) hn]
      simp only [h.shows_iff]
    null_iff := by
      intro p n s j hn hs
      rw [getElem?_nodes] at hn
      exact null_iff h (hshows hs) hn
    parent_of_slot := by
      intro p n j i hn hslot
      rw [getElem?_nodes] at hn
      obtain ⟨s, -, hs⟩ := h.shows_of_lt (List.getElem?_eq_some_iff.mp hn).1
      obtain ⟨hlt, n', hn', hparent⟩ := h.parent_of_slot hs hn hslot
      exact ⟨hlt, n', by rw [getElem?_nodes, hn'], hparent⟩
    slot_unique := by
      intro i hpos hi
      simp only [getElem?_nodes]
      exact slot_unique h hpos hi
    below_iff := fun p s i hs => below_iff h (hshows hs)
    rebuild_eq := by
      intro p s hs
      obtain ⟨parent, stop, b, hplaced⟩ := h.placed (hshows hs)
      have hle : stop ≤ t.size := hplaced.le
      exact rebuild_of_fills hplaced.fills hplaced.read (by omega)
    parents_end := Subrelation.wf (fun hparent => (slot_of_parentOf h hparent).1) Nat.lt_wfRel.wf
    firsts_end := firsts_end h }

/-- A call without a receiver and with two equal arguments, which are two sites. -/
def twinCall : Value :=
  let argument : Value :=
    .record [("type", .text "const"), ("value", .text "Order"),
      ("children", .list [.record [("type", .text "cbase")]])]
  .record [("type", .text "send"), ("value", .text "swap"),
    ("children", .list [.null, argument, argument])]

def twinFile : Value :=
  .record [("path", .text "app/swap.rb"), ("root", twinCall)]

theorem faithful_twinFile : ∃ t, ofValue twinFile = .ok t ∧ Faithful t twinCall := by
  obtain ⟨t, ht⟩ : ∃ t, ofValue twinFile = .ok t := ok_of_isOk (by decide +kernel)
  exact ⟨t, ht, faithful_of_ofValue ht rfl nofun⟩

end SourceTree
end Bulkhead
