/-
The numbers of a source tree.

`Fills` says of a branch and a range of numbers that the nodes with these numbers are those of the
branch: the first number is its own, and the branches in its slots fill the rest, one after the
other, without a gap.  It is proved once of `Branch.layout`; all that is known of parents, slots and
ranges follows from it.

A node *shows* a site of the document when the same slots lead from the root to both.  `shows_iff`
says that the nodes in the order of their numbers show the sites in reading order.
-/
import Bulkhead.Proofs.NodeObject

namespace Bulkhead
namespace Branch

mutual

/-- The branch has the numbers from `start` on, up to but not including `stop`. -/
def Fills (nodes : List Node) (parent : Option Nat) (start stop : Nat) : Branch → Prop
  | .node kind value source location slots =>
    ∃ numbers, nodes[start]? = some ⟨start, kind, value, parent, numbers, source, location⟩ ∧
      FillsSlots nodes start (start + 1) stop numbers slots

/-- The branches in the slots have the numbers from `start` on; those in `numbers` are their own. -/
def FillsSlots (nodes : List Node) (parent start stop : Nat) (numbers : List (Option Nat)) :
    List (Option Branch) → Prop
  | [] => numbers = [] ∧ start = stop
  | none :: slots =>
    ∃ rest, numbers = none :: rest ∧ FillsSlots nodes parent start stop rest slots
  | some b :: slots =>
    ∃ rest middle, numbers = some start :: rest ∧ Fills nodes (some parent) start middle b ∧
      FillsSlots nodes parent middle stop rest slots

end

mutual

theorem fills_layout {nodes : List Node} (before after : List Node) (parent : Option Nat)
    (start : Nat) (b : Branch) (hstart : before.length = start)
    (hnodes : nodes = before ++ layout parent start b ++ after) :
    Fills nodes parent start (start + (layout parent start b).length) b := by
  cases b with
  | node kind value source location slots =>
    rw [layout] at hnodes ⊢
    simp only at hnodes ⊢
    rw [Fills]
    refine ⟨(layoutSlots start (start + 1) slots).1, ?_, ?_⟩
    · rw [hnodes, List.append_assoc, List.getElem?_append_right (by omega)]
      simp [hstart]
    · have hslots := fillsSlots_layout (before ++ [⟨start, kind, value, parent,
          (layoutSlots start (start + 1) slots).1, source, location⟩]) after start (start + 1) slots
        (by simp [hstart]) (show nodes = _ by simp [hnodes])
      simpa [Nat.add_assoc, Nat.add_comm 1] using hslots

theorem fillsSlots_layout {nodes : List Node} (before after : List Node) (parent start : Nat)
    (slots : List (Option Branch)) (hstart : before.length = start)
    (hnodes : nodes = before ++ (layoutSlots parent start slots).2 ++ after) :
    FillsSlots nodes parent start (start + (layoutSlots parent start slots).2.length)
      (layoutSlots parent start slots).1 slots := by
  cases slots with
  | nil => simp [layoutSlots, FillsSlots]
  | cons slot rest =>
    cases slot with
    | none =>
      simp only [layoutSlots] at hnodes ⊢
      rw [FillsSlots]
      exact ⟨_, rfl, fillsSlots_layout before after parent start rest hstart hnodes⟩
    | some b =>
      simp only [layoutSlots] at hnodes ⊢
      rw [FillsSlots]
      refine ⟨_, start + (layout (some parent) start b).length, rfl, ?_, ?_⟩
      · exact fills_layout before (_ ++ after) (some parent) start b hstart
          (by rw [hnodes]; simp only [List.append_assoc]; rfl)
      · have hrest := fillsSlots_layout (before ++ layout (some parent) start b) after parent
          (start + (layout (some parent) start b).length) rest (by simp [hstart])
          (show nodes = _ by rw [hnodes]; simp only [List.append_assoc])
        simpa [Nat.add_assoc] using hrest

end

/-! ## What a range of numbers holds -/

variable {nodes : List Node} {start stop : Nat}

/-- The first number of a branch is its own. -/
theorem Fills.first {parent : Option Nat} {b : Branch} (h : Fills nodes parent start stop b) :
    ∃ n, nodes[start]? = some n ∧ n.index = start ∧ n.parent = parent ∧ n.kind = b.kind ∧
      n.value = b.value ∧ n.source = b.source ∧ n.location = b.location ∧
      FillsSlots nodes start (start + 1) stop n.slots b.slots := by
  cases b with
  | node kind value source location slots =>
    rw [Fills] at h
    obtain ⟨numbers, hget, hslots⟩ := h
    exact ⟨_, hget, rfl, rfl, rfl, rfl, rfl, rfl, hslots⟩

mutual

theorem Fills.lt {parent : Option Nat} {start stop : Nat} {b : Branch}
    (h : Fills nodes parent start stop b) : start < stop := by
  cases b with
  | node kind value source location slots =>
    rw [Fills] at h
    obtain ⟨numbers, -, hslots⟩ := h
    have := FillsSlots.le hslots
    omega

theorem FillsSlots.le {parent start stop : Nat} {numbers : List (Option Nat)}
    {slots : List (Option Branch)} (h : FillsSlots nodes parent start stop numbers slots) :
    start ≤ stop := by
  cases slots with
  | nil =>
    rw [FillsSlots] at h
    exact Nat.le_of_eq h.2
  | cons slot rest =>
    cases slot with
    | none =>
      rw [FillsSlots] at h
      obtain ⟨_, -, hrest⟩ := h
      exact hrest.le
    | some b =>
      rw [FillsSlots] at h
      obtain ⟨_, middle, -, hb, hrest⟩ := h
      have := hb.lt
      have := hrest.le
      omega

end

namespace FillsSlots

variable {parent : Nat} {numbers : List (Option Nat)} {slots : List (Option Branch)}

/-- A slot holds a number if and only if it holds a branch, and then the branch has its numbers from
there on. -/
theorem slot (h : FillsSlots nodes parent start stop numbers slots) (j : Nat) :
    (∃ b k last, slots[j]? = some (some b) ∧ numbers[j]? = some (some k) ∧ start ≤ k ∧
        last ≤ stop ∧ Fills nodes (some parent) k last b) ∨
      (slots[j]? = some none ∧ numbers[j]? = some none) ∨
      (slots[j]? = none ∧ numbers[j]? = none) := by
  induction slots generalizing start numbers j with
  | nil =>
    rw [FillsSlots] at h
    rw [h.1]
    exact .inr (.inr ⟨rfl, rfl⟩)
  | cons slot rest ih =>
    cases slot with
    | none =>
      rw [FillsSlots] at h
      obtain ⟨others, rfl, hrest⟩ := h
      cases j with
      | zero => exact .inr (.inl ⟨rfl, rfl⟩)
      | succ j => exact ih hrest j
    | some b =>
      rw [FillsSlots] at h
      obtain ⟨others, middle, rfl, hb, hrest⟩ := h
      have hlt := hb.lt
      have hle := hrest.le
      cases j with
      | zero => exact .inl ⟨b, start, middle, rfl, rfl, Nat.le_refl _, hle, hb⟩
      | succ j =>
        rcases ih hrest j with ⟨c, k, last, hslot, hnumber, hk, hlast, hc⟩ | hempty
        · exact .inl ⟨c, k, last, hslot, hnumber, by omega, hlast, hc⟩
        · exact .inr hempty

theorem length (h : FillsSlots nodes parent start stop numbers slots) :
    numbers.length = slots.length := by
  induction slots generalizing start numbers with
  | nil =>
    rw [FillsSlots] at h
    rw [h.1, List.length_nil, List.length_nil]
  | cons slot rest ih =>
    cases slot with
    | none =>
      rw [FillsSlots] at h
      obtain ⟨others, rfl, hrest⟩ := h
      rw [List.length_cons, List.length_cons, ih hrest]
    | some b =>
      rw [FillsSlots] at h
      obtain ⟨others, middle, rfl, -, hrest⟩ := h
      rw [List.length_cons, List.length_cons, ih hrest]

/-- The branch and the range behind a number in a slot. -/
theorem number {j k : Nat} (h : FillsSlots nodes parent start stop numbers slots)
    (hk : numbers[j]? = some (some k)) :
    ∃ b last, slots[j]? = some (some b) ∧ start ≤ k ∧ last ≤ stop ∧
      Fills nodes (some parent) k last b := by
  rcases h.slot j with ⟨b, k', last, hslot, hnumber, hle, hlast, hb⟩ | ⟨-, hnumber⟩ | ⟨-, hnumber⟩
  · rw [hk] at hnumber
    cases hnumber
    exact ⟨b, last, hslot, hle, hlast, hb⟩
  · rw [hk] at hnumber
    cases hnumber
  · rw [hk] at hnumber
    cases hnumber

/-- No number stands in two slots: the later slot has the greater number. -/
theorem number_inj {j j' k : Nat} (h : FillsSlots nodes parent start stop numbers slots)
    (hj : numbers[j]? = some (some k)) (hj' : numbers[j']? = some (some k)) : j = j' := by
  induction slots generalizing start numbers j j' with
  | nil =>
    rw [FillsSlots] at h
    rw [h.1] at hj
    cases hj
  | cons slot rest ih =>
    cases slot with
    | none =>
      rw [FillsSlots] at h
      obtain ⟨others, rfl, hrest⟩ := h
      cases j with
      | zero => cases hj
      | succ j =>
        cases j' with
        | zero => cases hj'
        | succ j' => rw [ih hrest hj hj']
    | some b =>
      rw [FillsSlots] at h
      obtain ⟨others, middle, rfl, hb, hrest⟩ := h
      have hlt := hb.lt
      cases j with
      | zero =>
        cases hj
        cases j' with
        | zero => rfl
        | succ j' =>
          obtain ⟨-, -, -, hle, -⟩ := hrest.number hj'
          omega
      | succ j =>
        cases j' with
        | zero =>
          cases hj'
          obtain ⟨-, -, -, hle, -⟩ := hrest.number hj
          omega
        | succ j' => rw [ih hrest hj hj']

/-- Every number of the range belongs to the branch in one of the slots. -/
theorem cover {i : Nat} (h : FillsSlots nodes parent start stop numbers slots)
    (hstart : start ≤ i) (hstop : i < stop) :
    ∃ (j k last : Nat) (b : Branch), numbers[j]? = some (some k) ∧ slots[j]? = some (some b) ∧
      k ≤ i ∧ i < last ∧ start ≤ k ∧ last ≤ stop ∧ Fills nodes (some parent) k last b := by
  induction slots generalizing start numbers with
  | nil =>
    rw [FillsSlots] at h
    omega
  | cons slot rest ih =>
    cases slot with
    | none =>
      rw [FillsSlots] at h
      obtain ⟨others, rfl, hrest⟩ := h
      obtain ⟨j, found⟩ := ih hrest hstart
      exact ⟨j + 1, found⟩
    | some b =>
      rw [FillsSlots] at h
      obtain ⟨others, middle, rfl, hb, hrest⟩ := h
      have hlt := hb.lt
      have hle := hrest.le
      by_cases hi : i < middle
      · exact ⟨0, start, middle, b, rfl, rfl, hstart, hi, Nat.le_refl _, hle, hb⟩
      · obtain ⟨j, k, last, c, hnumber, hslot, hk, hlast, hmiddle, hstop', hc⟩ :=
          ih hrest (by omega)
        exact ⟨j + 1, k, last, c, hnumber, hslot, hk, hlast, by omega, hstop', hc⟩

end FillsSlots

end Branch

/-! ## Sites

The same slots lead to a node and to the site that it shows, so a site can be shown by one node only
and a node can show one site only. -/

inductive Shows (nodes : List Node) (root : Value) : Nat → Site → Prop
  | root : Shows nodes root 0 ⟨root, []⟩
  | child {m i j : Nat} {n : Node} {s c : Site} (hs : Shows nodes root m s)
      (hn : nodes[m]? = some n) (hslot : n.slots[j]? = some (some i))
      (hchild : s.child? j = some c) : Shows nodes root i c

/-- The nodes are those of the document's root. -/
def Numbers (nodes : List Node) (root : Value) : Prop :=
  nodes = Branch.layout none 0 (Branch.ofValue root)

/-- What a node knows of its own number, of the node above it and of the numbers below it, given the
object that it shows. -/
structure Placed (nodes : List Node) (root : Value) (parent : Option Nat) (i stop : Nat)
    (s : Site) (b : Branch) : Prop where
  read : Branch.ofValue s.object = b
  fills : Branch.Fills nodes parent i stop b
  le : stop ≤ nodes.length
  top : s.above = [] → parent = none ∧ i = 0 ∧ s.object = root
  inside : ∀ p j rest, s.above = (p, j) :: rest → ∃ m n, parent = some m ∧ m < i ∧
    Shows nodes root m ⟨p, rest⟩ ∧ nodes[m]? = some n ∧ n.slots[j]? = some (some i)

namespace Numbers

variable {nodes : List Node} {root : Value}

theorem fills (h : Numbers nodes root) :
    ∃ b, Branch.ofValue root = b ∧ Branch.Fills nodes none 0 nodes.length b := by
  have hnodes : nodes = Branch.layout none 0 (Branch.ofValue root) := h
  refine ⟨_, rfl, ?_⟩
  have hfills := Branch.fills_layout [] [] none 0 (Branch.ofValue root) rfl
    (show nodes = _ by simpa using hnodes)
  rw [hnodes] at hfills ⊢
  simpa using hfills

/-- The slot of a placed node and the slot of the object it shows hold something or not alike. -/
theorem placed_slot {parent : Option Nat} {i stop : Nat} {s : Site} {b : Branch} {n : Node}
    (hplaced : Placed nodes root parent i stop s b) (hs : Shows nodes root i s)
    (hn : nodes[i]? = some n) (j : Nat) :
    (∃ c k last bc, s.child? j = some c ∧ n.slots[j]? = some (some k) ∧ i < k ∧ last ≤ stop ∧
        Placed nodes root (some i) k last c bc) ∨
      (s.child? j = none ∧ s.object.items[j]? = some .null ∧ n.slots[j]? = some none) ∨
      (s.child? j = none ∧ s.object.items[j]? = none ∧ n.slots[j]? = none) := by
  obtain ⟨n', hn', -, -, -, -, -, -, hfills⟩ := hplaced.fills.first
  rw [hn] at hn'
  cases hn'
  have hreads := (Branch.reads_of_ofValue hplaced.read).slots
  rcases Branch.slot_cases hreads j with
      ⟨item, bc, hitem, hnull, hslot, hread⟩ | ⟨hitem, hslot⟩ | ⟨hitem, hslot⟩ <;>
    rcases hfills.slot j with
      ⟨bc', k, last, hslot', hnumber, hle, hlast, hbc⟩ | ⟨hslot', hnumber⟩ | ⟨hslot', hnumber⟩ <;>
    rw [hslot] at hslot' <;> cases hslot'
  · have hc : s.child? j = some ⟨item, (s.object, j) :: s.above⟩ :=
      Site.child?_eq_some.mpr ⟨Value.slot?_eq_some.mpr ⟨hitem, hnull⟩, rfl⟩
    refine .inl ⟨_, k, last, bc, hc, hnumber, by omega, hlast, hread, hbc, ?_, ?_, ?_⟩
    · exact Nat.le_trans hlast hplaced.le
    · exact fun habove => by cases habove
    · intro p j' rest habove
      cases habove
      exact ⟨i, n, rfl, by omega, hs, hn, hnumber⟩
  · exact .inr (.inl ⟨by simp [Site.child?, Value.slot?, hitem], hitem, hnumber⟩)
  · exact .inr (.inr ⟨by simp [Site.child?, Value.slot?, hitem], hitem, hnumber⟩)

/-- Every node that shows a site is placed as the object of the site is. -/
theorem placed (h : Numbers nodes root) {i : Nat} {s : Site} (hs : Shows nodes root i s) :
    ∃ parent stop b, Placed nodes root parent i stop s b := by
  induction hs with
  | root =>
    obtain ⟨b, hread, hfills⟩ := h.fills
    exact ⟨none, nodes.length, b, hread, hfills, Nat.le_refl _, fun _ => ⟨rfl, rfl, rfl⟩,
      fun _ _ _ habove => by cases habove⟩
  | @child m i j n s c hs hn hslot hchild ih =>
    obtain ⟨parent, stop, b, hplaced⟩ := ih
    rcases placed_slot hplaced hs hn j with
      ⟨c', k, last, bc, hc', hk, -, -, hplaced'⟩ | ⟨hc', -⟩ | ⟨hc', -⟩ <;>
      rw [hchild] at hc' <;> cases hc'
    rw [hslot] at hk
    cases hk
    exact ⟨some m, last, bc, hplaced'⟩

/-- A node has the fields of the object that it shows. -/
theorem fields (h : Numbers nodes root) {i : Nat} {n : Node} {s : Site}
    (hs : Shows nodes root i s) (hn : nodes[i]? = some n) :
    n.index = i ∧ n.kind = s.object.kind ∧ n.value = s.object.given ∧
      n.source = s.object.source ∧ n.location = s.object.location ∧
      n.slots.length = s.object.items.length := by
  obtain ⟨parent, stop, b, hplaced⟩ := h.placed hs
  obtain ⟨n', hn', hindex, -, hkind, hvalue, hsource, hlocation, hslots⟩ := hplaced.fills.first
  rw [hn] at hn'
  cases hn'
  have hreads := Branch.reads_of_ofValue hplaced.read
  exact ⟨hindex, hkind.trans hreads.kind, hvalue.trans hreads.value,
    hsource.trans hreads.source, hlocation.trans hreads.location,
    hslots.length.trans hreads.slots.length_eq.symm⟩

/-- The number that a slot holds is greater than that of the node, which is above it. -/
theorem parent_of_slot (h : Numbers nodes root) {m i j : Nat} {n : Node} {s : Site}
    (hs : Shows nodes root m s) (hn : nodes[m]? = some n) (hslot : n.slots[j]? = some (some i)) :
    m < i ∧ ∃ n', nodes[i]? = some n' ∧ n'.parent = some m := by
  obtain ⟨parent, stop, b, hplaced⟩ := h.placed hs
  rcases placed_slot hplaced hs hn j with
    ⟨c, k, last, bc, -, hk, hlt, -, hplaced'⟩ | ⟨-, -, hk⟩ | ⟨-, -, hk⟩ <;>
    rw [hslot] at hk <;> cases hk
  obtain ⟨n', hn', -, hparent, -⟩ := hplaced'.fills.first
  exact ⟨hlt, n', hn', hparent⟩

/-- No number stands in two slots of a node. -/
theorem slot_inj (h : Numbers nodes root) {m i j j' : Nat} {n : Node} {s : Site}
    (hs : Shows nodes root m s) (hn : nodes[m]? = some n) (hj : n.slots[j]? = some (some i))
    (hj' : n.slots[j']? = some (some i)) : j = j' := by
  obtain ⟨_, _, _, hplaced⟩ := h.placed hs
  obtain ⟨n', hn', -, -, -, -, -, -, hfills⟩ := hplaced.fills.first
  rw [hn] at hn'
  cases hn'
  exact hfills.number_inj hj hj'

/-- Two nodes that show one site have one number. -/
theorem index_unique {i k : Nat} {s : Site} (hi : Shows nodes root i s)
    (hk : Shows nodes root k s) : i = k := by
  induction hi generalizing k with
  | root =>
    cases hk with
    | root => rfl
    | child _ _ _ hchild =>
      obtain ⟨-, habove⟩ := Site.child?_eq_some.mp hchild
      cases habove
  | @child m i j n s c hs hn hslot hchild ih =>
    obtain ⟨-, habove⟩ := Site.child?_eq_some.mp hchild
    cases hk with
    | root => cases habove
    | @child m' _ j' n' s' _ hs' hn' hslot' hchild' =>
      obtain ⟨-, habove'⟩ := Site.child?_eq_some.mp hchild'
      rw [habove] at habove'
      obtain ⟨object, above⟩ := s
      obtain ⟨object', above'⟩ := s'
      cases habove'
      cases ih hs'
      rw [hn] at hn'
      cases hn'
      rw [hslot] at hslot'
      cases hslot'
      rfl

/-- A node shows one site only. -/
theorem site_unique (h : Numbers nodes root) {i : Nat} {s c : Site} (hs : Shows nodes root i s)
    (hc : Shows nodes root i c) : s = c := by
  induction hs generalizing c with
  | root =>
    cases hc with
    | root => rfl
    | child hs' hn' hslot' _ =>
      have := (h.parent_of_slot hs' hn' hslot').1
      omega
  | @child m i j n s s₁ hs hn hslot hchild ih =>
    obtain ⟨hlt, n₁, hn₁, hparent⟩ := h.parent_of_slot hs hn hslot
    cases hc with
    | root => omega
    | @child m' _ j' n' s' _ hs' hn' hslot' hchild' =>
      obtain ⟨-, n₂, hn₂, hparent'⟩ := h.parent_of_slot hs' hn' hslot'
      rw [hn₁] at hn₂
      cases hn₂
      rw [hparent] at hparent'
      cases hparent'
      rw [hn] at hn'
      cases hn'
      cases ih hs'
      cases h.slot_inj hs hn hslot hslot'
      rw [hchild] at hchild'
      cases hchild'
      rfl

end Numbers

/-! ## Reading order -/

/-- The nodes from `start` on, up to `stop`, show the sites of the list in turn. -/
structure ShowsAll (nodes : List Node) (root : Value) (start stop : Nat) (sites : List Site) :
    Prop where
  length : start + sites.length = stop
  shows : ∀ k s, sites[k]? = some s → Shows nodes root (start + k) s

namespace ShowsAll

variable {nodes : List Node} {root : Value} {start middle stop : Nat}

theorem nil : ShowsAll nodes root start start [] :=
  ⟨rfl, fun _ _ hk => by cases hk⟩

theorem singleton {s : Site} (hs : Shows nodes root start s) :
    ShowsAll nodes root start (start + 1) [s] := by
  refine ⟨rfl, fun k s' hk => ?_⟩
  cases k with
  | zero =>
    cases hk
    exact hs
  | succ k => cases hk

theorem append {before after : List Site} (hbefore : ShowsAll nodes root start middle before)
    (hafter : ShowsAll nodes root middle stop after) :
    ShowsAll nodes root start stop (before ++ after) := by
  have hmiddle := hbefore.length
  refine ⟨?_, fun k s hk => ?_⟩
  · rw [List.length_append, ← Nat.add_assoc, hmiddle, hafter.length]
  · by_cases hlt : k < before.length
    · rw [List.getElem?_append_left hlt] at hk
      exact hbefore.shows k s hk
    · rw [List.getElem?_append_right (Nat.le_of_not_lt hlt)] at hk
      have hshows := hafter.shows _ s hk
      have hindex : middle + (k - before.length) = start + k := by omega
      rwa [hindex] at hshows

end ShowsAll

mutual

/-- The numbers of a branch go through the sites of its object in reading order. -/
theorem showsAll_sites {nodes : List Node} {root v : Value} {above : List (Value × Nat)}
    {parent : Option Nat} {start stop : Nat} (b : Branch)
    (hfills : Branch.Fills nodes parent start stop b) (hread : Branch.ofValue v = b)
    (hs : Shows nodes root start ⟨v, above⟩) :
    ShowsAll nodes root start stop (v.sites above) := by
  obtain ⟨n, hn, -, -, -, -, -, -, hslots⟩ := hfills.first
  have hreads := (Branch.reads_of_ofValue hread).slots
  cases b with
  | node kind value source location slots =>
    rw [Value.sites]
    refine ShowsAll.append (.singleton hs) ?_
    exact showsAll_sitesIn slots hs hn List.drop_zero.symm List.drop_zero.symm hslots hreads

theorem showsAll_sitesIn {nodes : List Node} {root v : Value} {above : List (Value × Nat)}
    {m j start stop : Nat} {n : Node} {numbers : List (Option Nat)} {items : List Value}
    (slots : List (Option Branch)) (hs : Shows nodes root m ⟨v, above⟩)
    (hn : nodes[m]? = some n) (hnumbers : numbers = n.slots.drop j) (hitems : items = v.items.drop j)
    (hfills : Branch.FillsSlots nodes m start stop numbers slots)
    (hreads : List.Forall₂ Branch.SlotReads items slots) :
    ShowsAll nodes root start stop (v.sitesIn above j items) := by
  cases slots with
  | nil =>
    cases hreads
    rw [Branch.FillsSlots] at hfills
    rw [Value.sitesIn, ← hfills.2]
    exact .nil
  | cons slot slots =>
    cases hreads with
    | @cons item _ rest _ hslot hrest =>
      have hitem : v.items[j]? = some item := by
        rw [← List.head?_drop, ← hitems]; rfl
      have hitems' : rest = v.items.drop (j + 1) := by
        rw [← List.tail_drop, ← hitems]; rfl
      cases slot with
      | none =>
        rw [Branch.FillsSlots] at hfills
        obtain ⟨others, rfl, hothers⟩ := hfills
        have hnumbers' : others = n.slots.drop (j + 1) := by
          rw [← List.tail_drop, ← hnumbers]; rfl
        cases hslot
        rw [show v.sitesIn above j (.null :: rest) = v.sitesIn above (j + 1) rest by
          rw [Value.null, Value.sitesIn]]
        exact showsAll_sitesIn slots hs hn hnumbers' hitems' hothers hrest
      | some b =>
        rw [Branch.FillsSlots] at hfills
        obtain ⟨others, middle, rfl, hb, hothers⟩ := hfills
        have hnumber : n.slots[j]? = some (some start) := by
          rw [← List.head?_drop, ← hnumbers]; rfl
        have hnumbers' : others = n.slots.drop (j + 1) := by
          rw [← List.tail_drop, ← hnumbers]; rfl
        cases hslot with
        | filled hnull hread =>
          have hchild : Site.child? ⟨v, above⟩ j = some ⟨item, (v, j) :: above⟩ :=
            Site.child?_eq_some.mpr ⟨Value.slot?_eq_some.mpr ⟨hitem, hnull⟩, rfl⟩
          rw [Value.sitesIn]
          · exact (showsAll_sites b hb hread (.child hs hn hnumber hchild)).append
              (showsAll_sitesIn slots hs hn hnumbers' hitems' hothers hrest)
          · exact hnull

end

namespace Numbers

variable {nodes : List Node} {root : Value}

theorem showsAll (h : Numbers nodes root) :
    ShowsAll nodes root 0 nodes.length (root.sites []) := by
  obtain ⟨b, hread, hfills⟩ := h.fills
  exact showsAll_sites b hfills hread .root

/-- Every number below the size shows the site at that place in reading order. -/
theorem shows_of_lt (h : Numbers nodes root) {i : Nat} (hi : i < nodes.length) :
    ∃ s, (root.sites [])[i]? = some s ∧ Shows nodes root i s := by
  have hlength := h.showsAll.length
  have hlt : i < (root.sites []).length := by omega
  refine ⟨(root.sites [])[i], List.getElem?_eq_getElem hlt, ?_⟩
  have hshows := h.showsAll.shows i _ (List.getElem?_eq_getElem hlt)
  rwa [Nat.zero_add] at hshows

theorem shows_iff (h : Numbers nodes root) {i : Nat} {s : Site} :
    Shows nodes root i s ↔ (root.sites [])[i]? = some s := by
  constructor
  · intro hs
    obtain ⟨_, _, _, hplaced⟩ := h.placed hs
    obtain ⟨n, hn, -⟩ := hplaced.fills.first
    obtain ⟨c, hc, hshows⟩ := h.shows_of_lt (List.getElem?_eq_some_iff.mp hn).1
    rw [hc, h.site_unique hs hshows]
  · intro hs
    have hshows := h.showsAll.shows i s hs
    rwa [Nat.zero_add] at hshows

end Numbers

/-! ## Documents -/

theorem Value.field?_object (fields : Fields) (name : String) :
    (Value.object fields).field? name = fields.get? name :=
  rfl

namespace SourceTree

/-- An accepted document names its file, and its root is left out or its nodes can be numbered. -/
theorem ofValue_eq_ok {document : Value} {t : SourceTree} (h : ofValue document = .ok t) :
    document.field? "path" = some (.text t.path) ∧
      ((t.root = none ∧ (document.field? "root").getD .null = .null) ∨
        ∃ root, document.field? "root" = some root ∧ root ≠ .null ∧
          Branch.flatten root = .ok t.nodes ∧ t.root = some (.ofValue root)) := by
  cases document with
  | scalar s => cases h
  | list items => cases h
  | object fields =>
    simp only [ofValue] at h
    simp only [Value.field?]
    split at h
    · next path hpath =>
      split at h
      · cases h
      · split at h
        · next hroot =>
          cases h
          exact ⟨hpath, .inl ⟨rfl, by rw [hroot]; rfl⟩⟩
        · next hroot =>
          cases h
          exact ⟨hpath, .inl ⟨rfl, by rw [hroot]; rfl⟩⟩
        · next root hnull hroot =>
          split at h
          · next nodes hnodes =>
            cases h
            exact ⟨hpath, .inr ⟨root, hroot, hnull, hnodes, rfl⟩⟩
          · cases h
    · cases h

/-- The nodes are given by the root. -/
theorem eq_of_root {t u : SourceTree} (hpath : t.path = u.path) (hroot : t.root = u.root) :
    t = u := by
  obtain ⟨path, root, nodes, hnodes⟩ := t
  obtain ⟨path', root', nodes', hnodes'⟩ := u
  cases hpath
  cases hroot
  cases hnodes
  cases hnodes'
  rfl

section Given

variable {fields : Fields} {path : String}
  (hpath : (Value.object fields).field? "path" = some (.text path)) (hfilled : path ≠ "")

include hpath hfilled

theorem ofValue_of_no_root (hroot : ((Value.object fields).field? "root").getD .null = .null) :
    ofValue (.object fields) = .ok { path, root := none } := by
  rw [Value.field?_object] at hpath hroot
  simp only [ofValue, hpath]
  rw [if_neg (by simpa using hfilled)]
  split
  · rfl
  · rfl
  · next root hnull hgiven =>
    rw [hgiven] at hroot
    exact absurd hroot hnull

theorem ofValue_of_root {root : Value} (hroot : (Value.object fields).field? "root" = some root)
    (hnull : root ≠ .null) :
    ((∃ nodes, Branch.flatten root = .ok nodes) →
        ofValue (.object fields) = .ok { path, root := some (.ofValue root) }) ∧
      ∀ fault, Branch.flatten root = .error fault →
        ofValue (.object fields) = .error (.node path fault) := by
  rw [Value.field?_object] at hpath hroot
  simp only [ofValue, hpath]
  rw [if_neg (by simpa using hfilled)]
  split
  · next hgiven => cases hroot.symm.trans hgiven
  · next hgiven => exact absurd (Option.some.inj (hroot.symm.trans hgiven)) hnull
  · next hgiven =>
    cases hroot.symm.trans hgiven
    split
    · next nodes hnodes =>
      constructor
      · intro _
        exact congrArg Except.ok (eq_of_root rfl rfl)
      · intro fault hfault
        cases hnodes.symm.trans hfault
    · next fault hfault =>
      constructor
      · rintro ⟨nodes, hnodes⟩
        cases hfault.symm.trans hnodes
      · intro fault' hfault'
        cases hfault.symm.trans hfault'
        rfl

end Given

theorem ofValue_record {path : String} {root : Value} (hfilled : path ≠ "") (hnull : root ≠ .null)
    (h : (Branch.flatten root).isOk = true) :
    ofValue (.record [("path", .text path), ("root", root)]) =
      .ok { path, root := some (.ofValue root) } :=
  (ofValue_of_root rfl hfilled rfl hnull).1 (ok_of_isOk h)

theorem toList_nodes (t : SourceTree) :
    t.nodes.toList = match t.root with
      | none => []
      | some b => Branch.layout none 0 b := by
  rw [t.nodes_eq]
  cases t.root <;> rfl

theorem getElem?_nodes (t : SourceTree) (i : Nat) : t.nodes[i]? = t.nodes.toList[i]? :=
  Array.getElem?_toList.symm

/-- The nodes of an accepted document are those of its root. -/
theorem numbers {document root : Value} {t : SourceTree} (h : ofValue document = .ok t)
    (hroot : document.field? "root" = some root) (hnull : root ≠ .null) :
    Numbers t.nodes.toList root := by
  obtain ⟨-, ⟨-, habsent⟩ | ⟨root', hroot', -, hnodes, -⟩⟩ := ofValue_eq_ok h
  · rw [hroot] at habsent
    exact absurd habsent hnull
  · rw [hroot] at hroot'
    cases hroot'
    rw [Numbers, Branch.flatten_eq_layout hnodes]
    rfl

end SourceTree
end Bulkhead
