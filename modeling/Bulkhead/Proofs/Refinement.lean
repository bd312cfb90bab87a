/-
Inspecting the numbered nodes of a tree finds what the recursion over its document finds.

A node stands for a site of the document when the same slots lead from the root to both.  Going up
from a node is going out from its site, going down is going in; so every test made by following
numbers is the test made on the nested objects.  `fresh_eq_nested` puts these together with the
rules that a session goes by.
-/
import Bulkhead.Proofs.NestedInspection
import Bulkhead.Proofs.Numbering

namespace Bulkhead
namespace SourceTree

structure Stands (t : SourceTree) (root : Value) (n : Node) (s : Site) : Prop where
  found : t.nodes.toList[n.index]? = some n
  shows : Shows t.nodes.toList root n.index s

variable {t : SourceTree} {root : Value}

/-- The node stands for the object at some place. -/
def Depicts (t : SourceTree) (root : Value) (n : Node) (v : Value) : Prop :=
  ∃ above, Stands t root n ⟨v, above⟩

/-- What a slot holds, and the entry of `children` for that slot. -/
inductive SlotStands (t : SourceTree) (root : Value) : Option Nat → Value → Prop
  | empty : SlotStands t root none .null
  | filled {m : Node} {v : Value} (hm : Depicts t root m v) : SlotStands t root (some m.index) v

theorem Stands.lt {n : Node} {s : Site} (hs : Stands t root n s) : n.index < t.size :=
  (List.getElem?_eq_some_iff.mp hs.found).1

section Numbered

variable (h : Numbers t.nodes.toList root)

include h

theorem stands_of_shows {i : Nat} {n : Node} {s : Site} (hn : t.nodes.toList[i]? = some n)
    (hs : Shows t.nodes.toList root i s) : Stands t root n s := by
  obtain ⟨hindex, -⟩ := h.fields hs hn
  exact ⟨by rw [hindex, hn], by rwa [hindex]⟩

theorem fields_of_stands {n : Node} {s : Site} (hs : Stands t root n s) :
    n.kind = s.object.kind ∧ n.value = s.object.given ∧ n.source = s.object.source ∧
      n.location = s.object.location ∧ n.slots.length = s.object.items.length :=
  (h.fields hs.shows hs.found).2

theorem kind_of_stands {n : Node} {s : Site} (hs : Stands t root n s) : n.kind = s.object.kind :=
  (fields_of_stands h hs).1

theorem value_of_stands {n : Node} {s : Site} (hs : Stands t root n s) :
    n.value = s.object.given :=
  (fields_of_stands h hs).2.1

/-! ## Going up and down -/

theorem parent?_of_top {n : Node} {v : Value} (hs : Stands t root n ⟨v, []⟩) :
    t.parent? n = none := by
  obtain ⟨parent, stop, b, hplaced⟩ := h.placed hs.shows
  obtain ⟨n', hn', -, hparent, -⟩ := hplaced.fills.first
  rw [hs.found] at hn'
  cases hn'
  rw [parent?, hparent, (hplaced.top rfl).1]
  rfl

theorem parent?_of_inside {n : Node} {v p : Value} {j : Nat} {rest : List (Value × Nat)}
    (hs : Stands t root n ⟨v, (p, j) :: rest⟩) :
    ∃ m, t.parent? n = some m ∧ Stands t root m ⟨p, rest⟩ ∧ m.index < n.index ∧
      m.slots[j]? = some (some n.index) := by
  obtain ⟨parent, stop, b, hplaced⟩ := h.placed hs.shows
  obtain ⟨n', hn', -, hparent, -⟩ := hplaced.fills.first
  rw [hs.found] at hn'
  cases hn'
  obtain ⟨i, m, hi, hlt, hshows, hm, hslot⟩ := hplaced.inside p j rest rfl
  obtain ⟨hindex, -⟩ := h.fields hshows hm
  refine ⟨m, ?_, stands_of_shows h hm hshows, by omega, hslot⟩
  rw [parent?, hparent, hi, Option.bind_some, getElem?_nodes, hm]

/-- A slot of a node and the slot of its site both lead on, or neither does. -/
theorem child?_of_stands {n : Node} {s : Site} (hs : Stands t root n s) (j : Nat) :
    (∃ m c, t.child? n j = some m ∧ s.child? j = some c ∧ Stands t root m c ∧
        n.index < m.index) ∨
      (t.child? n j = none ∧ s.child? j = none) := by
  obtain ⟨parent, stop, b, hplaced⟩ := h.placed hs.shows
  rcases Numbers.placed_slot hplaced hs.shows hs.found j with
    ⟨c, k, last, bc, hc, hk, hlt, -, hplaced'⟩ | ⟨hc, -, hk⟩ | ⟨hc, -, hk⟩
  · obtain ⟨m, hm, hindex, -⟩ := hplaced'.fills.first
    have hshows : Shows t.nodes.toList root k c := .child hs.shows hs.found hk hc
    refine .inl ⟨m, c, ?_, hc, stands_of_shows h hm hshows, by omega⟩
    rw [child?, hk, Option.join_some, Option.bind_some, getElem?_nodes, hm]
  · exact .inr ⟨by rw [child?, hk]; rfl, hc⟩
  · exact .inr ⟨by rw [child?, hk]; rfl, hc⟩

/-! ## Constants -/

theorem scopeNames_of_stands {bound : Nat} {n : Node} {s : Site} (hs : Stands t root n s)
    (hbound : t.size ≤ n.index + bound) :
    t.scopeNames bound (some n) = s.object.scopeNames := by
  -- Each step goes down, so the number grows while the bound shrinks.
  induction bound generalizing n s with
  | zero =>
    have := hs.lt
    omega
  | succ bound ih =>
    rw [scopeNames, Value.scopeNames_eq, kind_of_stands h hs, value_of_stands h hs]
    have hscope : t.scopeNames bound (t.child? n 0) =
        ((s.object.slot? 0).map Value.scopeNames).getD (some []) := by
      rcases child?_of_stands h hs 0 with ⟨m, c, hm, hc, hstands, hlt⟩ | ⟨hm, hc⟩
      · rw [hm, (Site.child?_eq_some.mp hc).1, ih hstands (by omega)]
        rfl
      · rw [hm, Option.map_eq_none_iff.mp hc]
        cases bound <;> rfl
    cases s.object.kind with
    | const => exact congrArg (Option.map _) hscope
    | _ => rfl

theorem constName_of_stands {n : Node} {s : Site} (hs : Stands t root n s) :
    t.constName n = s.object.constName := by
  have hbound : t.size ≤ n.index + (t.size + 1) := by omega
  rw [constName, Value.constName, kind_of_stands h hs, scopeNames_of_stands h hs hbound]

omit h in
theorem constChain_of_ne (bound : Nat) {n : Node} (hkind : n.kind ≠ .const) :
    t.constChain bound n = [] := by
  cases bound with
  | zero => rfl
  | succ bound => rw [constChain, if_neg hkind]

/-- The chain of constants above a node is that of the constants around its object. -/
theorem constChain_of_stands {bound : Nat} {n : Node} {v : Value} {above : List (Value × Nat)}
    (hs : Stands t root n ⟨v, above⟩) (hbound : n.index < bound) :
    (t.constChain bound n).map Node.source =
      ((v :: above.map Prod.fst).takeWhile fun v => v.kind == .const).map Value.source := by
  induction above generalizing bound n v with
  | nil =>
    by_cases hconst : v.kind = .const
    · obtain ⟨bound, rfl⟩ := Nat.exists_eq_succ_of_ne_zero (Nat.ne_zero_of_lt hbound)
      rw [constChain, if_pos ((kind_of_stands h hs).trans hconst), parent?_of_top h hs]
      simp [hconst, (fields_of_stands h hs).2.2.1]
    · rw [constChain_of_ne bound (kind_of_stands h hs ▸ hconst)]
      simp [hconst]
  | cons around rest ih =>
    obtain ⟨p, j⟩ := around
    by_cases hconst : v.kind = .const
    · obtain ⟨bound, rfl⟩ := Nat.exists_eq_succ_of_ne_zero (Nat.ne_zero_of_lt hbound)
      obtain ⟨m, hm, hstands, hlt, -⟩ := parent?_of_inside h hs
      rw [constChain, if_pos ((kind_of_stands h hs).trans hconst), hm]
      rw [List.takeWhile_cons, if_pos (beq_iff_eq.mpr hconst), List.map_cons]
      show n.source :: (t.constChain bound m).map Node.source = _
      rw [ih hstands (by omega), (fields_of_stands h hs).2.2.1]
      rfl
    · rw [constChain_of_ne bound (kind_of_stands h hs ▸ hconst)]
      simp [hconst]

theorem getLast?_constChain {bound : Nat} {n : Node} {v : Value} {above : List (Value × Nat)}
    (hs : Stands t root n ⟨v, above⟩) (hbound : n.index < bound) (hconst : v.kind = .const) :
    ∃ m, (t.constChain bound n).getLast? = some m ∧
      Stands t root m (Site.outermost v above) := by
  obtain ⟨bound, rfl⟩ := Nat.exists_eq_succ_of_ne_zero (Nat.ne_zero_of_lt hbound)
  induction above generalizing bound n v with
  | nil =>
    rw [constChain, if_pos ((kind_of_stands h hs).trans hconst), parent?_of_top h hs]
    exact ⟨n, rfl, hs⟩
  | cons around rest ih =>
    obtain ⟨p, j⟩ := around
    obtain ⟨m, hm, hstands, hlt, -⟩ := parent?_of_inside h hs
    rw [constChain, if_pos ((kind_of_stands h hs).trans hconst), hm, Site.outermost]
    show ∃ m', (n :: t.constChain bound m).getLast? = some m' ∧ _
    rw [List.getLast?_cons]
    by_cases hp : p.kind = .const
    · rw [if_pos hp]
      obtain ⟨bound, rfl⟩ := Nat.exists_eq_succ_of_ne_zero (show bound ≠ 0 by omega)
      obtain ⟨m', hm', hstands'⟩ := ih hstands hp bound (by omega)
      exact ⟨m', by rw [hm']; rfl, hstands'⟩
    · rw [if_neg hp, constChain_of_ne bound (kind_of_stands h hstands ▸ hp)]
      exact ⟨n, rfl, hs⟩

theorem outermost_of_stands {n : Node} {s : Site} (hs : Stands t root n s) :
    Stands t root (t.outermost n) (Site.outermost s.object s.above) := by
  obtain ⟨v, above⟩ := s
  cases above with
  | nil =>
    rw [outermost, parent?_of_top h hs]
    exact hs
  | cons around rest =>
    obtain ⟨p, j⟩ := around
    obtain ⟨m, hm, hstands, hlt, -⟩ := parent?_of_inside h hs
    rw [outermost, hm]
    show Stands t root ((t.constChain n.index m).getLast?.getD n) (Site.outermost v _)
    rw [Site.outermost]
    by_cases hp : p.kind = .const
    · obtain ⟨m', hm', hstands'⟩ := getLast?_constChain h hstands hlt hp
      rw [if_pos hp, hm']
      exact hstands'
    · rw [if_neg hp, constChain_of_ne _ (kind_of_stands h hstands ▸ hp)]
      exact hs

/-! ## Tests on constants -/

/-- The first slot holds a number exactly if it is the first slot that holds it. -/
theorem head?_slots_of_stands {m : Node} {s : Site} {i j : Nat} (hm : Stands t root m s)
    (hslot : m.slots[j]? = some (some i)) : (m.slots.head? == some (some i)) = (j == 0) := by
  rw [List.head?_eq_getElem?, Bool.eq_iff_iff, beq_iff_eq, beq_iff_eq]
  constructor
  · exact fun hfirst => h.slot_inj hm.shows hm.found hslot hfirst
  · rintro rfl
    exact hslot

theorem isReceiver_of_stands {n : Node} {s : Site} (hs : Stands t root n s) :
    Crossing.isReceiver t n = s.isReceiver := by
  obtain ⟨v, above⟩ := s
  cases above with
  | nil =>
    rw [Crossing.isReceiver, parent?_of_top h hs]
    rfl
  | cons around rest =>
    obtain ⟨p, j⟩ := around
    obtain ⟨m, hm, hstands, -, hslot⟩ := parent?_of_inside h hs
    rw [Crossing.isReceiver, hm]
    show (m.kind == .send && m.slots.head? == some (some n.index)) = _
    rw [head?_slots_of_stands h hstands hslot, kind_of_stands h hstands]
    cases j with
    | zero => exact Bool.and_true _
    | succ j => exact Bool.and_false _

theorem isDeclared_of_stands {n : Node} {s : Site} (hs : Stands t root n s) :
    Crossing.isDeclared t n = s.isDeclared := by
  have houter := outermost_of_stands h hs
  rw [Crossing.isDeclared, Site.isDeclared]
  generalize t.outermost n = outer at houter
  generalize Site.outermost s.object s.above = site at houter
  obtain ⟨v, above⟩ := site
  cases above with
  | nil => rw [parent?_of_top h houter]
  | cons around rest =>
    obtain ⟨p, j⟩ := around
    obtain ⟨m, hm, hstands, -, hslot⟩ := parent?_of_inside h houter
    rw [hm]
    show ((m.kind == .moduleDecl || m.kind == .classDecl) &&
      m.slots.head? == some (some outer.index)) = _
    rw [head?_slots_of_stands h hstands hslot, kind_of_stands h hstands]
    cases j with
    | zero => exact Bool.and_true _
    | succ j => exact Bool.and_false _

theorem isThroughApi_of_stands {n : Node} {s : Site} (hs : Stands t root n s) :
    Crossing.isThroughApi t n = s.isThroughApi := by
  obtain ⟨v, above⟩ := s
  cases above with
  | nil =>
    rw [Crossing.isThroughApi, parent?_of_top h hs]
    rfl
  | cons around rest =>
    obtain ⟨p, j⟩ := around
    obtain ⟨m, hm, hstands, -⟩ := parent?_of_inside h hs
    rw [Crossing.isThroughApi, hm]
    show (m.kind == .const && m.value == some Crossing.apiSegment) = _
    rw [kind_of_stands h hstands, value_of_stands h hstands]
    rfl

theorem lineage_of_stands {n : Node} {s : Site} (hs : Stands t root n s) :
    (t.lineage n Crossing.defaultDepth).map (fun n => Constant.bare n.source) =
      s.lineage.map fun v => Constant.bare v.source := by
  have hchain := congrArg (List.map Constant.bare)
    (constChain_of_stands h hs (Nat.lt_succ_self n.index))
  rw [List.map_map, List.map_map] at hchain
  rw [lineage, Site.lineage, List.map_take, List.map_take]
  exact congrArg (List.take 5) hchain

theorem constReference_of_stands {p : Protection} {engines : List String}
    {current : Option String} {n : Node} {s : Site} (hs : Stands t root n s)
    (hconst : s.object.kind = .const) :
    (Crossing.ofConst p engines t current Crossing.defaultDepth n).map Crossing.reference =
      s.constReference p engines current := by
  have hcandidate : Crossing.isCandidate t n = !(s.isDeclared || s.isReceiver) := by
    rw [Crossing.isCandidate, kind_of_stands h hs, hconst, isDeclared_of_stands h hs,
      isReceiver_of_stands h hs, Bool.not_or]
    rfl
  have hengine : Crossing.engineNamed p engines t current n =
      s.object.constName.bind (Site.engineOf p engines current) := by
    rw [Crossing.engineNamed, constName_of_stands h hs]
    cases s.object.constName <;> rfl
  rw [Crossing.ofConst, Site.constReference, hcandidate, hengine]
  cases s.isDeclared || s.isReceiver with
  | true => rfl
  | false =>
    cases s.object.constName.bind (Site.engineOf p engines current) with
    | none => rfl
    | some engine =>
      show some (Crossing.reference _) = some _
      rw [Crossing.reference, lineage_of_stands h hs, isThroughApi_of_stands h hs,
        constName_of_stands h (outermost_of_stands h hs), (fields_of_stands h hs).2.2.2.1]

/-! ## Associations -/

theorem slots_of_stands {n : Node} {s : Site} (hs : Stands t root n s) :
    List.Forall₂ (SlotStands t root) n.slots s.object.items := by
  rw [List.forall₂_iff_get]
  refine ⟨(fields_of_stands h hs).2.2.2.2, fun j hj hj' => ?_⟩
  obtain ⟨parent, stop, b, hplaced⟩ := h.placed hs.shows
  rcases Numbers.placed_slot hplaced hs.shows hs.found j with
    ⟨c, k, last, bc, hc, hk, -, -, hplaced'⟩ | ⟨-, hitem, hk⟩ | ⟨-, -, hk⟩
  · obtain ⟨m, hm, hindex, -⟩ := hplaced'.fills.first
    have hitem := (Value.slot?_eq_some.mp (Site.child?_eq_some.mp hc).1).1
    rw [List.get_eq_getElem, List.get_eq_getElem, (List.getElem?_eq_some_iff.mp hk).2,
      (List.getElem?_eq_some_iff.mp hitem).2, ← hindex]
    exact .filled ⟨c.above, stands_of_shows h hm (.child hs.shows hs.found hk hc)⟩
  · rw [List.get_eq_getElem, List.get_eq_getElem, (List.getElem?_eq_some_iff.mp hk).2,
      (List.getElem?_eq_some_iff.mp hitem).2]
    exact .empty
  · exact absurd (List.getElem?_eq_none_iff.mp hk) (Nat.not_le_of_lt hj)

/-- The first of some pairs gives the class name, or the search goes on with the rest. -/
theorem classNameIn_cons_of_stands {m : Node} {v : Value} (hm : Depicts t root m v)
    (rest : List Node) :
    (∃ c value, v.classNameOf = some c ∧ Crossing.classNameIn t (m :: rest) = some value ∧
        Depicts t root value c) ∨
      (v.classNameOf = none ∧
        Crossing.classNameIn t (m :: rest) = Crossing.classNameIn t rest) := by
  obtain ⟨above, hs⟩ := hm
  rw [Crossing.classNameIn, Value.classNameOf, kind_of_stands h hs]
  by_cases hpair : v.kind = .pair
  · rw [if_pos hpair, if_pos hpair]
    rcases child?_of_stands h hs 0 with ⟨key, ckey, hkey, hckey, hskey, -⟩ | ⟨hkey, hckey⟩
    · rcases child?_of_stands h hs 1 with ⟨val, cval, hval, hcval, hsval, -⟩ | ⟨hval, hcval⟩
      · rw [hkey, hval, (Site.child?_eq_some.mp hckey).1, (Site.child?_eq_some.mp hcval).1]
        simp only [kind_of_stands h hskey, value_of_stands h hskey]
        by_cases hname : ckey.object.kind = .sym ∧ ckey.object.given = some "class_name"
        · rw [if_pos hname, if_pos hname]
          exact .inl ⟨cval.object, val, rfl, rfl, cval.above, hsval⟩
        · rw [if_neg hname, if_neg hname]
          exact .inr ⟨rfl, rfl⟩
      · rw [hkey, hval, (Site.child?_eq_some.mp hckey).1, Option.map_eq_none_iff.mp hcval]
        exact .inr ⟨rfl, rfl⟩
    · rw [hkey, Option.map_eq_none_iff.mp hckey]
      exact .inr ⟨rfl, rfl⟩
  · rw [if_neg hpair, if_neg hpair]
    exact .inr ⟨rfl, rfl⟩

theorem classNameIn_of_slots {numbers : List (Option Nat)} {items : List Value}
    (hslots : List.Forall₂ (SlotStands t root) numbers items) :
    Option.Rel (Depicts t root)
      (Crossing.classNameIn t (numbers.filterMap fun number => number.bind (t.nodes[·]?)))
      (items.findSome? Value.classNameOf) := by
  induction hslots with
  | nil => exact .none
  | cons hslot _ ih =>
    cases hslot with
    | empty => exact ih
    | @filled m v hm =>
      have hget : (some m.index).bind (t.nodes[·]?) = some m := by
        obtain ⟨above, hs⟩ := hm
        rw [Option.bind_some, getElem?_nodes, hs.found]
      rw [List.filterMap_cons_some (f := fun number : Option Nat => number.bind (t.nodes[·]?)) hget,
        List.findSome?_cons]
      rcases classNameIn_cons_of_stands h hm _ with ⟨c, value, hc, hvalue, hdepicts⟩ | ⟨hc, hrest⟩
      · rw [hc, hvalue]
        exact .some hdepicts
      · rw [hc, hrest]
        exact ih

theorem filter_of_depicts {found : Option Node} {object : Option Value} (kind : Kind)
    (hfound : Option.Rel (Depicts t root) found object) :
    Option.Rel (Depicts t root) (found.filter fun m => m.kind == kind)
      (object.filter fun v => v.kind == kind) := by
  cases hfound with
  | none => exact .none
  | @some m v hm =>
    obtain ⟨above, hs⟩ := hm
    rw [Option.filter_some, Option.filter_some, kind_of_stands h hs]
    split
    · exact .some ⟨above, hs⟩
    · exact .none

theorem classNameNode_of_stands {n : Node} {s : Site} (hs : Stands t root n s) :
    Option.Rel (Depicts t root) (Crossing.classNameNode t n) s.object.classNameObject := by
  have hrelation : (Crossing.relation? n).isSome = s.object.isRelation := by
    rw [Crossing.relation?, Value.isRelation, kind_of_stands h hs, value_of_stands h hs]
    by_cases hsend : s.object.kind = .send
    · rw [if_pos hsend, Option.isSome_filter, beq_iff_eq.mpr hsend, Bool.true_and]
    · rw [if_neg hsend, beq_eq_false_iff_ne.mpr hsend, Bool.false_and, Option.isSome_none]
  rw [Crossing.classNameNode, Value.classNameObject, hrelation, (fields_of_stands h hs).2.2.2.2]
  split
  · rcases child?_of_stands h hs 1 with ⟨name, cname, hname, hcname, hsname, -⟩ | ⟨hname, hcname⟩
    · rcases child?_of_stands h hs 2 with
        ⟨options, coptions, hoptions, hcoptions, hsoptions, -⟩ | ⟨hoptions, hcoptions⟩
      · rw [hname, hoptions, (Site.child?_eq_some.mp hcname).1,
          (Site.child?_eq_some.mp hcoptions).1]
        simp only [kind_of_stands h hsname, kind_of_stands h hsoptions]
        split
        · exact filter_of_depicts h .str (classNameIn_of_slots h (slots_of_stands h hsoptions))
        · exact .none
      · rw [hname, hoptions, (Site.child?_eq_some.mp hcname).1,
          Option.map_eq_none_iff.mp hcoptions]
        exact .none
    · rw [hname, Option.map_eq_none_iff.mp hcname]
      exact .none
  · exact .none

theorem associationReference_of_stands {engines : List String} {n : Node} {s : Site}
    (hs : Stands t root n s) :
    (Crossing.ofAssociation engines t n).map Crossing.reference =
      s.object.classNameObject.bind (Site.classReference engines) := by
  have hfound := classNameNode_of_stands h hs
  rw [Crossing.ofAssociation, Crossing.associated?]
  generalize Crossing.classNameNode t n = found at hfound
  generalize s.object.classNameObject = object at hfound
  cases hfound with
  | none => rfl
  | @some m v hm =>
    obtain ⟨above, hm⟩ := hm
    have hvalue : m.value = v.given := value_of_stands h hm
    have hlocation : m.location = v.location := (fields_of_stands h hm).2.2.2.1
    rw [Option.bind_some, Site.classReference, ← hvalue, ← hlocation]
    dsimp only
    cases m.value with
    | none => rfl
    | some word =>
      dsimp only
      cases word.isEmpty with
      | true => rfl
      | false =>
        simp only [Bool.false_eq_true, if_false]
        cases Crossing.leadingEngine (Constant.bare word) with
        | none => rfl
        | some engine =>
          dsimp only
          cases engines.contains engine <;> rfl

/-! ## All references -/

theorem reference?_of_stands {r : Rules} {current : Option String} {n : Node} {s : Site}
    (hs : Stands t root n s) :
    r.referenceAt t current n = s.reference? r.protection r.engines current := by
  rw [Rules.referenceAt, Rules.crossingAt, Site.reference?, kind_of_stands h hs]
  cases hkind : s.object.kind with
  | const =>
    dsimp only
    rw [Option.map_map, ← constReference_of_stands h hs hkind]
    rfl
  | send =>
    dsimp only
    rw [Option.map_map, ← associationReference_of_stands h hs]
    rfl
  | _ => rfl

/-- The nodes stand for the sites in reading order. -/
theorem nodes_stand : List.Forall₂ (Stands t root) t.nodes.toList (root.sites []) := by
  have hlength := h.showsAll.length
  rw [List.forall₂_iff_get]
  refine ⟨by omega, fun i hi hi' => ?_⟩
  exact stands_of_shows h (List.getElem?_eq_getElem hi)
    (h.shows_iff.mpr (List.getElem?_eq_getElem hi'))

theorem references_eq (r : Rules) (current : Option String) :
    r.references t current =
      (root.sites []).filterMap (Site.reference? r.protection r.engines current) := by
  have hnodes := nodes_stand h
  rw [Rules.references]
  generalize t.nodes.toList = nodes at hnodes
  generalize root.sites [] = sites at hnodes
  induction hnodes with
  | nil => rfl
  | cons hs _ ih =>
    rw [List.filterMap_cons, List.filterMap_cons, reference?_of_stands h hs, ih]

end Numbered

/-- A session that has seen nothing yet reports of an accepted document what the recursion over the
nested objects collects. -/
theorem fresh_eq_nested {document : Value} {t : SourceTree} (settings : Settings)
    (directory : Option Path) (source : Persistence.Source) (trail : Option Audit.Trail)
    (fs : FileSystem) (hformats : Template.Formats settings.apiPath)
    (hdocument : ofValue document = .ok t) :
    Inspection.fresh settings directory source trail fs t =
      .ok (document.offenses (Protection.ofSettings settings directory) source fs) := by
  obtain ⟨hpath, hroot⟩ := ofValue_eq_ok hdocument
  have hpathText : document.pathText = t.path := by rw [Value.pathText, hpath]
  rw [fresh_of_formats hformats, Value.offenses, hpathText]
  rcases hroot with ⟨ht, habsent⟩ | ⟨root, hroot, hnull, -⟩
  · have hreferences (r : Rules) (current : Option String) : r.references t current = [] := by
      rw [Rules.references, toList_nodes, ht]
      rfl
    rw [hreferences]
    cases hfield : document.field? "root" with
    | none => rfl
    | some root =>
      rw [hfield] at habsent
      cases habsent
      rfl
  · rw [references_eq (numbers hdocument hroot hnull), List.filterMap_filterMap, hroot]
    split
    · next hnone => cases hnone
    · next hsome => exact absurd (Option.some.inj hsome) hnull
    · next hsome =>
      cases hsome
      rw [Value.gather_eq]
      rfl

/-- A file of one engine with an association to a model of another. -/
def orderFile : Value :=
  .record
    [("path", .text "engines/shop/app/models/order.rb"),
      ("root", .record
        [("type", .text "send"), ("value", .text "belongs_to"),
          ("children", .list
            [.null,
              .record [("type", .text "sym"), ("value", .text "invoice")],
              .record
                [("type", .text "hash"),
                  ("children", .list
                    [.record
                      [("type", .text "pair"),
                        ("children", .list
                          [.record [("type", .text "sym"), ("value", .text "class_name")],
                            .record
                              [("type", .text "str"), ("line", .int 3),
                                ("value", .text "::Billing::Invoice")]])]])]])])]

theorem fresh_orderFile :
    ∃ t, ofValue orderFile = .ok t ∧
      Inspection.fresh billingSettings none (Persistence.ofList []) none billingFiles t =
        .ok (orderFile.offenses (Protection.ofSettings billingSettings none)
          (Persistence.ofList []) billingFiles) := by
  obtain ⟨t, ht⟩ : ∃ t, ofValue orderFile = .ok t := ok_of_isOk (by decide +kernel)
  exact ⟨t, ht, fresh_eq_nested billingSettings none _ none billingFiles Template.formats_default ht⟩

end SourceTree
end Bulkhead
