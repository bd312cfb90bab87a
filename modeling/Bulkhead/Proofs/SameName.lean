/-
A class name in an association and the constant of the same name.

The class name of an association is a text that is split at its separators; a constant is a chain of
nodes, read from the innermost one outwards, and the names that are compared with the lists come from
the texts of the nodes.  `association_like_constant` says that the two lead to the same engine, and
that the association is allowed only where the constant is: of all the names of the constant it brings
the last one only.
-/
import Bulkhead.Proofs.ConstantChains

namespace Bulkhead

/-! ## Verdicts on more names -/

namespace Session

/-- The verdict can be had, and it allows the reference. -/
def Allows (fs : FileSystem) (s : Session) (reach : Reach) (current : Option String)
    (file : String) : Prop :=
  ∃ v, ((judge fs reach current file).run.run s).1 = .ok v ∧ v.allowed = true

/-- The same engine, reached in the same way by more names. -/
structure Widens (reach wider : Reach) : Prop where
  engine : reach.engine = wider.engine
  throughApi : reach.throughApi = wider.throughApi
  lineage : reach.lineage ⊆ wider.lineage

variable {reach wider : Reach} {current : Option String}

theorem Widens.overridden {p : Protection} (h : Widens reach wider)
    (hoverridden : Overridden p reach current) : Overridden p wider current := by
  obtain ⟨name, hname, hlisted⟩ := hoverridden
  refine ⟨name, ?_, hlisted⟩
  rw [← h.engine]
  rcases List.mem_cons.mp hname with rfl | hname
  · exact List.mem_cons_self
  · exact List.mem_cons_of_mem _ (h.lineage hname)

theorem Widens.listed {a : PublicApi.Artifacts} {file : String} (h : Widens reach wider)
    (hlisted : Listed a reach file) : Listed a wider file := by
  rcases hlisted with hlegacy | hthrough | ⟨name, hname, hallowed⟩
  · exact .inl hlegacy
  · exact .inr (.inl (h.throughApi ▸ hthrough))
  · exact .inr (.inr ⟨name, h.lineage hname, hallowed⟩)

/-- More names are allowed wherever fewer are. -/
theorem Allows.widen {fs : FileSystem} {s : Session} {file : String} (hwidens : Widens reach wider)
    (h : Allows fs s reach current file) : Allows fs s wider current file := by
  obtain ⟨v, hverdict, hallowed⟩ := h
  have hstrong : StronglyProtected s.protection wider current ↔
      StronglyProtected s.protection reach current := by
    rw [StronglyProtected, StronglyProtected, hwidens.engine]
  cases hpolicy : Verdict.byPolicy s.protection reach current with
  | some v' =>
    rw [judge_of_some hpolicy] at hverdict
    obtain rfl : v' = v := Except.ok.inj hverdict
    -- what the policy allows for fewer names it allows for more
    have hlifted : current = some wider.engine ∨ Overridden s.protection wider current := by
      rw [← hwidens.engine]
      exact ((Verdict.allowed_of_byPolicy hpolicy).mp hallowed).imp_right hwidens.overridden
    cases hpolicy' : Verdict.byPolicy s.protection wider current with
    | some w => exact ⟨w, by rw [judge_of_some hpolicy'],
        (Verdict.allowed_of_byPolicy hpolicy').mpr hlifted⟩
    | none =>
      obtain ⟨hother, hplain, -⟩ := Verdict.byPolicy_eq_none.mp hpolicy'
      exact absurd hlifted (not_or.mpr ⟨hother, hplain⟩)
  | none =>
    obtain ⟨hother, -, hweak⟩ := Verdict.byPolicy_eq_none.mp hpolicy
    cases hpolicy' : Verdict.byPolicy s.protection wider current with
    | some w =>
      refine ⟨w, by rw [judge_of_some hpolicy'], (Verdict.allowed_of_byPolicy hpolicy').mpr ?_⟩
      rcases Verdict.decided_of_byPolicy hpolicy' with hsame | hoverridden | hstrong'
      · exact .inl hsame
      · exact .inr hoverridden
      · exact absurd (hstrong.mp hstrong') hweak
    | none =>
      rw [judge_of_none hpolicy] at hverdict
      obtain ⟨a, hfound, rfl⟩ := map_eq_ok.mp hverdict
      refine ⟨Verdict.byArtifacts a wider file, ?_, ?_⟩
      · rw [judge_of_none hpolicy', ← hwidens.engine]
        exact map_eq_ok.mpr ⟨a, hfound, rfl⟩
      · exact Verdict.allowed_byArtifacts.mpr
          (hwidens.listed (Verdict.allowed_byArtifacts.mp hallowed))

end Session

/-! ## Associations -/

namespace SourceTree

/-- The pair has the key `class_name` and the value. -/
structure NamesClass (t : SourceTree) (pair value : Node) : Prop where
  isPair : pair.kind = .pair
  key : ∃ key, t.child? pair 0 = some key ∧ key.kind = .sym ∧ key.value = some "class_name"
  holds : t.child? pair 1 = some value

/-- The call declares an association, and its options name the class by a literal: of the pairs that
name a class the first one has it. -/
structure Associates (t : SourceTree) (call literal : Node) : Prop where
  isCall : call.kind = .send
  method : ∃ method ∈ ["belongs_to", "has_one", "has_many"], call.value = some method
  slots : call.slots.length = 3
  name : ∃ name, t.child? call 1 = some name ∧ name.kind = .sym
  options : ∃ options before pair after, t.child? call 2 = some options ∧ options.kind = .hash ∧
    t.children options = before ++ pair :: after ∧ t.NamesClass pair literal ∧
    ∀ other ∈ before, ∀ value, ¬ t.NamesClass other value
  isText : literal.kind = .str

variable {t : SourceTree}

theorem classNameIn_of_names {pair value : Node} (h : t.NamesClass pair value)
    (after : List Node) : Crossing.classNameIn t (pair :: after) = some value := by
  obtain ⟨key, hkey, hkind, hname⟩ := h.key
  rw [Crossing.classNameIn, if_pos h.isPair, hkey, h.holds]
  exact if_pos ⟨hkind, hname⟩

theorem classNameIn_of_not {pair : Node} (h : ∀ value, ¬ t.NamesClass pair value)
    (after : List Node) :
    Crossing.classNameIn t (pair :: after) = Crossing.classNameIn t after := by
  rw [Crossing.classNameIn]
  split
  · next hpair =>
    split
    · next key value hkey hvalue =>
      split
      · next hname => exact absurd ⟨hpair, ⟨key, hkey, hname⟩, hvalue⟩ (h value)
      · rfl
    · rfl
  · rfl

theorem classNameIn_append {before : List Node}
    (h : ∀ other ∈ before, ∀ value, ¬ t.NamesClass other value) (after : List Node) :
    Crossing.classNameIn t (before ++ after) = Crossing.classNameIn t after := by
  induction before with
  | nil => rfl
  | cons pair before ih =>
    rw [List.cons_append, classNameIn_of_not (h pair List.mem_cons_self),
      ih fun other hother => h other (List.mem_cons_of_mem pair hother)]

theorem Associates.classNameNode {call literal : Node} (h : t.Associates call literal) :
    Crossing.classNameNode t call = some literal := by
  obtain ⟨method, hmethod, hvalue⟩ := h.method
  obtain ⟨name, hname, hsym⟩ := h.name
  obtain ⟨options, before, pair, after, hoptions, hhash, hchildren, hpair, hbefore⟩ := h.options
  have hrelation : (Crossing.relation? call).isSome = true := by
    rw [Crossing.relation?, if_pos h.isCall, hvalue, Option.isSome_filter, Option.any_some]
    exact List.contains_iff_mem.mpr hmethod
  rw [Crossing.classNameNode, if_pos ⟨hrelation, h.slots⟩, hname, hoptions]
  dsimp only
  rw [if_pos ⟨hsym, hhash⟩, hchildren, classNameIn_append hbefore, classNameIn_of_names hpair,
    Option.filter_some, h.isText]
  rfl

end SourceTree

theorem Constant.isWord_of_isSegment {word : String} (h : isSegment word.toList = true) :
    IsWord word where
  filled := by
    rintro rfl
    cases h
  plain := colon_notMem_of_isSegment h

/-- What an association reaches when its class name spells some words. -/
theorem Crossing.ofAssociation_of_spells (engines : List String) {t : SourceTree}
    {call literal : Node} {first text : String} {words : List String}
    (hcall : t.Associates call literal) (htext : literal.value = some text)
    (hspells : Constant.Spells (first :: words) text) :
    (ofAssociation engines t call).map Crossing.toReach =
      if engines.contains first then
        some ⟨first, [Constant.qualified (first :: words)], words.head? == some apiSegment⟩
      else none := by
  have hfirst := hspells.isWord first List.mem_cons_self
  have hsegments : Constant.segments (Constant.qualified (first :: words)) = first :: words :=
    Constant.segments_qualified hspells.filled fun word hword => (hspells.isWord word hword).plain
  have hfilled : ¬ text.isEmpty = true := by
    obtain ⟨front, c, hlast, -⟩ := hspells.last
    intro hempty
    rw [String.isEmpty_iff.mp hempty] at hlast
    exact List.append_ne_nil_of_right_ne_nil front (List.cons_ne_nil c []) hlast.symm
  have hengine : leadingEngine (Constant.qualified (first :: words)) = some first := by
    rw [leadingEngine, hsegments]
    exact if_neg (by simpa using hfirst.filled)
  have hnamed : associated? t call = some (literal, Constant.qualified (first :: words)) := by
    rw [associated?, hcall.classNameNode]
    dsimp only
    rw [htext]
    dsimp only
    rw [if_neg hfilled, hspells.bare]
  rw [ofAssociation, hnamed]
  dsimp only
  rw [hengine, hsegments]
  dsimp only
  split
  · rw [Option.map_some, List.getElem?_cons_succ, List.head?_eq_getElem?]
  · rfl

/-! ## Constants -/

namespace Value

/-- The object is a constant of the word and brings no text of its own. -/
structure IsLink (v : Value) (word : String) : Prop where
  isConst : v.kind = .const
  given : v.given = some word
  ownSource : v.ownSource = none

/-- The object is the constant that the words name, the first word innermost, perhaps at the top
level; nothing in it brings a text of its own. -/
inductive Names : List String → Value → Prop
  | first {v : Value} {word : String} (hv : v.IsLink word)
      (hscope : ∀ scope, v.slot? 0 = some scope → scope.kind = .cbase ∧ scope.ownSource = none) :
      Names [word] v
  | next {v scope : Value} {words : List String} {word : String} (hv : v.IsLink word)
      (hslot : v.slot? 0 = some scope) (hscope : Names words scope) : Names (words ++ [word]) v

theorem Names.isConst {words : List String} {v : Value} (h : Names words v) : v.kind = .const := by
  cases h with
  | first hv => exact hv.isConst
  | next hv => exact hv.isConst

theorem Names.ne_nil {words : List String} {v : Value} (h : Names words v) : words ≠ [] := by
  cases h with
  | first => exact List.cons_ne_nil _ _
  | next => exact List.append_ne_nil_of_right_ne_nil _ (List.cons_ne_nil _ _)

theorem Names.spells {words : List String} {v : Value} (h : Names words v)
    (hwords : ∀ word ∈ words, Constant.IsWord word) : Constant.Spells words v.source := by
  induction h with
  | @first v word hv hscope =>
    have hword := hwords word List.mem_cons_self
    rw [source_of_const hv.isConst hv.ownSource, hv.given, Option.getD_some]
    cases hslot : v.slot? 0 with
    | none => exact .of_word hword
    | some scope =>
      rw [Option.map_some, source_of_cbase (hscope scope hslot).1 (hscope scope hslot).2]
      exact .at_top hword
  | @next v scope words word hv hslot _ ih =>
    rw [source_of_const hv.isConst hv.ownSource, hv.given, Option.getD_some, hslot,
      Option.map_some]
    exact (ih fun word hword => hwords word (List.mem_append_left _ hword)).under
      (hwords _ (List.mem_append_right _ List.mem_cons_self))

end Value

namespace Site

/-- The constants of a chain from the inside out, by their words and the names that they add up to. -/
structure Climbs (chain : List Value) (words : List String) : Prop where
  isConst : ∀ v ∈ chain, v.kind = .const
  values : chain.map Value.given = words.map some
  texts : chain.map (fun v => Constant.bare v.source) =
    (List.range words.length).map fun i => Constant.qualified (words.take (i + 1))

theorem Climbs.append {chain : List Value} {words : List String} {v : Value} {word : String}
    (h : Climbs chain words) (hv : v.IsLink word)
    (htext : Constant.bare v.source = Constant.qualified (words ++ [word])) :
    Climbs (chain ++ [v]) (words ++ [word]) where
  isConst := by
    intro other hother
    rcases List.mem_append.mp hother with hother | hother
    · exact h.isConst other hother
    · rw [List.mem_singleton.mp hother]
      exact hv.isConst
  values := by
    rw [List.map_append, List.map_append, h.values, List.map_singleton, hv.given,
      List.map_singleton]
  texts := by
    have hinner : ∀ i ∈ List.range words.length, Constant.qualified (words.take (i + 1)) =
        Constant.qualified ((words ++ [word]).take (i + 1)) := by
      intro i hi
      rw [List.take_append_of_le_length (List.mem_range.mp hi)]
    rw [List.map_append, h.texts, List.map_congr_left hinner, List.length_append,
      List.length_singleton, List.range_succ, List.map_append, List.map_singleton,
      List.map_singleton, htext, List.take_of_length_le (by simp)]

/-- The object is no part of a constant, and neither the name of a declaration nor what a call is
sent to. -/
def IsFree (s : Site) : Prop :=
  ∀ p j rest, s.above = (p, j) :: rest →
    p.kind ≠ .const ∧ (j = 0 → p.kind ≠ .moduleDecl ∧ p.kind ≠ .classDecl ∧ p.kind ≠ .send)

theorem above_outermost {links above : List (Value × Nat)} {object v : Value}
    (hlinks : ∀ link ∈ links, link.1.kind = .const) (hfree : IsFree ⟨v, above⟩) :
    (outermost object (links ++ above)).above = above := by
  induction links generalizing object with
  | nil =>
    rw [List.nil_append]
    cases above with
    | nil => rfl
    | cons around rest =>
      obtain ⟨p, j⟩ := around
      rw [outermost, if_neg (hfree p j rest rfl).1]
  | cons link links ih =>
    obtain ⟨p, j⟩ := link
    rw [List.cons_append, outermost, if_pos (hlinks (p, j) List.mem_cons_self)]
    exact ih fun link hlink => hlinks link (List.mem_cons_of_mem _ hlink)

section Inner

variable {object v : Value} {links above : List (Value × Nat)} {words : List String}
  (hclimbs : Climbs (object :: links.map Prod.fst) words) (hfree : IsFree ⟨v, above⟩)

include hclimbs hfree

theorem isDeclared_of_climbs : isDeclared ⟨object, links ++ above⟩ = false := by
  have hlinks : ∀ link ∈ links, link.1.kind = .const := fun link hlink =>
    hclimbs.isConst _ (List.mem_cons_of_mem _ (List.mem_map_of_mem hlink))
  rw [isDeclared, above_outermost hlinks hfree]
  cases above with
  | nil => rfl
  | cons around rest =>
    obtain ⟨p, j⟩ := around
    cases j with
    | zero =>
      obtain ⟨hmodule, hclass, -⟩ := (hfree p 0 rest rfl).2 rfl
      show (p.kind == .moduleDecl || p.kind == .classDecl) = false
      rw [beq_false_of_ne hmodule, beq_false_of_ne hclass, Bool.or_false]
    | succ j => rfl

theorem isReceiver_of_climbs : isReceiver ⟨object, links ++ above⟩ = false := by
  -- A constant inside the chain is the scope of another one; the outermost one stands free.
  have hsend : ∀ p j rest, links ++ above = (p, j) :: rest → j = 0 → p.kind ≠ .send := by
    intro p j rest habove hj
    cases links with
    | nil => exact ((hfree p j rest habove).2 hj).2.2
    | cons link links =>
      obtain ⟨rfl, -⟩ := List.cons.inj habove
      have hconst : p.kind = .const :=
        hclimbs.isConst p (List.mem_cons_of_mem _ List.mem_cons_self)
      rw [hconst]
      decide
  rw [isReceiver]
  dsimp only
  split
  · next p rest habove => exact beq_false_of_ne (hsend p 0 rest habove rfl)
  · rfl

theorem isThroughApi_of_climbs :
    isThroughApi ⟨object, links ++ above⟩ = (words[1]? == some Crossing.apiSegment) := by
  have hvalue := congrArg (fun values => values[1]?) hclimbs.values
  simp only [List.getElem?_map, List.getElem?_cons_succ] at hvalue
  cases links with
  | nil =>
    have hnone : words[1]? = none := by
      simpa using hvalue.symm
    rw [hnone, List.nil_append, isThroughApi]
    cases above with
    | nil => rfl
    | cons around rest =>
      obtain ⟨p, j⟩ := around
      show (p.kind == .const && _) = false
      rw [beq_false_of_ne (hfree p j rest rfl).1, Bool.false_and]
  | cons link links =>
    obtain ⟨p, j⟩ := link
    have hconst : p.kind = .const :=
      hclimbs.isConst p (List.mem_cons_of_mem _ List.mem_cons_self)
    have hgiven : p.given = words[1]? := by
      cases hword : words[1]? with
      | none =>
        rw [hword] at hvalue
        cases hvalue
      | some word =>
        rw [hword] at hvalue
        exact Option.some.inj hvalue
    show (p.kind == .const && p.given == some Crossing.apiSegment) = _
    rw [hconst, hgiven, beq_self_eq_true, Bool.true_and]

theorem lineage_of_climbs (hcount : words.length ≤ 5) :
    (lineage ⟨object, links ++ above⟩).map (fun v => Constant.bare v.source) =
      (List.range words.length).map fun i => Constant.qualified (words.take (i + 1)) := by
  have houtside : (above.map Prod.fst).takeWhile (fun v => v.kind == .const) = [] := by
    cases above with
    | nil => rfl
    | cons around rest =>
      obtain ⟨p, j⟩ := around
      exact List.takeWhile_cons_of_neg (by simpa using (hfree p j rest rfl).1)
  have hlength : (object :: links.map Prod.fst).length ≤ 5 := by
    have := congrArg List.length hclimbs.values
    rw [List.length_map, List.length_map] at this
    omega
  have hall : ∀ v ∈ object :: links.map Prod.fst, (v.kind == .const) = true := fun v hv =>
    beq_iff_eq.mpr (hclimbs.isConst v hv)
  rw [← hclimbs.texts, lineage, List.map_append, ← List.cons_append,
    List.takeWhile_append_of_pos hall, houtside, List.append_nil, List.take_of_length_le hlength]

end Inner

end Site

namespace SourceTree

variable {t : SourceTree} {root : Value}

/-- The innermost constant of a chain, with the others of the chain around it. -/
theorem inner_of_names (h : Numbers t.nodes.toList root) {words : List String} {v : Value}
    {above : List (Value × Nat)} {n : Node} (hnames : Value.Names words v)
    (hwords : ∀ word ∈ words, Constant.IsWord word) (hs : Stands t root n ⟨v, above⟩) :
    ∃ inner object links, Stands t root inner ⟨object, links ++ above⟩ ∧ t.Ends n inner ∧
      object.constName = words.head? ∧ Site.Climbs (object :: links.map Prod.fst) words := by
  induction hnames generalizing n above with
  | @first v word hv hscope =>
    have hspells := (Value.Names.first hv hscope).spells hwords
    refine ⟨n, v, [], hs, .here fun m hm => ?_, ?_, ?_⟩
    · rcases child?_of_stands h hs 0 with ⟨m', c, hm', hc, hstands, -⟩ | ⟨hm', -⟩
      · rw [hm] at hm'
        cases hm'
        rw [kind_of_stands h hstands, (hscope _ (Site.child?_eq_some.mp hc).1).1]
        decide
      · rw [hm] at hm'
        cases hm'
    · refine Value.constName_eq_some.mpr ⟨hv.isConst, [word], ?_, ?_⟩
      · rw [Value.scopeNames_eq, hv.isConst, hv.given]
        cases hslot : v.slot? 0 with
        | none => rfl
        | some scope =>
          rw [Option.map_some, Value.scopeNames_eq, (hscope scope hslot).1]
          rfl
      · exact String.intercalate_singleton
    · refine ⟨?_, ?_, ?_⟩
      · intro other hother
        rw [List.mem_singleton.mp hother]
        exact hv.isConst
      · exact congrArg (fun given => [given]) hv.given
      · exact congrArg (fun text => [text]) hspells.bare
  | @next v scope words word hv hslot hnames ih =>
    have hspells := (Value.Names.next hv hslot hnames).spells hwords
    rcases child?_of_stands h hs 0 with ⟨m, c, hm, hc, hstands, -⟩ | ⟨-, hc⟩
    · obtain ⟨object, place⟩ := c
      obtain ⟨hobject, rfl⟩ : v.slot? 0 = some object ∧ place = (v, 0) :: above :=
        Site.child?_eq_some.mp hc
      rw [hslot] at hobject
      cases hobject
      obtain ⟨inner, object, links, hinner, hends, hname, hclimbs⟩ :=
        ih (fun word hword => hwords word (List.mem_append_left _ hword)) hstands
      rw [List.append_cons] at hinner
      refine ⟨inner, object, links ++ [(v, 0)], hinner,
        .under hm ((kind_of_stands h hstands).trans hnames.isConst) hends, ?_, ?_⟩
      · rw [hname, List.head?_append_of_ne_nil _ hnames.ne_nil]
      · rw [List.map_append]
        exact hclimbs.append hv hspells.bare
    · rw [Option.map_eq_none_iff.mp hc] at hslot
      cases hslot

end SourceTree

theorem Crossing.not_isReserved {p : Protection} {current : Option String} {name : String}
    (h : ':' ∉ name.toList) : isReserved p current name = false := by
  rw [isReserved, Bool.and_eq_false_iff]
  left
  rw [Bool.eq_false_iff]
  intro hmatch
  exact h ((List.isPrefixOf_iff_prefix.mp hmatch).subset (by decide))

/-- What the innermost constant of a chain reaches when the chain is named by some words. -/
theorem Crossing.ofConst_of_names (p : Protection) (engines : List String)
    (current : Option String) {t : SourceTree} {root : Value} (h : Numbers t.nodes.toList root)
    {outer : Node} {site : Site} {first : String} {words : List String}
    (houter : SourceTree.Stands t root outer site)
    (hnames : Value.Names (first :: words) site.object) (hfree : site.IsFree)
    (hwords : ∀ word ∈ first :: words, Constant.IsWord word) (hcount : (first :: words).length ≤ 5) :
    ∃ inner ∈ t.nodes.toList, t.Ends outer inner ∧ inner.kind = .const ∧
      (ofConst p engines t current defaultDepth inner).map Crossing.toReach =
        if engines.contains first then
          some ⟨first,
            (List.range (first :: words).length).map fun i =>
              Constant.qualified ((first :: words).take (i + 1)),
            words.head? == some apiSegment⟩
        else none := by
  obtain ⟨v, above⟩ := site
  obtain ⟨inner, object, links, hinner, hends, hname, hclimbs⟩ :=
    SourceTree.inner_of_names h hnames hwords houter
  have hkind : object.kind = .const := hclimbs.isConst object List.mem_cons_self
  have hreference : (ofConst p engines t current defaultDepth inner).map Crossing.reference =
      Site.constReference p engines current ⟨object, links ++ above⟩ :=
    SourceTree.constReference_of_stands h hinner hkind
  have hname : object.constName = some first := hname
  have hplain := (hwords first List.mem_cons_self).plain
  refine ⟨inner, List.mem_of_getElem? hinner.found, hends,
    (SourceTree.kind_of_stands h hinner).trans hkind, ?_⟩
  have hreach : (ofConst p engines t current defaultDepth inner).map Crossing.toReach =
      (Site.constReference p engines current ⟨object, links ++ above⟩).map Reference.toReach := by
    rw [← hreference, Option.map_map]
    rfl
  rw [hreach, Site.constReference, Site.isDeclared_of_climbs hclimbs hfree,
    Site.isReceiver_of_climbs hclimbs hfree, Site.lineage_of_climbs hclimbs hfree hcount,
    Site.isThroughApi_of_climbs hclimbs hfree, hname, Option.bind_some, Site.engineOf,
    not_isReserved hplain, List.getElem?_cons_succ, ← List.head?_eq_getElem?]
  cases engines.contains first with
  | true => rfl
  | false => rfl

namespace Situation

variable {x : Situation} {t : SourceTree} {current : Option String} {n : Node}

theorem classify_of_send (h : n.kind = .send) :
    x.classify t current n =
      (Crossing.ofAssociation x.protectedEngines t n).map ("association", ·) := by
  rw [classify_eq, Rules.crossingAt, h]
  rfl

theorem classify_of_const (h : n.kind = .const) :
    x.classify t current n = (Crossing.ofConst x.protection x.protectedEngines t current
      Crossing.defaultDepth n).map ("const", ·) := by
  rw [classify_eq, Rules.crossingAt, h]
  rfl

end Situation

/-- The reach of an association by one name, and that of a constant by all the names up to it. -/
theorem widens_grown (engine : String) {words : List String} (hwords : words ≠ [])
    (throughApi : Bool) :
    Session.Widens ⟨engine, [Constant.qualified words], throughApi⟩
      ⟨engine, (List.range words.length).map fun i => Constant.qualified (words.take (i + 1)),
        throughApi⟩ where
  engine := rfl
  throughApi := rfl
  lineage := by
    intro name hname
    rw [List.mem_singleton.mp hname, List.mem_map]
    refine ⟨words.length - 1, ?_, ?_⟩
    · exact List.mem_range.mpr (Nat.sub_lt (List.length_pos_of_ne_nil hwords) Nat.one_pos)
    · rw [List.take_of_length_le (by omega)]

/-- For a name of one to five segments: an association with that class name is a reference exactly if
the innermost constant of a chain with that name is a reference to its first segment, wherever the
chain stands free of declarations and calls.  Both then reach the same engine, through its API or not,
and any session that allows the association allows the constant. -/
theorem association_like_constant (x : Situation) {words : List String} (hfilled : words ≠ [])
    (hcount : words.length ≤ 5)
    (hwords : ∀ word ∈ words, Constant.isSegment word.toList = true)
    {t₁ : SourceTree} {call literal : Node} {text : String} (hcall : t₁.Associates call literal)
    (htext : literal.value = some text)
    (hspelled : text = Constant.qualified words ∨ text = "::" ++ Constant.qualified words)
    {document root : Value} {t₂ : SourceTree} (hdocument : SourceTree.ofValue document = .ok t₂)
    (hroot : document.field? "root" = some root) {outer : Node} {site : Site}
    (houter : SourceTree.Stands t₂ root outer site) (hnames : Value.Names words site.object)
    (hfree : site.IsFree) (current : Option String) :
    ∃ inner ∈ t₂.nodes.toList, t₂.Ends outer inner ∧
      ((∃ a, x.classify t₁ current call = some ("association", a)) ↔
        ∃ c, x.classify t₂ current inner = some ("const", c) ∧ words.head? = some c.engine) ∧
      ∀ a c, x.classify t₁ current call = some ("association", a) →
        x.classify t₂ current inner = some ("const", c) →
          a.engine = c.engine ∧ a.throughApi = c.throughApi ∧
          ∀ (fs : FileSystem) (s : Session) (file : String),
            s.Allows fs a.toReach current file → s.Allows fs c.toReach current file := by
  obtain ⟨first, words, rfl⟩ := List.exists_cons_of_ne_nil hfilled
  obtain ⟨root', hroot', hnumbers, -⟩ :=
    SourceTree.stands_of_mem hdocument (List.mem_of_getElem? houter.found)
  rw [hroot] at hroot'
  cases hroot'
  have hall : ∀ word ∈ first :: words, Constant.IsWord word := fun word hword =>
    Constant.isWord_of_isSegment (hwords word hword)
  have hreach := Crossing.ofAssociation_of_spells x.protectedEngines hcall htext
    ⟨hfilled, hall, hspelled⟩
  obtain ⟨inner, hinner, hends, hkind, hreach'⟩ :=
    Crossing.ofConst_of_names x.protection x.protectedEngines current hnumbers houter hnames hfree
      hall hcount
  refine ⟨inner, hinner, hends, ?_⟩
  by_cases hengine : x.protectedEngines.contains first = true
  · rw [if_pos hengine] at hreach hreach'
    obtain ⟨a, ha, hareach⟩ := Option.map_eq_some_iff.mp hreach
    obtain ⟨c, hc, hcreach⟩ := Option.map_eq_some_iff.mp hreach'
    rw [Situation.classify_of_send hcall.isCall, Situation.classify_of_const hkind, ha, hc]
    have hwidens : Session.Widens a.toReach c.toReach := by
      rw [hareach, hcreach]
      exact widens_grown first hfilled _
    refine ⟨⟨fun _ => ⟨c, rfl, ?_⟩, fun _ => ⟨a, rfl⟩⟩, ?_⟩
    · rw [hcreach]
      rfl
    · intro a' c' ha' hc'
      cases ha'
      cases hc'
      exact ⟨hwidens.engine, hwidens.throughApi, fun fs s file hallows => hallows.widen hwidens⟩
  · rw [if_neg hengine] at hreach hreach'
    rw [Situation.classify_of_send hcall.isCall, Situation.classify_of_const hkind,
      Option.map_eq_none_iff.mp hreach, Option.map_eq_none_iff.mp hreach']
    refine ⟨⟨fun ⟨a, ha⟩ => ?_, fun ⟨c, hc, _⟩ => ?_⟩, fun a c ha => ?_⟩
    · cases ha
    · cases hc
    · cases ha

/-! ## Records of another engine -/

/-- A file with an association to `Billing::Records::Invoice`. -/
def recordsRelation : SourceTree where
  path := "app/models/order.rb"
  root :=
    let leaf (kind : Kind) (value : String) : Branch := .node kind (some value) "" ⟨1, 0⟩ []
    some (.node .send (some "has_many") "" ⟨1, 0⟩
      [none, some (leaf .sym "invoices"),
        some (.node .hash none "" ⟨1, 0⟩
          [some (.node .pair none "" ⟨1, 0⟩
            [some (leaf .sym "class_name"), some (leaf .str "Billing::Records::Invoice")])])])

def recordsCall : Node :=
  ⟨0, .send, some "has_many", none, [none, some 1, some 2], "", ⟨1, 0⟩⟩

def recordsLiteral : Node :=
  ⟨5, .str, some "Billing::Records::Invoice", some 3, [], "", ⟨1, 0⟩⟩

theorem associates_recordsRelation : recordsRelation.Associates recordsCall recordsLiteral where
  isCall := rfl
  method := ⟨"has_many", by decide, rfl⟩
  slots := rfl
  name := ⟨⟨1, .sym, some "invoices", some 0, [], "", ⟨1, 0⟩⟩, by decide +kernel, rfl⟩
  options := by
    refine ⟨⟨2, .hash, none, some 0, [some 3], "", ⟨1, 0⟩⟩, [],
      ⟨3, .pair, none, some 2, [some 4, some 5], "", ⟨1, 0⟩⟩, [], by decide +kernel, rfl,
      by decide +kernel, ⟨rfl, ?_, by decide +kernel⟩, List.forall_mem_nil _⟩
    exact ⟨⟨4, .sym, some "class_name", some 3, [], "", ⟨1, 0⟩⟩, by decide +kernel, rfl, rfl⟩
  isText := rfl

theorem names_recordsPath : Value.Names ["Billing", "Records", "Invoice"] recordsPath := by
  have hbilling : Value.Names ["Billing"] (.constObject "Billing" topObject) := by
    refine .first ⟨rfl, rfl, rfl⟩ fun scope hscope => ?_
    obtain rfl : topObject = scope := Option.some.inj hscope
    exact ⟨rfl, rfl⟩
  have hrecords : Value.Names (["Billing"] ++ ["Records"])
      (.constObject "Records" (.constObject "Billing" topObject)) :=
    .next ⟨rfl, rfl, rfl⟩ rfl hbilling
  have hinvoice : Value.Names ((["Billing"] ++ ["Records"]) ++ ["Invoice"]) recordsPath :=
    .next ⟨rfl, rfl, rfl⟩ rfl hrecords
  exact hinvoice

/-- The engine publishes the class itself: the association is allowed, and so is the constant. -/
theorem association_like_constant_records :
    let x := Situation.publishing "Billing::Records::Invoice"
    recordsRelation.Associates recordsCall recordsLiteral ∧
    SourceTree.ofValue recordsFile = .ok recordsTree ∧
    ∃ a c inner,
      x.classify recordsRelation none recordsCall = some ("association", a) ∧
      x.classify recordsTree none inner = some ("const", c) ∧
      a.engine = "Billing" ∧ c.engine = "Billing" ∧
      x.session.Allows x.files a.toReach none "app/models/order.rb" ∧
      x.session.Allows x.files c.toReach none "app/models/order.rb" := by
  intro x
  let reach : Reach := ⟨"Billing", ["Billing::Records::Invoice"], false⟩
  have hclassified : x.classify recordsRelation none recordsCall =
      some ("association", ⟨reach, recordsLiteral, none⟩) := by decide +kernel
  have hlists : x.artifacts "Billing" = ⟨["Billing::Records::Invoice"], []⟩ := by decide +kernel
  have hpolicy : Verdict.byPolicy x.protection reach none = none := by decide +kernel
  have hverdict : Verdict.byArtifacts ⟨["Billing::Records::Invoice"], []⟩ reach
      "app/models/order.rb" = ⟨.allowlisted, some "Billing::Records::Invoice"⟩ := by
    decide +kernel
  have hallows : x.session.Allows x.files reach none "app/models/order.rb" := by
    refine ⟨_, Situation.decide_eq_ok_iff.mpr (.inr ⟨hpolicy, Template.formats_default, rfl⟩), ?_⟩
    rw [hlists, hverdict]
    rfl
  let outer : Node := ⟨0, .const, some "Invoice", none, [some 1], "::Billing::Records::Invoice",
    ⟨1, 0⟩⟩
  have houter : SourceTree.Stands recordsTree recordsPath outer ⟨recordsPath, []⟩ :=
    ⟨by decide +kernel, .root⟩
  obtain ⟨inner, -, -, hiff, hboth⟩ := association_like_constant x (List.cons_ne_nil _ _)
    (by decide) (by decide +kernel) associates_recordsRelation rfl (.inl (by decide +kernel))
    ofValue_recordsFile rfl houter names_recordsPath (fun p j rest habove => by cases habove) none
  obtain ⟨c, hc, hengine⟩ := hiff.mp ⟨_, hclassified⟩
  obtain ⟨hsame, -, hallowed⟩ := hboth _ c hclassified hc
  exact ⟨associates_recordsRelation, ofValue_recordsFile, _, c, inner, hclassified, hc, rfl,
    hsame.symm, hallows, hallowed _ _ _ hallows⟩

end Bulkhead
