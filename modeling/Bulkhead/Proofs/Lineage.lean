/-
The names of a constant and of the constants around it.

A constant has two names.  One is put together from the values of its scopes; the engines are found
by it.  The other is the text of the node without the colons in front, which is compared with
overrides and published lists; it is made when the tree is read, each text from that of its scope.
When the constants of a document bring no text of their own and each has one word for a name, the two
are the same.  `lineage_of_plain` says so, and that the names compared for a reference are those of
its scopes grown by one word after the other, up to the name that is asked about.
-/
import Bulkhead.Proofs.Questions

namespace Bulkhead

namespace Constant

/-- A name that can stand between separators. -/
structure IsWord (s : String) : Prop where
  filled : s ≠ ""
  plain : ':' ∉ s.toList

def qualified (words : List String) : String :=
  String.intercalate "::" words

theorem qualified_append {words : List String} (hwords : words ≠ []) (word : String) :
    qualified (words ++ [word]) = qualified words ++ "::" ++ word := by
  rw [qualified, String.intercalate_append_of_ne_nil hwords (List.cons_ne_nil _ _),
    String.intercalate_singleton]
  rfl

theorem IsWord.first {s : String} (h : IsWord s) : ∃ c rest, s.toList = c :: rest ∧ c ≠ ':' := by
  cases hs : s.toList with
  | nil => exact absurd (String.toList_eq_nil_iff.mp hs) h.filled
  | cons c rest =>
    refine ⟨c, rest, rfl, ?_⟩
    rintro rfl
    exact h.plain (hs ▸ List.mem_cons_self)

theorem IsWord.last {s : String} (h : IsWord s) : ∃ front c, s.toList = front ++ [c] ∧ c ≠ ':' := by
  have hne : s.toList ≠ [] := fun hs => h.filled (String.toList_eq_nil_iff.mp hs)
  refine ⟨s.toList.dropLast, s.toList.getLast hne, (List.dropLast_append_getLast hne).symm, ?_⟩
  intro hc
  exact h.plain (hc ▸ List.getLast_mem hne)

theorem first_of_qualified {word : String} (hword : IsWord word) (words : List String) :
    ∃ c rest, (qualified (word :: words)).toList = c :: rest ∧ c ≠ ':' := by
  obtain ⟨c, rest, hfirst, hc⟩ := hword.first
  cases words with
  | nil =>
    rw [qualified, String.intercalate_singleton]
    exact ⟨c, rest, hfirst, hc⟩
  | cons next words =>
    rw [qualified, String.intercalate_cons_cons, String.toList_append, String.toList_append, hfirst]
    exact ⟨c, _, rfl, hc⟩

theorem last_of_qualified (words : List String) {word : String} (hword : IsWord word) :
    ∃ front c, (qualified (words ++ [word])).toList = front ++ [c] ∧ c ≠ ':' := by
  obtain ⟨front, c, hlast, hc⟩ := hword.last
  by_cases hwords : words = []
  · rw [hwords, List.nil_append, qualified, String.intercalate_singleton]
    exact ⟨front, c, hlast, hc⟩
  · rw [qualified_append hwords, String.toList_append, hlast, ← List.append_assoc]
    exact ⟨_, c, rfl, hc⟩

/-- The text is the qualified name of the words, perhaps with a separator in front. -/
structure Spells (words : List String) (text : String) : Prop where
  filled : words ≠ []
  isWord : ∀ word ∈ words, IsWord word
  eq : text = qualified words ∨ text = "::" ++ qualified words

namespace Spells

variable {words : List String} {text word : String}

theorem of_word (hword : IsWord word) : Spells [word] word where
  filled := List.cons_ne_nil _ _
  isWord := by
    intro w hw
    rw [List.mem_singleton.mp hw]
    exact hword
  eq := .inl String.intercalate_singleton.symm

theorem at_top (hword : IsWord word) : Spells [word] (Value.underScope word (some "::")) where
  filled := List.cons_ne_nil _ _
  isWord := (of_word hword).isWord
  eq := by
    right
    rw [qualified, String.intercalate_singleton]
    rfl

theorem last (h : Spells words text) : ∃ front c, text.toList = front ++ [c] ∧ c ≠ ':' := by
  have hsplit := List.dropLast_append_getLast h.filled
  obtain ⟨front, c, hlast, hc⟩ :=
    last_of_qualified words.dropLast (h.isWord _ (List.getLast_mem h.filled))
  rw [hsplit] at hlast
  rcases h.eq with rfl | rfl
  · exact ⟨front, c, hlast, hc⟩
  · rw [String.toList_append, hlast, ← List.append_assoc]
    exact ⟨_, c, rfl, hc⟩

/-- A word after the text of its scope. -/
theorem under (h : Spells words text) (hword : IsWord word) :
    Spells (words ++ [word]) (Value.underScope word (some text)) where
  filled := by simp
  isWord := by
    intro w hw
    rcases List.mem_append.mp hw with hw | hw
    · exact h.isWord w hw
    · rw [List.mem_singleton.mp hw]
      exact hword
  eq := by
    have hopen : ¬ [':', ':'].isSuffixOf text.toList = true := by
      rw [List.isSuffixOf_iff_suffix]
      rintro ⟨before, hbefore⟩
      obtain ⟨front, c, hlast, hc⟩ := h.last
      rw [hlast, List.append_cons] at hbefore
      exact hc (List.singleton_inj.mp (List.append_inj' hbefore rfl).2).symm
    rw [Value.underScope, if_neg hopen, qualified_append h.filled]
    rcases h.eq with rfl | rfl
    · exact .inl rfl
    · right
      rw [String.append_assoc, String.append_assoc, String.append_assoc]

/-- Without the colons in front there is only the qualified name. -/
theorem bare (h : Spells words text) : Constant.bare text = qualified words := by
  obtain ⟨first, rest, rfl⟩ := List.exists_cons_of_ne_nil h.filled
  obtain ⟨c, below, hfirst, hc⟩ := first_of_qualified (h.isWord first List.mem_cons_self) rest
  have hkept : (c :: below).dropWhile (· == ':') = c :: below :=
    List.dropWhile_cons_of_neg (by simpa using hc)
  have hdropped : text.toList.dropWhile (· == ':') = c :: below := by
    rcases h.eq with rfl | rfl
    · rw [hfirst, hkept]
    · rw [String.toList_append, hfirst]
      exact hkept
  rw [Constant.bare, hdropped, ← hfirst, String.ofList_toList]

end Spells

end Constant

namespace Value

theorem source_of_const {v : Value} (hkind : v.kind = .const) (hown : v.ownSource = none) :
    v.source = underScope (v.given.getD "") ((v.slot? 0).map source) := by
  rw [source, hown, hkind]
  simp only [Option.attach_map_val]

theorem source_of_cbase {v : Value} (hkind : v.kind = .cbase) (hown : v.ownSource = none) :
    v.source = "::" := by
  rw [source, hown, hkind]

theorem kind_of_scopeNames {v : Value} {names : List String} (h : v.scopeNames = some names) :
    v.kind = .const ∨ (v.kind = .cbase ∧ names = []) := by
  rw [scopeNames_eq] at h
  cases hkind : v.kind with
  | const => exact .inl rfl
  | cbase =>
    rw [hkind] at h
    exact .inr ⟨rfl, (Option.some.inj h).symm⟩
  | _ =>
    rw [hkind] at h
    cases h

theorem scopeNames_of_const {v : Value} {names : List String} (hkind : v.kind = .const)
    (h : v.scopeNames = some names) : ∃ inner, names = v.given.getD "" :: inner := by
  rw [scopeNames_eq, hkind] at h
  obtain ⟨inner, -, rfl⟩ := Option.map_eq_some_iff.mp h
  exact ⟨inner, rfl⟩

theorem constName_eq_some {v : Value} {name : String} :
    v.constName = some name ↔ v.kind = .const ∧
      ∃ names, v.scopeNames = some names ∧ Constant.qualified names.reverse = name := by
  rw [constName]
  by_cases hkind : v.kind = .const
  · rw [if_pos hkind, Option.map_eq_some_iff]
    exact ⟨fun h => ⟨hkind, h⟩, fun h => h.2⟩
  · rw [if_neg hkind]
    exact ⟨fun h => absurd h.symm (Option.some_ne_none name), fun h => absurd h.1 hkind⟩

/-- A constant has one word for a name and a slot for its scope and no other; neither it nor the top
level brings a text of its own. -/
structure IsPlain (v : Value) : Prop where
  scope : v.kind = .const → v.items.length ≤ 1
  text : v.kind = .const ∨ v.kind = .cbase → v.ownSource = none
  word : v.kind = .const → ∃ word, v.given = some word ∧ Constant.IsWord word

end Value

namespace SourceTree

/-- From a constant outwards each constant adds its word to the names of the one inside it.  The
names of the first one come from the inside out. -/
structure Grows (chain : List Node) (names outer : List String) : Prop where
  values : chain.map (fun n => n.value.getD "") = names.take 1 ++ outer
  texts : chain.map (fun n => Constant.bare n.source) =
    (List.range (outer.length + 1)).map fun i => Constant.qualified (names.reverse ++ outer.take i)

section Numbered

variable {t : SourceTree} {root : Value} (h : Numbers t.nodes.toList root)
  (hplain : ∀ s ∈ root.sites [], s.object.IsPlain)

include h hplain

theorem plain_of_stands {n : Node} {s : Site} (hs : Stands t root n s) : s.object.IsPlain :=
  hplain s (List.mem_of_getElem? (h.shows_iff.mp hs.shows))

/-- The text of a constant spells the names of its scopes. -/
theorem spells_of_stands {bound : Nat} {n : Node} {s : Site} {names : List String}
    (hs : Stands t root n s) (hbound : t.size ≤ n.index + bound) (hkind : s.object.kind = .const)
    (hnames : s.object.scopeNames = some names) : Constant.Spells names.reverse n.source := by
  induction bound generalizing n s names with
  | zero =>
    have := hs.lt
    omega
  | succ bound ih =>
    obtain ⟨word, hgiven, hword⟩ := (plain_of_stands h hplain hs).word hkind
    have hown := (plain_of_stands h hplain hs).text (.inl hkind)
    have hsource : n.source = Value.underScope word ((s.object.slot? 0).map Value.source) := by
      rw [(fields_of_stands h hs).2.2.1, Value.source_of_const hkind hown, hgiven, Option.getD_some]
    rw [Value.scopeNames_eq, hkind, hgiven] at hnames
    rw [hsource]
    rcases child?_of_stands h hs 0 with ⟨m, c, -, hc, hstands, hlt⟩ | ⟨-, hc⟩
    · rw [(Site.child?_eq_some.mp hc).1] at hnames ⊢
      obtain ⟨inner, hinner, rfl⟩ := Option.map_eq_some_iff.mp hnames
      have hinner : c.object.scopeNames = some inner := hinner
      rw [Option.map_some, List.reverse_cons]
      rcases Value.kind_of_scopeNames hinner with hconst | ⟨htop, rfl⟩
      · rw [← (fields_of_stands h hstands).2.2.1]
        exact (ih hstands (by omega) hconst hinner).under hword
      · rw [Value.source_of_cbase htop ((plain_of_stands h hplain hstands).text (.inr htop))]
        exact .at_top hword
    · rw [Option.map_eq_none_iff.mp hc] at hnames ⊢
      cases hnames
      exact .of_word hword

theorem grows_alone {n : Node} {s : Site} {names : List String} (hs : Stands t root n s)
    (hkind : s.object.kind = .const) (hnames : s.object.scopeNames = some names) :
    Grows [n] names [] := by
  have hspells := spells_of_stands h hplain hs (Nat.le_add_left _ _) hkind hnames
  obtain ⟨inner, rfl⟩ := Value.scopeNames_of_const hkind hnames
  constructor
  · simp [value_of_stands h hs]
  · simp [hspells.bare]

theorem grows_outwards {n : Node} {s : Site} {names : List String} {chain : List Node}
    {word : String} {outer : List String} (hs : Stands t root n s)
    (hkind : s.object.kind = .const) (hnames : s.object.scopeNames = some names)
    (hgrows : Grows chain (word :: names) outer) :
    Grows (n :: chain) names (word :: outer) := by
  have halone := grows_alone h hplain hs hkind hnames
  constructor
  · have hvalue : names.take 1 = [n.value.getD ""] := by
      rw [← List.append_nil (names.take 1), ← halone.values]
      rfl
    rw [List.map_cons, hgrows.values, hvalue]
    rfl
  · have htext : Constant.bare n.source = Constant.qualified names.reverse := by
      simpa using halone.texts
    have hinner (i : Nat) : Constant.qualified ((word :: names).reverse ++ outer.take i) =
        Constant.qualified (names.reverse ++ (word :: outer).take (i + 1)) := by
      rw [List.reverse_cons, List.append_assoc, List.take_succ_cons]
      rfl
    rw [List.map_cons, hgrows.texts, htext, funext hinner, List.length_cons,
      List.range_succ_eq_map (n := outer.length + 1), List.map_cons, List.map_map, List.take_zero,
      List.append_nil]
    rfl

/-- Around a constant each one adds its word to the names inside it. -/
theorem chain_of_stands {bound : Nat} {n : Node} {v : Value} {above : List (Value × Nat)}
    {names : List String} (hs : Stands t root n ⟨v, above⟩) (hbound : n.index < bound)
    (hkind : v.kind = .const) (hnames : v.scopeNames = some names) :
    ∃ outer, Grows (t.constChain bound n) names outer ∧
      (Site.outermost v above).object.kind = .const ∧
      (Site.outermost v above).object.scopeNames = some (outer.reverse ++ names) := by
  obtain ⟨bound, rfl⟩ := Nat.exists_eq_succ_of_ne_zero (Nat.ne_zero_of_lt hbound)
  induction above generalizing n v bound names with
  | nil =>
    rw [constChain, if_pos ((kind_of_stands h hs).trans hkind), parent?_of_top h hs]
    exact ⟨[], grows_alone h hplain hs hkind hnames, hkind, hnames⟩
  | cons around rest ih =>
    obtain ⟨p, j⟩ := around
    obtain ⟨m, hm, hstands, hlt, hslot⟩ := parent?_of_inside h hs
    rw [constChain, if_pos ((kind_of_stands h hs).trans hkind), hm, Site.outermost]
    show ∃ outer, Grows (n :: t.constChain bound m) names outer ∧ _
    by_cases hp : p.kind = .const
    · have hsingle : m.slots.length ≤ 1 := by
        rw [(fields_of_stands h hstands).2.2.2.2]
        exact (plain_of_stands h hplain hstands).scope hp
      have hnames' : p.scopeNames = some (p.given.getD "" :: names) := by
        rw [scopeNames_of_single h hstands hs hp hsingle hslot, hnames, Option.map_some]
      obtain ⟨bound, rfl⟩ := Nat.exists_eq_succ_of_ne_zero (show bound ≠ 0 by omega)
      obtain ⟨outer, hgrows, hkind', hnames''⟩ := ih hstands hp hnames' bound (by omega)
      rw [if_pos hp]
      refine ⟨_, grows_outwards h hplain hs hkind hnames hgrows, hkind', ?_⟩
      rw [hnames'', List.reverse_cons, List.append_assoc]
      rfl
    · rw [if_neg hp, constChain_of_ne bound (kind_of_stands h hstands ▸ hp)]
      exact ⟨[], grows_alone h hplain hs hkind hnames, hkind, hnames⟩

end Numbered

end SourceTree

/-- The words of a qualified name up to each of them, from the `k`-th on, as many as the depth
allows. -/
theorem take_grown {words outer : List String} (depth : Int) :
    ((List.range (outer.length + 1)).map fun i =>
        Constant.qualified (words ++ outer.take i)).take depth.toNat =
      (List.range' words.length
        (min ((words ++ outer).length : Int) (words.length + depth - 1) + 1 -
          words.length).toNat).map fun j => Constant.qualified ((words ++ outer).take j) := by
  have hcount : (min ((words ++ outer).length : Int) (words.length + depth - 1) + 1 -
      words.length).toNat = min depth.toNat (outer.length + 1) := by
    rw [List.length_append]
    omega
  rw [hcount, List.range'_eq_map_range, List.map_map, ← List.map_take, List.take_range]
  refine List.map_congr_left fun i _ => ?_
  rw [Function.comp_apply, List.take_length_add_append]

/-- In an accepted document with plain constants, the text of a constant that has a name is that
name once the colons in front are gone.  A constant that reaches into an engine is asked about by the
name of the outermost one around it, which goes on where its own ends, by the values of the constants
in between; and the names that are compared are all that lie between the two, from the inside out, as
many as the depth allows. -/
theorem lineage_of_plain {document : Value} {t : SourceTree}
    (hdocument : SourceTree.ofValue document = .ok t)
    (hplain : ∀ root, document.field? "root" = some root →
      ∀ s ∈ root.sites [], s.object.IsPlain) :
    (∀ n ∈ t.nodes.toList, ∀ name, t.constName n = some name → Constant.bare n.source = name) ∧
      ∀ n ∈ t.nodes.toList, ∀ p engines current (depth : Int) c,
        Crossing.ofConst p engines t current depth n = some c →
          ∃ (words : List String) (k : Nat), (∀ word ∈ words, Constant.IsWord word) ∧
            1 ≤ k ∧ k ≤ words.length ∧
            t.constName n = some (Constant.qualified (words.take k)) ∧
            c.model = some (Constant.qualified words) ∧
            (t.constChain (n.index + 1) n).map (fun n => n.value.getD "") = words.drop (k - 1) ∧
            c.lineage = (List.range' k
              (min (words.length : Int) (k + depth - 1) + 1 - k).toNat).map fun j =>
                Constant.qualified (words.take j) := by
  constructor
  · intro n hn name hname
    obtain ⟨root, hroot, hnumbers, s, hs⟩ := SourceTree.stands_of_mem hdocument hn
    rw [SourceTree.constName_of_stands hnumbers hs] at hname
    obtain ⟨hkind, names, hnames, rfl⟩ := Value.constName_eq_some.mp hname
    exact (SourceTree.spells_of_stands hnumbers (hplain root hroot) hs (Nat.le_add_left _ _) hkind
      hnames).bare
  · intro n hn p engines current depth c hc
    obtain ⟨⟨name, hname⟩, -, hmodel, hlineage⟩ := Crossing.ofConst_eq_some hc
    obtain ⟨root, hroot, hnumbers, ⟨v, above⟩, hs⟩ := SourceTree.stands_of_mem hdocument hn
    have hname' := hname
    rw [SourceTree.constName_of_stands hnumbers hs] at hname'
    obtain ⟨hkind, names, hnames, rfl⟩ := Value.constName_eq_some.mp hname'
    obtain ⟨outer, hgrows, houter, houterNames⟩ :=
      SourceTree.chain_of_stands hnumbers (hplain root hroot) hs (Nat.lt_succ_self n.index) hkind
        hnames
    have hspells := SourceTree.spells_of_stands hnumbers (hplain root hroot)
      (SourceTree.outermost_of_stands hnumbers hs) (Nat.le_add_left _ _) houter houterNames
    rw [List.reverse_append, List.reverse_reverse] at hspells
    obtain ⟨inner, rfl⟩ := Value.scopeNames_of_const hkind hnames
    refine ⟨_, (v.given.getD "" :: inner).reverse.length, hspells.isWord, ?_, ?_, ?_, ?_, ?_, ?_⟩
    · rw [List.length_reverse, List.length_cons]
      exact Nat.le_add_left 1 inner.length
    · rw [List.length_append]
      exact Nat.le_add_right _ _
    · rw [hname, List.take_left]
    · rw [hmodel,
        SourceTree.constName_of_stands hnumbers (SourceTree.outermost_of_stands hnumbers hs)]
      refine Value.constName_eq_some.mpr ⟨houter, _, houterNames, ?_⟩
      rw [List.reverse_append, List.reverse_reverse]
    · have hfront : (v.given.getD "" :: inner).reverse.length - 1 = inner.reverse.length := by
        rw [List.length_reverse, List.length_reverse, List.length_cons, Nat.add_sub_cancel]
      rw [hgrows.values, hfront, List.reverse_cons, List.append_assoc, List.drop_left]
      rfl
    · rw [hlineage, SourceTree.lineage, List.map_take, hgrows.texts, take_grown]

/-! ## A constant with a separator in front -/

def Value.constObject (word : String) (scope : Value) : Value :=
  .record [("type", .text "const"), ("value", .text word), ("children", .list [scope])]

theorem Value.plain_constObject {word : String} (hword : Constant.IsWord word) (scope : Value) :
    (constObject word scope).IsPlain where
  scope := fun _ => Nat.le_refl 1
  text := fun _ => rfl
  word := fun _ => ⟨word, rfl, hword⟩

theorem Value.sites_constObject (word : String) {scope : Value} (hscope : scope ≠ .null)
    (above : List (Value × Nat)) :
    (constObject word scope).sites above =
      ⟨constObject word scope, above⟩ :: scope.sites ((constObject word scope, 0) :: above) := by
  have hitems : (constObject word scope).items = [scope] := rfl
  rw [sites, hitems, sitesIn, sitesIn, List.append_nil]
  exact hscope

def topObject : Value :=
  .record [("type", .text "cbase")]

/-- The constant `::Billing::Records::Invoice`. -/
def recordsPath : Value :=
  .constObject "Invoice" (.constObject "Records" (.constObject "Billing" topObject))

def recordsFile : Value :=
  .record [("path", .text "app/models/order.rb"), ("root", recordsPath)]

theorem plain_recordsPath (s : Site) (hs : s ∈ recordsPath.sites []) : s.object.IsPlain := by
  have htop : topObject.IsPlain :=
    ⟨fun h => absurd h (by decide), fun _ => rfl, fun h => absurd h (by decide)⟩
  have hsites (above : List (Value × Nat)) : topObject.sites above = [⟨topObject, above⟩] := by
    have hitems : topObject.items = [] := rfl
    rw [Value.sites, hitems, Value.sitesIn]
  have hnull (word : String) (scope : Value) : Value.constObject word scope ≠ .null := nofun
  have htopNull : topObject ≠ .null := nofun
  rw [recordsPath, Value.sites_constObject _ (hnull _ _), Value.sites_constObject _ (hnull _ _),
    Value.sites_constObject _ htopNull, hsites] at hs
  simp only [List.mem_cons, List.not_mem_nil, or_false] at hs
  rcases hs with rfl | rfl | rfl | rfl
  · exact Value.plain_constObject ⟨by decide, by decide⟩ _
  · exact Value.plain_constObject ⟨by decide, by decide⟩ _
  · exact Value.plain_constObject ⟨by decide, by decide⟩ _
  · exact htop

def recordsTree : SourceTree where
  path := "app/models/order.rb"
  root :=
    let const (word source : String) (scope : Branch) : Branch :=
      .node .const (some word) source ⟨1, 0⟩ [some scope]
    some (const "Invoice" "::Billing::Records::Invoice"
      (const "Records" "::Billing::Records"
        (const "Billing" "::Billing" (.node .cbase none "::" ⟨1, 0⟩ []))))

theorem ofValue_recordsFile : SourceTree.ofValue recordsFile = .ok recordsTree :=
  SourceTree.ofValue_record (by decide) (by intro h; cases h) (by decide +kernel)

/-- At depth two the engine is reached by two of the three names. -/
theorem lineage_recordsFile :
    SourceTree.ofValue recordsFile = .ok recordsTree ∧
      ∃ n ∈ recordsTree.nodes.toList, Constant.bare n.source = "Billing" ∧
        ∃ c, Crossing.ofConst (Protection.ofSettings billingSettings none) ["Billing"] recordsTree
            none 2 n = some c ∧
          c.lineage = ["Billing", "Billing::Records"] ∧
          ∃ (words : List String) (k : Nat), 1 ≤ k ∧ k ≤ words.length ∧
            recordsTree.constName n = some (Constant.qualified (words.take k)) ∧
            c.model = some (Constant.qualified words) ∧
            c.lineage = (List.range' k
              (min (words.length : Int) (k + 2 - 1) + 1 - k).toNat).map fun j =>
                Constant.qualified (words.take j) := by
  let n : Node := ⟨2, .const, some "Billing", some 1, [some 3], "::Billing", ⟨1, 0⟩⟩
  have hn : n ∈ recordsTree.nodes.toList := by decide +kernel
  have hcrossing : Crossing.ofConst (Protection.ofSettings billingSettings none) ["Billing"]
      recordsTree none 2 n = some
        { engine := "Billing", lineage := ["Billing", "Billing::Records"], throughApi := false,
          node := n, model := some "Billing::Records::Invoice" } := by
    decide +kernel
  obtain ⟨hnames, hlineage⟩ := lineage_of_plain ofValue_recordsFile fun root hroot =>
    Option.some.inj hroot ▸ plain_recordsPath
  obtain ⟨words, k, -, hk, hlength, hname, hmodel, -, hprefixes⟩ :=
    hlineage n hn _ _ _ _ _ hcrossing
  exact ⟨ofValue_recordsFile, n, hn, hnames n hn "Billing" (by decide +kernel), _, hcrossing, rfl, words, k, hk,
    hlength, hname, hmodel, hprefixes⟩

end Bulkhead
