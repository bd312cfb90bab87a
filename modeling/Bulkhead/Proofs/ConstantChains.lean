/-
One reference into an engine for each chain of constants.

The constant `Billing::Records::Invoice` is three nodes, and each of them is looked at on its own.
Only the innermost one can name an engine: the name of any other has a separator in it, which the
name of an engine has not unless its directory has a colon.  So two nodes of one chain that reach into
engines are the same node.  The interface of the main application is the exception, and it counts only
in files of strongly protected engines; in all other files a chain is reported once at most.
-/
import Bulkhead.Proofs.AuditTrail
import Bulkhead.Proofs.RootedEntries
import Bulkhead.Proofs.Spelling
import Bulkhead.Proofs.Splitting

namespace Bulkhead

/-! ## Names of engines -/

namespace Naming

theorem colon_of_mem_joinWords {place : Place} {cs : List Char} (h : ':' ∈ joinWords place cs) :
    ':' ∈ cs ∨ '/' ∈ cs := by
  -- What holds of the rest of the name holds of the whole.
  have hrest {c : Char} {cs : List Char} (h : ':' ∈ cs ∨ '/' ∈ cs) :
      ':' ∈ c :: cs ∨ '/' ∈ c :: cs :=
    h.imp (List.mem_cons_of_mem c) (List.mem_cons_of_mem c)
  fun_induction joinWords place cs with
  | case1 => cases h
  | case2 place cs ih => exact hrest (ih h)
  | case3 place cs _ _ => exact .inr List.mem_cons_self
  | case4 d cs _ _ _ ih =>
    rcases List.mem_cons.mp h with rfl | h
    · exact .inl List.mem_cons_self
    · exact hrest (ih h)
  | case5 d cs _ _ _ ih =>
    rcases List.mem_cons.mp h with hcolon | h
    · rcases upperChar_cases d with hsame | hupper
      · rw [hcolon, hsame]
        exact .inl List.mem_cons_self
      · rw [← hcolon] at hupper
        exact absurd hupper (by decide)
    · exact hrest (ih h)
  | case6 d cs _ _ _ ih =>
    rcases List.mem_append.mp h with hcolon | h
    · rcases Text.mem_lowerChar hcolon with rfl | hcode
      · exact .inl List.mem_cons_self
      · exact absurd hcode (by decide)
    · exact hrest (ih h)
  | case7 place d cs _ _ _ ih =>
    rcases List.mem_cons.mp h with rfl | h
    · exact .inl List.mem_cons_self
    · exact hrest (ih h)

theorem mem_raiseFirst {c : Char} (hc : isUpperLetter c = false) {cs : List Char}
    (h : c ∈ raiseFirst cs) : c ∈ cs := by
  cases cs with
  | nil => cases h
  | cons d cs =>
    rcases List.mem_cons.mp h with hfirst | h
    · split at hfirst
      · rcases upperChar_cases d with hsame | hupper
        · rw [hfirst, hsame]
          exact List.mem_cons_self
        · rw [← hfirst, hc] at hupper
          cases hupper
      · rw [hfirst]
        exact List.mem_cons_self
    · exact List.mem_cons_of_mem d h

/-- A colon in the spelling of a constant comes from a colon or a slash. -/
theorem colon_of_mem_toConstant {name : String} (h : ':' ∈ (toConstant name).toList) :
    ':' ∈ name.toList ∨ '/' ∈ name.toList := by
  rw [toConstant, String.toList_ofList] at h
  exact (colon_of_mem_joinWords h).imp (mem_raiseFirst (by decide)) (mem_raiseFirst (by decide))

end Naming

theorem Protection.colon_notMem_engine {p : Protection} {fs : FileSystem} {engine : String}
    (hnames : ∀ name ∈ p.directoryNames fs, ':' ∉ name.toList ∧ '/' ∉ name.toList)
    (h : engine ∈ p.protectedEngines (p.survey fs).1) : ':' ∉ engine.toList := by
  obtain ⟨⟨name, hname, rfl⟩, -⟩ := mem_protectedEngines.mp h
  intro hcolon
  rcases Naming.colon_of_mem_toConstant hcolon with hmark | hmark
  · exact (hnames name hname).1 hmark
  · exact (hnames name hname).2 hmark

/-! ## Chains -/

namespace SourceTree

/-- Following the scopes of a constant down to the last constant of the chain. -/
inductive Ends (t : SourceTree) : Node → Node → Prop
  | here {n : Node} (hscope : ∀ m, t.child? n 0 = some m → m.kind ≠ .const) : Ends t n n
  | under {n m last : Node} (hscope : t.child? n 0 = some m) (hkind : m.kind = .const)
      (hlast : Ends t m last) : Ends t n last

theorem Ends.unique {t : SourceTree} {n last last' : Node} (h : t.Ends n last)
    (h' : t.Ends n last') : last = last' := by
  induction h with
  | here hscope =>
    cases h' with
    | here => rfl
    | under hscope' hkind _ => exact absurd hkind (hscope _ hscope')
  | under hscope hkind _ ih =>
    cases h' with
    | here hscope' => exact absurd hkind (hscope' _ hscope)
    | under hscope' _ hlast' =>
      rw [hscope] at hscope'
      cases hscope'
      exact ih hlast'

theorem scopeNames_eq_nil {t : SourceTree} {bound : Nat} {scope : Option Node}
    (h : t.scopeNames bound scope = some []) : ∀ m, scope = some m → m.kind = .cbase := by
  rintro m rfl
  cases bound with
  | zero => cases h
  | succ bound =>
    rw [scopeNames] at h
    cases hkind : m.kind with
    | cbase => rfl
    | const =>
      rw [hkind] at h
      obtain ⟨names, -, hnames⟩ := Option.map_eq_some_iff.mp h
      cases hnames
    | _ =>
      rw [hkind] at h
      cases h

/-- A name without a colon is that of a constant with no constant in its scope. -/
theorem scope_of_plain_name {t : SourceTree} {n : Node} {name : String}
    (h : t.constName n = some name) (hname : ':' ∉ name.toList) :
    n.kind = .const ∧ (∀ m, t.child? n 0 = some m → m.kind = .cbase) ∧
      t.scopeNames (t.size + 1) (some n) = some [name] := by
  rw [constName] at h
  split at h
  · next hkind =>
    obtain ⟨names, hnames, hjoined⟩ := Option.map_eq_some_iff.mp h
    have hscope := hnames
    rw [scopeNames, hkind] at hscope
    obtain ⟨inner, hinner, hgrown⟩ := Option.map_eq_some_iff.mp hscope
    have hqualified : Constant.qualified (inner.reverse ++ [n.value.getD ""]) = name := by
      rw [← hjoined, ← hgrown, List.reverse_cons]
      rfl
    have hempty : inner = [] := by
      by_contra hfilled
      rw [Constant.qualified_append (by simpa using hfilled)] at hqualified
      apply hname
      rw [← hqualified, String.toList_append, String.toList_append]
      exact List.mem_append_left _ (List.mem_append_right _ List.mem_cons_self)
    rw [hempty] at hinner hgrown hqualified
    refine ⟨hkind, scopeNames_eq_nil hinner, ?_⟩
    rw [hnames, ← hgrown, ← hqualified, Constant.qualified, List.reverse_nil, List.nil_append,
      String.intercalate_singleton]
  · cases h

theorem node_unique {t : SourceTree} {root : Value} {n m : Node} {s : Site}
    (hn : Stands t root n s) (hm : Stands t root m s) : n = m := by
  have hfound := hm.found
  rw [Numbers.index_unique hm.shows hn.shows, hn.found] at hfound
  exact Option.some.inj hfound

/-- The chain of a constant and that of the outermost one around it end in the same constant. -/
theorem ends_of_outermost {t : SourceTree} {root : Value} (h : Numbers t.nodes.toList root)
    {n outer last : Node} {v : Value} {above : List (Value × Nat)}
    (hsingle : ∀ n ∈ t.nodes.toList, n.kind = .const → n.slots.length ≤ 1)
    (hs : Stands t root n ⟨v, above⟩) (hkind : v.kind = .const) (hlast : t.Ends n last)
    (houter : Stands t root outer (Site.outermost v above)) : t.Ends outer last := by
  induction above generalizing n v with
  | nil =>
    rw [node_unique houter hs]
    exact hlast
  | cons around rest ih =>
    obtain ⟨p, j⟩ := around
    rw [Site.outermost] at houter
    by_cases hp : p.kind = .const
    · obtain ⟨m, -, hm, -, hslot⟩ := parent?_of_inside h hs
      have hslots := hsingle m (List.mem_of_getElem? hm.found) ((kind_of_stands h hm).trans hp)
      have hunder : t.Ends m last :=
        .under (child?_of_single hs hslots hslot) ((kind_of_stands h hs).trans hkind) hlast
      rw [if_pos hp] at houter
      exact ih hm hp hunder houter
    · rw [if_neg hp] at houter
      rw [node_unique houter hs]
      exact hlast

/-- Each node of an accepted document has a number of its own. -/
theorem nodup_nodes {document : Value} {t : SourceTree} (hdocument : ofValue document = .ok t) :
    t.nodes.toList.Nodup := by
  obtain ⟨-, ⟨hroot, -⟩ | ⟨root, hroot, hnull, -⟩⟩ := ofValue_eq_ok hdocument
  · rw [toList_nodes, hroot]
    exact List.nodup_nil
  · have hnumbers := numbers hdocument hroot hnull
    have hindex : t.nodes.toList.map Node.index = List.range t.nodes.toList.length := by
      refine List.ext_getElem (by simp) fun i hi _ => ?_
      rw [List.length_map] at hi
      obtain ⟨s, -, hshows⟩ := hnumbers.shows_of_lt hi
      rw [List.getElem_map, List.getElem_range]
      exact (hnumbers.fields hshows (List.getElem?_eq_getElem hi)).1
    exact List.Nodup.of_map _ (hindex ▸ List.nodup_range)

/-- A constant with a plain name ends its chain, and its name begins that of the outermost one. -/
theorem SingleScoped.chain {t : SourceTree} (h : t.SingleScoped) {n : Node}
    (hn : n ∈ t.nodes.toList) {name : String} (hname : t.constName n = some name)
    (hplain : ':' ∉ name.toList) :
    t.Ends (t.outermost n) n ∧
      ∃ others, t.constName (t.outermost n) = some (Constant.qualified (name :: others)) := by
  obtain ⟨document, hdocument⟩ := h.accepted
  obtain ⟨root, -, hnumbers, ⟨v, above⟩, hs⟩ := stands_of_mem hdocument hn
  have houter := outermost_of_stands hnumbers hs
  obtain ⟨hkind, hscope, hnames⟩ := scope_of_plain_name hname hplain
  rw [kind_of_stands hnumbers hs] at hkind
  rw [scopeNames_of_stands hnumbers hs (show t.size ≤ n.index + (t.size + 1) by omega)] at hnames
  constructor
  · refine ends_of_outermost hnumbers h.scopes hs hkind (.here fun m hm => ?_) houter
    rw [hscope m hm]
    decide
  · obtain ⟨houterKind, outer, hall⟩ := scopeNames_outermost hnumbers h.scopes hs hkind hnames
    refine ⟨outer.reverse, ?_⟩
    rw [constName_of_stands hnumbers houter]
    refine Value.constName_eq_some.mpr ⟨houterKind, _, hall, ?_⟩
    rw [List.reverse_append]
    rfl

end SourceTree

/-! ## References -/

/-- Of elements that are apart pairwise, at most one has a property that no two have. -/
theorem length_filter_le_one {α : Type} {P : α → Bool} {R : α → α → Prop} {l : List α}
    (hl : l.Pairwise R) (h : ∀ a b, P a = true → P b = true → ¬ R a b) :
    (l.filter P).length ≤ 1 := by
  have hfiltered := hl.filter P
  have hholds : ∀ a ∈ l.filter P, P a = true := fun a ha => (List.mem_filter.mp ha).2
  cases hl' : l.filter P with
  | nil => exact Nat.zero_le 1
  | cons a rest =>
    cases rest with
    | nil => exact Nat.le_refl 1
    | cons b rest =>
      rw [hl'] at hfiltered hholds
      exact absurd (List.rel_of_pairwise_cons hfiltered List.mem_cons_self)
        (h a b (hholds a List.mem_cons_self) (hholds b (List.mem_cons_of_mem a List.mem_cons_self)))

namespace Situation

variable {x : Situation} {t : SourceTree} {current : Option String}

theorem classify_eq_const {n : Node} {c : Crossing}
    (h : x.classify t current n = some ("const", c)) :
    Crossing.ofConst x.protection x.protectedEngines t current Crossing.defaultDepth n = some c := by
  rw [classify_eq, Rules.crossingAt] at h
  split at h
  · obtain ⟨c', hc, hpair⟩ := Option.map_eq_some_iff.mp h
    cases hpair
    exact hc
  · obtain ⟨c', -, hpair⟩ := Option.map_eq_some_iff.mp h
    exact absurd (Prod.mk.inj hpair).1 (by decide)
  · cases h

section Chains

variable
  (hnames : ∀ name ∈ x.protection.directoryNames x.files, ':' ∉ name.toList ∧ '/' ∉ name.toList)

include hnames

/-- Outside of strongly protected engines no constant stands for the main application. -/
theorem engine_ne_mainApp {n : Node} {c : Crossing} (hweak : x.protection.isStrong current = false)
    (h : x.classify t current n = some ("const", c)) : c.engine ≠ Crossing.mainApp := by
  intro hmain
  rcases Crossing.engine_of_ofConst (classify_eq_const h) with ⟨hstrong, -⟩ | ⟨-, hmem⟩
  · rw [hweak] at hstrong
    cases hstrong
  · rw [hmain] at hmem
    exact Protection.colon_notMem_engine hnames hmem (by decide)

variable (ht : t.SingleScoped)

include ht

theorem chain_of_classify {n : Node} {c : Crossing} (hn : n ∈ t.nodes.toList)
    (h : x.classify t current n = some ("const", c)) (hengine : c.engine ≠ Crossing.mainApp) :
    t.Ends (t.outermost n) n ∧ (∀ m, t.child? n 0 = some m → m.kind = .cbase) ∧
      ∃ model, c.model = some model ∧ (Constant.segments model).head? = some c.engine := by
  have hconst := classify_eq_const h
  rcases Crossing.engine_of_ofConst hconst with ⟨-, hmain⟩ | ⟨hname, hmem⟩
  · exact absurd hmain hengine
  · have hplain := Protection.colon_notMem_engine hnames hmem
    obtain ⟨hends, others, houter⟩ := ht.chain hn hname hplain
    obtain ⟨-, -, hmodel, -⟩ := Crossing.ofConst_eq_some hconst
    exact ⟨hends, (SourceTree.scope_of_plain_name hname hplain).2.1, _, hmodel.trans houter,
      Constant.head?_segments_qualified hplain others⟩

/-- No two references of a file outside of strongly protected engines are in one chain. -/
theorem pairwise_classify (hweak : x.protection.isStrong current = false) :
    (t.nodes.toList.filterMap (x.classify t current)).Pairwise fun found found' =>
      found.1 = "const" → found'.1 = "const" →
        t.outermost found.2.node ≠ t.outermost found'.2.node := by
  obtain ⟨document, hdocument⟩ := ht.accepted
  refine List.pairwise_filterMap.mpr ((SourceTree.nodup_nodes hdocument).imp_of_mem ?_)
  intro n n' hn hn' hne found hfound found' hfound' hkind hkind' houter
  obtain ⟨kind, c⟩ := found
  obtain ⟨kind', c'⟩ := found'
  obtain rfl : kind = "const" := hkind
  obtain rfl : kind' = "const" := hkind'
  have hnode := (Crossing.ofConst_eq_some (classify_eq_const hfound)).2.1
  have hnode' := (Crossing.ofConst_eq_some (classify_eq_const hfound')).2.1
  have hends := (chain_of_classify hnames ht hn hfound (engine_ne_mainApp hnames hweak hfound)).1
  have hends' :=
    (chain_of_classify hnames ht hn' hfound' (engine_ne_mainApp hnames hweak hfound')).1
  dsimp only at houter
  rw [hnode, hnode'] at houter
  rw [houter] at hends
  exact hne (hends.unique hends')

end Chains

/-- What an inspection reports are judgements on references, in reading order. -/
theorem reported_of_inspect {trail : Option Audit.Trail} {offenses : List Offense}
    (h : x.inspect trail t = .ok offenses) :
    ∃ reported : List Judgement,
      offenses = reported.map
        (Judgement.offense x.protection t.path (x.protection.ownerOf t.path)) ∧
      (reported.map Judgement.reference).Sublist
        (t.nodes.toList.filterMap (x.classify t (x.protection.ownerOf t.path))) := by
  obtain ⟨hreport, -⟩ := Inspection.inspect_eq_report x.files t
    (.start x.settings x.directory x.source trail)
  obtain ⟨hnone, hreported⟩ := Judgement.report_eq_ok.mp (hreport.symm.trans h)
  refine ⟨_, hreported.symm, ?_⟩
  have hfound (n : Node) : ((Inspection.crossingAt x.files t (x.protection.ownerOf t.path) n).run
      (.start x.settings x.directory x.source trail)).1 =
        x.classify t (x.protection.ownerOf t.path) n := by
    rw [classify_eq]
    exact (yields_crossingAt (carries_agrees _ _ _) (fun _ => Protection.obstacle?_clear _ _) _
      (agrees_start ..)).1
  have hall := (Inspection.references_judgements x.files t
    (.start x.settings x.directory x.source trail)).2 hnone
  rw [← List.filterMap_congr fun n _ => hfound n]
  refine List.Sublist.trans (List.filter_sublist.map _) ?_
  rw [hall]
  exact List.Sublist.refl _

end Situation

/-- In a document whose constants have no slot but that for the scope, and with no colon in the names
of the engine directories: a constant that reaches into an engine other than the main application ends
its chain, its engine is the first segment of the name that is asked about, and no other constant with
the same outermost one reaches into such an engine.  So in a file outside of strongly protected
engines each chain is reported once at most.  (A slash cannot stand in the name of a directory.) -/
theorem one_reference_per_chain (x : Situation) {t : SourceTree} (ht : t.SingleScoped)
    (hnames : ∀ name ∈ x.protection.directoryNames x.files,
      ':' ∉ name.toList ∧ '/' ∉ name.toList) :
    (∀ current, ∀ n ∈ t.nodes.toList, ∀ c, x.classify t current n = some ("const", c) →
      c.engine ≠ Crossing.mainApp →
        t.Ends (t.outermost n) n ∧ (∀ m, t.child? n 0 = some m → m.kind = .cbase) ∧
        (∃ model, c.model = some model ∧ (Constant.segments model).head? = some c.engine) ∧
        ∀ n' ∈ t.nodes.toList, ∀ c', x.classify t current n' = some ("const", c') →
          c'.engine ≠ Crossing.mainApp → t.outermost n' = t.outermost n → n' = n) ∧
    (x.protection.isStrong (x.protection.ownerOf t.path) = false →
      ∀ trail offenses, x.inspect trail t = .ok offenses →
        ∃ reported : List Judgement,
          offenses = reported.map
            (Judgement.offense x.protection t.path (x.protection.ownerOf t.path)) ∧
          (reported.map Judgement.reference).Sublist
            (t.nodes.toList.filterMap (x.classify t (x.protection.ownerOf t.path))) ∧
          ∀ outer, (reported.filter fun j =>
            j.kind == "const" && t.outermost j.crossing.node == outer).length ≤ 1) := by
  constructor
  · intro current n hn c hc hengine
    obtain ⟨hends, hscope, hmodel⟩ := Situation.chain_of_classify hnames ht hn hc hengine
    refine ⟨hends, hscope, hmodel, fun n' hn' c' hc' hengine' houter => ?_⟩
    have hends' := (Situation.chain_of_classify hnames ht hn' hc' hengine').1
    rw [houter] at hends'
    exact hends'.unique hends
  · intro hweak trail offenses hoffenses
    obtain ⟨reported, hreported, hreferences⟩ := Situation.reported_of_inspect hoffenses
    refine ⟨reported, hreported, hreferences, fun outer => ?_⟩
    have hpairwise := List.pairwise_map.mp
      ((Situation.pairwise_classify hnames ht hweak).sublist hreferences)
    refine length_filter_le_one hpairwise fun j j' hj hj' hapart => ?_
    simp only [Bool.and_eq_true, beq_iff_eq] at hj hj'
    exact hapart hj.1 hj'.1 (hj.2.trans hj'.2.symm)

/-- A shop that publishes nothing, and whose orders are models. -/
def closedShop : Situation where
  settings := shopSettings
  directory := none
  source := Persistence.ofList ["Shop::Order"]
  files := PublicApi.Catalog.shopFiles

/-- The two constants of `Shop::Order` make one reference and one offense. -/
theorem one_reference_orderUse :
    orderUse.SingleScoped ∧
    (∀ name ∈ closedShop.protection.directoryNames closedShop.files,
      ':' ∉ name.toList ∧ '/' ∉ name.toList) ∧
    (∃ n ∈ orderUse.nodes.toList, ∃ c, closedShop.classify orderUse none n = some ("const", c) ∧
      c.engine = "Shop" ∧ orderUse.Ends (orderUse.outermost n) n ∧ orderUse.outermost n ≠ n) ∧
    ∃ reported : List Judgement,
      closedShop.inspect none orderUse =
        .ok (reported.map (Judgement.offense closedShop.protection orderUse.path none)) ∧
      reported ≠ [] ∧
      ∀ outer, (reported.filter fun j =>
        j.kind == "const" && orderUse.outermost j.crossing.node == outer).length ≤ 1 := by
  have hnames : ∀ name ∈ closedShop.protection.directoryNames closedShop.files,
      ':' ∉ name.toList ∧ '/' ∉ name.toList := by decide +kernel
  have hweak : closedShop.protection.isStrong (closedShop.protection.ownerOf orderUse.path) =
      false := by decide +kernel
  have hfound : ∃ n ∈ orderUse.nodes.toList, ∃ found ∈ closedShop.classify orderUse none n,
      found.1 = "const" ∧ found.2.engine = "Shop" ∧ orderUse.outermost n ≠ n := by decide +kernel
  have hcount : (closedShop.inspect none orderUse).toOption.map List.length = some 1 := by
    decide +kernel
  obtain ⟨hchains, hreports⟩ := one_reference_per_chain closedShop singleScoped_orderUse hnames
  refine ⟨singleScoped_orderUse, hnames, ?_, ?_⟩
  · obtain ⟨n, hn, ⟨kind, c⟩, hc, hkind, hengine, houter⟩ := hfound
    obtain rfl : kind = "const" := hkind
    have hother : c.engine ≠ Crossing.mainApp := by
      rw [hengine]
      decide
    exact ⟨n, hn, c, hc, hengine, (hchains none n hn c hc hother).1, houter⟩
  · cases hoffenses : closedShop.inspect none orderUse with
    | error failure =>
      rw [hoffenses] at hcount
      cases hcount
    | ok offenses =>
      rw [hoffenses] at hcount
      obtain ⟨reported, rfl, -, honce⟩ := hreports hweak none offenses hoffenses
      refine ⟨reported, rfl, ?_, honce⟩
      intro hempty
      rw [hempty] at hcount
      cases hcount

end Bulkhead
