/-
What the order of the files means for an index of factories.

As long as each name is declared in one file, the order means nothing: `index_of_perm`.  A name that
is declared in several files has several classes.  Asked for the name, the index takes the class of
the first file that has it; asked for a factory that has the name as its parent, it takes the class
of the last.  `child_builds_last` states both, so a factory and its parent build the same class if
all files that declare the parent agree on it.
-/
import Mathlib.Data.List.Nodup
import Mathlib.Data.List.Pairwise
import Bulkhead.Proofs.ParentChains

namespace Bulkhead
namespace Factory

/-! ## What a file declares -/

/-- The file declares a factory under the name. -/
def Declares (t : SourceTree) (name : String) : Prop :=
  ∃ r ∈ declarations t, name ∈ r.names

instance (t : SourceTree) (name : String) : Decidable (Declares t name) :=
  inferInstanceAs (Decidable (∃ r ∈ declarations t, name ∈ r.names))

theorem parent?_declared (r : Registration) : r.declared.target.parent? = r.parent := by
  obtain ⟨names, parent, className⟩ := r
  cases parent <;> rfl

namespace Index

/-- A parent in a file is that of a declaration there. -/
theorem declared_of_parent {t : SourceTree} {name parent : String}
    (h : named? name (directParents t) = some parent) :
    ∃ r ∈ declarations t, name ∈ r.names ∧ r.parent = some parent := by
  rw [directParents, named?_parentsOf] at h
  obtain ⟨d, hd, hparent⟩ := List.exists_of_findSome?_eq_some h
  obtain ⟨r, hr, rfl⟩ := List.mem_map.mp (List.mem_reverse.mp hd)
  split at hparent
  · next hname => exact ⟨r, hr, hname, parent?_declared r ▸ hparent⟩
  · cases hparent

theorem declared_of_class {t : SourceTree} {name className : String}
    (h : named? name (directClasses t) = some className) :
    ∃ r ∈ declarations t, name ∈ r.names ∧ r.parent = none := by
  obtain ⟨r, hr, hparent, hname, -⟩ := mem_classesOf (mem_of_named? h)
  exact ⟨r, hr, hname, hparent⟩

/-- If all declarations of a name in a file give one parent, the file has it. -/
theorem parent_of_declared {t : SourceTree} {name parent : String} (h : Declares t name)
    (hall : ∀ r ∈ declarations t, name ∈ r.names → r.parent = some parent) :
    named? name (directParents t) = some parent := by
  obtain ⟨r, hr, hname⟩ := h
  cases hfound : named? name (directParents t) with
  | some found =>
    obtain ⟨r', hr', hname', hparent⟩ := declared_of_parent hfound
    exact hparent.symm.trans (hall r' hr' hname')
  | none =>
    rw [directParents, named?_parentsOf] at hfound
    have hnone := List.findSome?_eq_none_iff.mp hfound r.declared
      (List.mem_reverse.mpr (List.mem_map_of_mem hr))
    rw [if_pos (show name ∈ r.declared.names from hname), parent?_declared, hall r hr hname]
      at hnone
    cases hnone

/-- When parents are settled, a file still has only names that it declares. -/
theorem declares_of_settled {classes parents : Names} {t : SourceTree} {name className : String}
    (h : named? name (settled classes parents t) = some className) : Declares t name := by
  rw [named?_settled] at h
  rcases Option.or_eq_some_iff.mp h with h | ⟨-, h⟩
  · obtain ⟨parent, hparent, -⟩ := Option.bind_eq_some_iff.mp h
    obtain ⟨r, hr, hname, -⟩ := declared_of_parent hparent
    exact ⟨r, hr, hname⟩
  · obtain ⟨r, hr, hname, -⟩ := declared_of_class h
    exact ⟨r, hr, hname⟩

/-! ## Classes and parents that are the same -/

section Congruence

variable {classes₁ classes₂ parents₁ parents₂ : Names}

theorem ancestor_congr (h : ∀ name, named? name parents₁ = named? name parents₂)
    (seen : List String) (name : String) :
    ancestor parents₁ seen name = ancestor parents₂ seen name := by
  fun_induction ancestor parents₁ seen name with
  | case1 seen name hnone =>
    rw [ancestor]
    split
    · rfl
    · next next hnext => rw [← h, hnone] at hnext; cases hnext
  | case2 seen name next hnext hseen =>
    rw [ancestor]
    split
    · next hnone => rw [← h, hnext] at hnone; cases hnone
    · next next' hnext' =>
      obtain rfl := Option.some.inj (hnext.symm.trans ((h name).trans hnext'))
      rw [dif_pos hseen]
  | case3 seen name next hnext hnew ih =>
    rw [ih]
    conv => rhs; rw [ancestor]
    split
    · next hnone => rw [← h, hnext] at hnone; cases hnone
    · next next' hnext' =>
      obtain rfl := Option.some.inj (hnext.symm.trans ((h name).trans hnext'))
      rw [dif_neg hnew]

theorem inherited_congr (hclasses : ∀ name, named? name classes₁ = named? name classes₂)
    (hparents : ∀ name, named? name parents₁ = named? name parents₂) (parent : String) :
    inherited classes₁ parents₁ parent = inherited classes₂ parents₂ parent := by
  rw [inherited, inherited, ancestor_congr hparents, hclasses]

/-- A file is settled alike, also in the order of its names, by classes and parents that are the
same name by name. -/
theorem settled_congr (hclasses : ∀ name, named? name classes₁ = named? name classes₂)
    (hparents : ∀ name, named? name parents₁ = named? name parents₂) (t : SourceTree) :
    settled classes₁ parents₁ t = settled classes₂ parents₂ t := by
  have hnames (names made : Names) :
      (resolveNames classes₁ parents₁ t.path names made).1 =
        (resolveNames classes₂ parents₂ t.path names made).1 := by
    induction names generalizing made with
    | nil => rfl
    | cons first rest ih =>
      obtain ⟨factory, parent⟩ := first
      rw [resolveNames_cons, resolveNames_cons, inherited_congr hclasses hparents, ih]
  exact hnames ..

end Congruence

/-! ## Names that one file declares -/

/-- No name is declared in two of the files. -/
def Apart (trees : List SourceTree) : Prop :=
  trees.Pairwise fun t u => ∀ name, Declares t name → ¬Declares u name

theorem Apart.eq {trees : List SourceTree} (h : Apart trees) {t u : SourceTree} (ht : t ∈ trees)
    (hu : u ∈ trees) {name : String} (htname : Declares t name) (huname : Declares u name) :
    t = u := by
  have hsymm : Std.Symm fun t u : SourceTree => ∀ name, Declares t name → ¬Declares u name :=
    ⟨fun _ _ hboth name hu ht => hboth name ht hu⟩
  by_contra hne
  exact List.Pairwise.forall h ht hu hne name htname huname

theorem apart_of_nodup {trees : List SourceTree}
    (h : (trees.flatMap fun t => (declarations t).flatMap Registration.names).Nodup) :
    Apart trees :=
  (List.nodup_flatMap.mp h).2.imp fun hdisjoint _ ht hu =>
    hdisjoint (List.mem_flatMap.mpr ht) (List.mem_flatMap.mpr hu)

/-- In which order files are asked for a name does not matter if one of them at most has it. -/
theorem Apart.findSome?_perm {trees trees' : List SourceTree} (h : Apart trees)
    (hperm : trees.Perm trees') {given : SourceTree → Names} {name : String}
    (hgiven : ∀ t value, named? name (given t) = some value → Declares t name) :
    (trees.findSome? fun t => named? name (given t)) =
      trees'.findSome? fun t => named? name (given t) := by
  refine Bulkhead.findSome?_perm hperm fun t ht u hu x y hx hy => ?_
  obtain rfl := h.eq ht hu (hgiven t x hx) (hgiven u y hy)
  exact Option.some.inj (hx.symm.trans hy)

theorem Apart.lastOf_perm {trees trees' : List SourceTree} (h : Apart trees)
    (hperm : trees.Perm trees') {given : SourceTree → Names} (name : String)
    (hgiven : ∀ t value, named? name (given t) = some value → Declares t name) :
    lastOf given trees name = lastOf given trees' name := by
  have hreversed : trees.Perm trees.reverse := (List.reverse_perm trees).symm
  have hreversed' : trees.Perm trees'.reverse := hperm.trans (List.reverse_perm trees').symm
  rw [lastOf, lastOf, ← h.findSome?_perm hreversed hgiven, h.findSome?_perm hreversed' hgiven]

theorem named?_perm {α : Type} {made made' : List (String × α)} (hperm : made.Perm made')
    (hnodup : (made.map Prod.fst).Nodup) (name : String) :
    named? name made = named? name made' := by
  have hnodup' : (made'.map Prod.fst).Nodup := (hperm.map Prod.fst).nodup hnodup
  cases hfound : named? name made with
  | some value => exact (named?_of_nodup hnodup' (hperm.mem_iff.mp (mem_of_named? hfound))).symm
  | none =>
    rw [named?_eq_none, (hperm.map Prod.fst).mem_iff] at hfound
    exact (named?_eq_none.mpr hfound).symm

theorem lookup?_resolve {trees : List SourceTree} (h : (trees.map SourceTree.path).Nodup)
    (name : String) :
    (trees.foldl addTree {}).resolve.1.lookup? name =
      trees.findSome? fun t => named? name (settled (allClasses trees) (allParents trees) t) := by
  rw [lookup?, resolve_of_nodup h, List.findSome?_map]
  rfl

end Index

/-- If no name is declared in two files, the files can be read in any order: each has the same names
with the same classes, and each name is found with the same class. -/
theorem index_of_perm {trees trees' : List SourceTree} (hperm : trees.Perm trees')
    (hpaths : (trees.map SourceTree.path).Nodup) (hapart : Index.Apart trees) :
    ∃ index index', Ledger.answers {} [trees.map .ok] = [.ok index] ∧
      Ledger.answers {} [trees'.map .ok] = [.ok index'] ∧
      index.classes.Perm index'.classes ∧
      (∀ path, named? path index.classes = named? path index'.classes) ∧
      ∀ name, index.lookup? name = index'.lookup? name := by
  have hpaths' : (trees'.map SourceTree.path).Nodup := (hperm.map SourceTree.path).nodup hpaths
  have hclasses (name : String) :
      named? name (Index.allClasses trees) = named? name (Index.allClasses trees') := by
    rw [Index.named?_allClasses, Index.named?_allClasses]
    refine hapart.lastOf_perm hperm name fun t value hvalue => ?_
    obtain ⟨r, hr, hname, -⟩ := Index.declared_of_class hvalue
    exact ⟨r, hr, hname⟩
  have hparents (name : String) :
      named? name (Index.allParents trees) = named? name (Index.allParents trees') := by
    rw [Index.named?_allParents, Index.named?_allParents]
    refine hapart.lastOf_perm hperm name fun t value hvalue => ?_
    obtain ⟨r, hr, hname, -⟩ := Index.declared_of_parent hvalue
    exact ⟨r, hr, hname⟩
  have hsettled : Index.settled (Index.allClasses trees) (Index.allParents trees) =
      Index.settled (Index.allClasses trees') (Index.allParents trees') :=
    funext (Index.settled_congr hclasses hparents)
  have hfiles : (trees.foldl Index.addTree {}).resolve.1.classes.Perm
      (trees'.foldl Index.addTree {}).resolve.1.classes := by
    rw [Index.resolve_of_nodup hpaths, Index.resolve_of_nodup hpaths', ← hsettled]
    exact hperm.map _
  refine ⟨_, _, Ledger.answers_of_read (Index.addTrees_of_read {} trees) [],
    Ledger.answers_of_read (Index.addTrees_of_read {} trees') [], hfiles, ?_, fun name => ?_⟩
  · refine Index.named?_perm hfiles ?_
    rw [Index.resolve_of_nodup hpaths, Index.keys_of_trees]
    exact hpaths
  · rw [Index.lookup?_resolve hpaths, Index.lookup?_resolve hpaths', ← hsettled]
    exact hapart.findSome?_perm hperm fun t _ => Index.declares_of_settled

/-- Files whose names have parents in one another, read from either end. -/
theorem index_of_circle :
    ∃ index index', Ledger.answers {} [[.ok paidFile, .ok circleFile, .ok invoiceFile]] =
        [.ok index] ∧
      Ledger.answers {} [[.ok invoiceFile, .ok circleFile, .ok paidFile]] = [.ok index'] ∧
      index.classes.Perm index'.classes ∧ index.lookup? "paid" = index'.lookup? "paid" := by
  have hperm : [paidFile, circleFile, invoiceFile].Perm [invoiceFile, circleFile, paidFile] :=
    (List.reverse_perm _).symm
  obtain ⟨index, index', hindex, hindex', hclasses, -, hlookup⟩ :=
    index_of_perm hperm (by decide) (Index.apart_of_nodup (by decide +kernel))
  exact ⟨index, index', hindex, hindex', hclasses, hlookup "paid"⟩

/-! ## Names that several files declare -/

namespace Index

theorem directParents_of_root {t : SourceTree} {name : String}
    (h : ∀ r ∈ declarations t, name ∈ r.names → r.parent = none) :
    named? name (directParents t) = none := by
  cases hfound : named? name (directParents t) with
  | none => rfl
  | some parent =>
    obtain ⟨r, hr, hname, hparent⟩ := declared_of_parent hfound
    rw [h r hr hname] at hparent
    cases hparent

theorem directClasses_of_child {t : SourceTree} {name parent : String}
    (h : ∀ r ∈ declarations t, name ∈ r.names → r.parent = some parent) :
    named? name (directClasses t) = none := by
  cases hfound : named? name (directClasses t) with
  | none => rfl
  | some className =>
    obtain ⟨r, hr, hname, hnone⟩ := declared_of_class hfound
    rw [h r hr hname] at hnone
    cases hnone

theorem inherited_of_root {trees : List SourceTree} {parent : String}
    (h : lastOf directParents trees parent = none) :
    inherited (allClasses trees) (allParents trees) parent = lastOf directClasses trees parent := by
  have hup : named? parent (allParents trees) = none := (named?_allParents trees parent).trans h
  rw [inherited, ancestor_of_leads .refl hup, named?_allClasses]

theorem named?_settled_of_child {classes parents : Names} {t : SourceTree} {child parent : String}
    (h : Declares t child)
    (hchild : ∀ r ∈ declarations t, child ∈ r.names → r.parent = some parent) :
    named? child (settled classes parents t) = inherited classes parents parent := by
  rw [named?_settled, parent_of_declared h hchild, Option.bind_some, directClasses_of_child hchild,
    Option.or_none]

end Index

/-- A name without a parent is found with the class of the first file that declares it, and a name
that it is the parent of with the class of the last.  The two classes are the same if all files that
declare the parent give it one class. -/
theorem child_builds_last {trees : List SourceTree} (hpaths : (trees.map SourceTree.path).Nodup)
    (child parent : String) (hdeclared : ∃ t ∈ trees, Declares t child)
    (hchild : ∀ t ∈ trees, ∀ r ∈ declarations t, child ∈ r.names → r.parent = some parent)
    (hparent : ∀ t ∈ trees, ∀ r ∈ declarations t, parent ∈ r.names → r.parent = none) :
    ∃ index, Ledger.answers {} [trees.map .ok] = [.ok index] ∧
      index.lookup? child =
        (trees.reverse.findSome? fun t => named? parent (Index.directClasses t)) ∧
      index.lookup? parent = (trees.findSome? fun t => named? parent (Index.directClasses t)) ∧
      ((∀ t ∈ trees, ∀ u ∈ trees, ∀ x y, named? parent (Index.directClasses t) = some x →
          named? parent (Index.directClasses u) = some y → x = y) →
        index.lookup? child = index.lookup? parent) := by
  have hroot (t : SourceTree) (ht : t ∈ trees) : named? parent (Index.directParents t) = none :=
    Index.directParents_of_root (hparent t ht)
  have hinherited : Index.inherited (Index.allClasses trees) (Index.allParents trees) parent =
      Index.lastOf Index.directClasses trees parent := by
    refine Index.inherited_of_root ?_
    exact List.findSome?_eq_none_iff.mpr fun t ht => hroot t (List.mem_reverse.mp ht)
  have hlast : (trees.findSome? fun t => named? child
      (Index.settled (Index.allClasses trees) (Index.allParents trees) t)) =
      Index.lastOf Index.directClasses trees parent := by
    -- Every file that declares the child has it with this class, so the first that has it does.
    cases hfound : trees.findSome? fun t => named? child
        (Index.settled (Index.allClasses trees) (Index.allParents trees) t) with
    | none =>
      obtain ⟨t, ht, hname⟩ := hdeclared
      rw [← hinherited, ← Index.named?_settled_of_child hname (hchild t ht)]
      exact (List.findSome?_eq_none_iff.mp hfound t ht).symm
    | some className =>
      obtain ⟨t, ht, hclass⟩ := List.exists_of_findSome?_eq_some hfound
      have hname := Index.declares_of_settled hclass
      rw [← hclass, Index.named?_settled_of_child hname (hchild t ht), hinherited]
  have hfirst : (trees.findSome? fun t => named? parent
      (Index.settled (Index.allClasses trees) (Index.allParents trees) t)) =
      trees.findSome? fun t => named? parent (Index.directClasses t) := by
    rw [← List.head?_filterMap, ← List.head?_filterMap]
    refine congrArg List.head? (List.filterMap_congr fun t ht => ?_)
    rw [Index.named?_settled, hroot t ht, Option.bind_none, Option.none_or]
  refine ⟨_, Ledger.answers_of_read (Index.addTrees_of_read {} trees) [], ?_, ?_, fun hagree => ?_⟩
  · rw [Index.lookup?_resolve hpaths, hlast]
    rfl
  · rw [Index.lookup?_resolve hpaths, hfirst]
  · rw [Index.lookup?_resolve hpaths, Index.lookup?_resolve hpaths, hlast, hfirst]
    exact (Bulkhead.findSome?_perm (List.reverse_perm trees).symm hagree).symm

/-- An engine with a factory for its own invoices. -/
def billingInvoices : SourceTree where
  path := "engines/billing/spec/factories/invoice.rb"
  root := some (declaring "invoice" [("class", "Billing::Invoice")])

/-- Another engine with a factory of the same name. -/
def salesInvoices : SourceTree where
  path := "engines/sales/spec/factories/invoice.rb"
  root := some (declaring "invoice" [("class", "Sales::Invoice")])

theorem paid_builds_last :
    ∃ index, Ledger.answers {} [[.ok billingInvoices, .ok salesInvoices, .ok paidFile]] =
        [.ok index] ∧
      index.lookup? "paid" = some "Sales::Invoice" := by
  have hpaths : ([billingInvoices, salesInvoices, paidFile].map SourceTree.path).Nodup := by decide
  obtain ⟨index, hindex, hpaid, -⟩ := child_builds_last hpaths "paid" "invoice"
    (by decide +kernel) (by decide +kernel) (by decide +kernel)
  refine ⟨index, hindex, hpaid.trans ?_⟩
  decide +kernel

/-- The only declaration of `paid` gives `invoice` as its parent, which has no parent; yet the two
build different classes. -/
theorem paid_differs :
    ([billingInvoices, salesInvoices, paidFile].map SourceTree.path).Nodup ∧
      (([billingInvoices, salesInvoices, paidFile].flatMap declarations).filter
        fun r => "paid" ∈ r.names).map Registration.parent = [some "invoice"] ∧
      (([billingInvoices, salesInvoices, paidFile].flatMap declarations).filter
        fun r => "invoice" ∈ r.names).map Registration.parent = [none, none] ∧
      (Ledger.answers {} [[.ok billingInvoices, .ok salesInvoices, .ok paidFile]]).map
        (Except.map fun index => (index.lookup? "paid", index.lookup? "invoice")) =
          [.ok (some "Sales::Invoice", some "Billing::Invoice")] := by
  decide +kernel

end Factory
end Bulkhead
