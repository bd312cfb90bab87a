/-
Parents are followed to the end of their way.

When all files have been read, each name that has a parent is given the class of the last name on
the way from parent to parent.  A way ends at a name that has no parent, or before it would come
back to a name it has been at; so it always ends, also when parents go round in a circle.  The
classes and parents that are asked on the way are those of all files together, as they were before
the first name was settled.  `parents_settled` says what becomes of every name with a parent, and
that the order in which they are settled makes no difference.
-/
import Mathlib.Logic.Relation
import Bulkhead.Proofs.FactoryScopes

namespace Bulkhead

/-! ## Names in lists of pairs -/

/-- Where only one answer can be found, the order of the list does not matter. -/
theorem findSome?_perm {α β : Type} {f : α → Option β} {l₁ l₂ : List α} (h : l₁.Perm l₂)
    (hone : ∀ a ∈ l₁, ∀ b ∈ l₁, ∀ x y, f a = some x → f b = some y → x = y) :
    l₁.findSome? f = l₂.findSome? f := by
  cases hfirst : l₁.findSome? f with
  | none =>
    rw [List.findSome?_eq_none_iff] at hfirst
    exact (List.findSome?_eq_none_iff.mpr fun a ha => hfirst a (h.mem_iff.mpr ha)).symm
  | some x =>
    obtain ⟨a, ha, hx⟩ := List.exists_of_findSome?_eq_some hfirst
    cases hsecond : l₂.findSome? f with
    | none => rw [List.findSome?_eq_none_iff.mp hsecond a (h.mem_iff.mp ha)] at hx; cases hx
    | some y =>
      obtain ⟨b, hb, hy⟩ := List.exists_of_findSome?_eq_some hsecond
      rw [hone a ha b (h.mem_iff.mpr hb) x y hx hy]

section Pairs

variable {α : Type} {name : String} {value : α} {pairs made : List (String × α)}

theorem named?_eq_none : named? name made = none ↔ name ∉ made.map Prod.fst := by
  constructor
  · intro hnone hmem
    obtain ⟨value, hvalue, -⟩ := named?_of_mem hmem
    rw [hnone] at hvalue
    cases hvalue
  · intro hnot
    cases hfound : named? name made with
    | none => rfl
    | some value => exact absurd (List.mem_map_of_mem (mem_of_named? hfound)) hnot

theorem named?_of_nodup (h : (made.map Prod.fst).Nodup) (hmem : (name, value) ∈ made) :
    named? name made = some value := by
  induction made with
  | nil => cases hmem
  | cons pair rest ih =>
    obtain ⟨key, first⟩ := pair
    rw [List.map_cons, List.nodup_cons] at h
    rw [named?]
    rcases List.mem_cons.mp hmem with hpair | hrest
    · obtain ⟨rfl, rfl⟩ := Prod.mk.inj hpair
      exact if_pos rfl
    · have hname : name ∈ rest.map Prod.fst := List.mem_map_of_mem hrest
      rw [if_neg fun hkey : key = name => h.1 (hkey ▸ hname), ih h.2 hrest]

theorem putNamed_of_named? (h : named? name made = some value) :
    putNamed name value made = made := by
  induction made with
  | nil => cases h
  | cons pair rest ih =>
    obtain ⟨key, first⟩ := pair
    rw [named?] at h
    rw [putNamed]
    by_cases hkey : key = name
    · rw [if_pos hkey] at h ⊢
      cases h
      rfl
    · rw [if_neg hkey] at h ⊢
      rw [ih h]

theorem putNamed_append (hnew : name ∉ made.map Prod.fst) (value old : α)
    (rest : List (String × α)) :
    putNamed name value (made ++ (name, old) :: rest) = made ++ (name, value) :: rest := by
  induction made with
  | nil => exact if_pos rfl
  | cons pair front ih =>
    obtain ⟨key, first⟩ := pair
    rw [List.map_cons, List.mem_cons, not_or] at hnew
    rw [List.cons_append, putNamed, if_neg (Ne.symm hnew.1), ih hnew.2, List.cons_append]

/-- Values that are put in count before those that were there. -/
theorem named?_putAll (h : (pairs.map Prod.fst).Nodup) (name : String) (made : List (String × α)) :
    named? name (pairs.foldl (fun made pair => putNamed pair.1 pair.2 made) made) =
      (named? name pairs).or (named? name made) := by
  induction pairs generalizing made with
  | nil => rfl
  | cons pair rest ih =>
    obtain ⟨key, value⟩ := pair
    rw [List.map_cons, List.nodup_cons] at h
    rw [List.foldl_cons, ih h.2, named?_putNamed, named?]
    by_cases hkey : key = name
    · rw [if_pos hkey, if_pos hkey, named?_eq_none.mpr (hkey ▸ h.1)]
      rfl
    · rw [if_neg hkey, if_neg hkey]

end Pairs

namespace Factory

/-! ## Ways -/

/-- The first name leads to the second from parent to parent. -/
def Leads (up : String → Option String) : String → String → Prop :=
  Relation.ReflTransGen fun name next => up name = some next

/-- The names on the way from parent to parent.  It goes on as long as it comes to new names. -/
structure Way (up : String → Option String) (start : String) (names : List String) : Prop where
  starts : names.head? = some start
  climbs : names.IsChain fun name next => up name = some next
  fresh : names.Nodup
  ends : ∀ last next, names.getLast? = some last → up last = some next → next ∈ names

/-- A name that leads to one without a parent does not lead back to itself. -/
theorem not_circular {up : String → Option String} {name root : String} (h : Leads up name root)
    (hroot : up root = none) :
    ¬Relation.TransGen (fun name next => up name = some next) name name := by
  induction h using Relation.ReflTransGen.head_induction_on with
  | refl =>
    intro hcircle
    obtain ⟨next, hnext, -⟩ := Relation.TransGen.head'_iff.mp hcircle
    rw [hroot] at hnext
    cases hnext
  | head hstep _ ih =>
    intro hcircle
    -- There is one parent at most, so a circle through the first name goes through the second.
    obtain ⟨next, hnext, hback⟩ := Relation.TransGen.head'_iff.mp hcircle
    obtain rfl := Option.some.inj (hstep.symm.trans hnext)
    exact ih (Relation.TransGen.tail' hback hstep)

namespace Index

theorem leads_ancestor (parents : Names) (seen : List String) (name : String) :
    Leads (fun name => named? name parents) name (ancestor parents seen name).1 := by
  fun_induction ancestor parents seen name with
  | case1 seen name hnone => exact .refl
  | case2 seen name next hnext hseen => exact .refl
  | case3 seen name next hnext hnew ih => exact .head hnext ih

/-- The last name has no parent if the way comes to such a name at all.  All names that have been
seen lie behind. -/
theorem ancestor_of_root {parents : Names} {seen : List String} {name root : String}
    (hbehind : ∀ earlier ∈ seen, Leads (fun name => named? name parents) earlier name)
    (h : Leads (fun name => named? name parents) name root) (hroot : named? root parents = none) :
    (ancestor parents seen name).1 = root := by
  fun_induction ancestor parents seen name with
  | case1 seen name hnone =>
    rcases h.cases_head with rfl | ⟨next, hnext, -⟩
    · rfl
    · exact absurd (hnone.symm.trans hnext) (Option.some_ne_none next).symm
  | case2 seen name next hnext hseen =>
    have hback := hbehind next (List.contains_iff_mem.mp hseen)
    have hcircle : Relation.TransGen (fun name next => named? name parents = some next) name name :=
      .head' hnext hback
    exact absurd hcircle (not_circular h hroot)
  | case3 seen name next hnext hnew ih =>
    refine ih (fun earlier hearlier => ?_) ?_
    · rcases List.mem_cons.mp hearlier with rfl | hearlier
      · exact .refl
      · exact (hbehind earlier hearlier).tail hnext
    · rcases h.cases_head with rfl | ⟨next', hnext', hrest⟩
      · exact absurd (hroot.symm.trans hnext) (Option.some_ne_none next).symm
      · obtain rfl := Option.some.inj (hnext.symm.trans hnext')
        exact hrest

theorem ancestor_of_leads {parents : Names} {name root : String}
    (h : Leads (fun name => named? name parents) name root) (hroot : named? root parents = none) :
    (ancestor parents [name] name).1 = root := by
  refine ancestor_of_root (fun earlier hearlier => ?_) h hroot
  rw [List.mem_singleton.mp hearlier]
  exact .refl

/-- What lies ahead of a name: new names only, up to the last one, whose parent is not new. -/
theorem exists_further (parents : Names) (seen : List String) (name : String) :
    ∃ further,
      ((name :: further).IsChain fun name next => named? name parents = some next) ∧
      further.Nodup ∧ (∀ later ∈ further, later ∉ seen) ∧
      (name :: further).getLast? = some (ancestor parents seen name).1 ∧
      ∀ next, named? (ancestor parents seen name).1 parents = some next →
        next ∈ seen ∨ next ∈ further := by
  fun_induction ancestor parents seen name with
  | case1 seen name hnone =>
    refine ⟨[], .singleton name, List.nodup_nil, ?_, rfl, fun next hnext => ?_⟩
    · intro later hlater
      cases hlater
    · rw [hnone] at hnext
      cases hnext
  | case2 seen name next hnext hseen =>
    refine ⟨[], .singleton name, List.nodup_nil, ?_, rfl, fun next' hnext' => ?_⟩
    · intro later hlater
      cases hlater
    · obtain rfl := Option.some.inj (hnext.symm.trans hnext')
      exact .inl (List.contains_iff_mem.mp hseen)
  | case3 seen name next hnext hnew ih =>
    obtain ⟨further, hchain, hnodup, hfresh, hlast, hends⟩ := ih
    refine ⟨next :: further, .cons_cons hnext hchain, List.nodup_cons.mpr ⟨?_, hnodup⟩, ?_, ?_, ?_⟩
    · exact fun hmem => hfresh next hmem List.mem_cons_self
    · intro later hlater hseen
      rcases List.mem_cons.mp hlater with rfl | hlater
      · exact hnew (List.contains_iff_mem.mpr hseen)
      · exact hfresh later hlater (List.mem_cons_of_mem next hseen)
    · rw [List.getLast?_cons_cons, hlast]
    · intro after hafter
      rcases hends after hafter with hmem | hmem
      · rcases List.mem_cons.mp hmem with rfl | hmem
        · exact .inr List.mem_cons_self
        · exact .inl hmem
      · exact .inr (List.mem_cons_of_mem next hmem)

/-- Every way ends, and the last name on it is the one that is asked for its class. -/
theorem way_ancestor (parents : Names) (name : String) :
    ∃ names, Way (fun name => named? name parents) name names ∧
      names.getLast? = some (ancestor parents [name] name).1 := by
  obtain ⟨further, hchain, hnodup, hfresh, hlast, hends⟩ := exists_further parents [name] name
  refine ⟨name :: further, ⟨rfl, hchain, List.nodup_cons.mpr ⟨?_, hnodup⟩, ?_⟩, hlast⟩
  · exact fun hmem => hfresh name hmem List.mem_cons_self
  · intro last next hlast' hnext
    obtain rfl := Option.some.inj (hlast.symm.trans hlast')
    exact (hends next hnext).elim (fun hmem => List.mem_singleton.mp hmem ▸ List.mem_cons_self)
      (List.mem_cons_of_mem name)

/-! ## Settling one name after the other -/

/-- A name with a parent, in a file. -/
structure Visit where
  path : String
  factory : String
  parent : String

/-- The names with parents, file by file. -/
def visits (files : List (String × Names)) : List Visit :=
  files.flatMap fun file => file.2.map fun name => ⟨file.1, name.1, name.2⟩

/-- The class that a name gets from its parent. -/
def inherited (classes parents : Names) (parent : String) : Option String :=
  named? (ancestor parents [parent] parent).1 classes

/-- Settles one name. -/
def settle (classes parents : Names) (made : List (String × Names)) (visit : Visit) :
    List (String × Names) :=
  match inherited classes parents visit.parent with
  | some className =>
    putNamed visit.path (putNamed visit.factory className ((named? visit.path made).getD [])) made
  | none => made

/-- The class of a name in a file. -/
def entry (path factory : String) (made : List (String × Names)) : Option String :=
  (named? path made).bind (named? factory)

section Settling

variable {classes parents : Names} {made : List (String × Names)}

theorem resolveNames_cons (classes parents : Names) (path factory parent : String)
    (rest made : Names) :
    (resolveNames classes parents path ((factory, parent) :: rest) made).1 =
      (resolveNames classes parents path rest
        (((inherited classes parents parent).map fun className =>
          putNamed factory className made).getD made)).1 := by
  rw [resolveNames, inherited]
  obtain ⟨last, notes⟩ := ancestor parents [parent] parent
  dsimp only
  cases named? last classes with
  | none => rfl
  | some className => rfl

/-- A name with a parent gets its class from there, unless the way ends at a name without a class;
all else stays. -/
theorem named?_resolveNames {names : Names} (h : (names.map Prod.fst).Nodup)
    (classes parents : Names) (path factory : String) (made : Names) :
    named? factory (resolveNames classes parents path names made).1 =
      ((named? factory names).bind (inherited classes parents)).or (named? factory made) := by
  induction names generalizing made with
  | nil => rfl
  | cons first rest ih =>
    obtain ⟨key, parent⟩ := first
    rw [List.map_cons, List.nodup_cons] at h
    rw [resolveNames_cons, ih h.2, named?]
    by_cases hkey : key = factory
    · rw [if_pos hkey, named?_eq_none.mpr (hkey ▸ h.1), Option.bind_none, Option.none_or,
        Option.bind_some]
      cases inherited classes parents parent with
      | none => rfl
      | some className => exact (named?_putNamed ..).trans (if_pos hkey)
    · rw [if_neg hkey]
      congr 1
      cases inherited classes parents parent with
      | none => rfl
      | some className => exact (named?_putNamed ..).trans (if_neg hkey)

theorem settle_file (classes parents : Names) (path : String) (names : Names)
    {made : List (String × Names)} (h : path ∈ made.map Prod.fst) :
    putNamed path
        (resolveNames classes parents path names ((named? path made).getD [])).1 made =
      (names.map fun name => Visit.mk path name.1 name.2).foldl (settle classes parents) made := by
  induction names generalizing made with
  | nil =>
    obtain ⟨own, hown, -⟩ := named?_of_mem h
    rw [hown]
    exact putNamed_of_named? hown
  | cons first rest ih =>
    obtain ⟨factory, parent⟩ := first
    rw [resolveNames_cons, List.map_cons, List.foldl_cons, settle]
    cases inherited classes parents parent with
    | none => exact ih h
    | some className =>
      dsimp only
      rw [← ih (mem_keys_putNamed.mpr (.inl rfl)), named?_putNamed, if_pos rfl, putNamed_putNamed]
      rfl

/-- Files are settled by settling their names one after the other. -/
theorem resolveFiles_eq_foldl (classes parents : Names) {files : List (String × Names)}
    {made : List (String × Names)} (h : ∀ file ∈ files, file.1 ∈ made.map Prod.fst) :
    (resolveFiles classes parents files made).1 =
      (visits files).foldl (settle classes parents) made := by
  induction files generalizing made with
  | nil => rfl
  | cons file rest ih =>
    obtain ⟨path, names⟩ := file
    have hpath := h (path, names) List.mem_cons_self
    have hrest : ∀ file ∈ rest, file.1 ∈ (putNamed path (resolveNames classes parents path names
        ((named? path made).getD [])).1 made).map Prod.fst := fun file hfile =>
      mem_keys_putNamed.mpr (.inr (h file (List.mem_cons_of_mem _ hfile)))
    have hvisits : visits ((path, names) :: rest) =
        (names.map fun name => Visit.mk path name.1 name.2) ++ visits rest := List.flatMap_cons
    rw [hvisits, List.foldl_append, ← settle_file classes parents path names hpath, ← ih hrest]
    rfl

theorem entry_settle (classes parents : Names) (made : List (String × Names)) (visit : Visit)
    (path factory : String) :
    entry path factory (settle classes parents made visit) =
      (if visit.path = path ∧ visit.factory = factory then inherited classes parents visit.parent
        else none).or (entry path factory made) := by
  rw [settle]
  cases inherited classes parents visit.parent with
  | none => rw [ite_self, Option.none_or]
  | some className =>
    dsimp only
    rw [entry, named?_putNamed]
    by_cases hpath : visit.path = path
    · rw [if_pos hpath, Option.bind_some, named?_putNamed, hpath, entry]
      by_cases hfactory : visit.factory = factory
      · rw [if_pos hfactory, if_pos ⟨rfl, hfactory⟩, Option.some_or]
      · rw [if_neg hfactory, if_neg fun h => hfactory h.2, Option.none_or]
        cases named? path made with
        | none => rfl
        | some own => rfl
    · rw [if_neg hpath, if_neg fun h => hpath h.1, Option.none_or, entry]

theorem entry_settleAll (classes parents : Names) (made : List (String × Names))
    (order : List Visit) (path factory : String) :
    entry path factory (order.foldl (settle classes parents) made) =
      (order.reverse.findSome? fun visit =>
        if visit.path = path ∧ visit.factory = factory then inherited classes parents visit.parent
        else none).or (entry path factory made) := by
  induction order generalizing made with
  | nil => rfl
  | cons visit rest ih =>
    rw [List.foldl_cons, ih, entry_settle, List.reverse_cons, List.findSome?_append,
      List.findSome?_singleton, Option.or_assoc]

/-- A name in a file has one parent there. -/
theorem parent_of_visit {files : List (String × Names)} (hfiles : (files.map Prod.fst).Nodup)
    (hnames : ∀ file ∈ files, (file.2.map Prod.fst).Nodup) {visit : Visit}
    (h : visit ∈ visits files) : entry visit.path visit.factory files = some visit.parent := by
  obtain ⟨file, hfile, hvisit⟩ := List.mem_flatMap.mp h
  obtain ⟨name, hname, rfl⟩ := List.mem_map.mp hvisit
  rw [entry, named?_of_nodup hfiles hfile, Option.bind_some]
  exact named?_of_nodup (hnames file hfile) hname

/-- The order in which names are settled makes no difference. -/
theorem entry_of_perm {files : List (String × Names)} (hfiles : (files.map Prod.fst).Nodup)
    (hnames : ∀ file ∈ files, (file.2.map Prod.fst).Nodup) {order : List Visit}
    (h : order.Perm (visits files)) (classes parents : Names) (made : List (String × Names))
    (path factory : String) :
    entry path factory (order.foldl (settle classes parents) made) =
      entry path factory ((visits files).foldl (settle classes parents) made) := by
  rw [entry_settleAll, entry_settleAll]
  congr 1
  refine findSome?_perm ((List.reverse_perm order).trans (h.trans (List.reverse_perm _).symm))
    fun a ha b hb x y hx hy => ?_
  have hparent (visit : Visit) (hvisit : visit ∈ order.reverse) :=
    parent_of_visit hfiles hnames (h.mem_iff.mp (List.mem_reverse.mp hvisit))
  split at hx
  · next hat =>
    split at hy
    · next hbt =>
      have ha := hparent a ha
      have hb := hparent b hb
      rw [hat.1, hat.2] at ha
      rw [hbt.1, hbt.2, ha] at hb
      rw [Option.some.inj hb] at hx
      exact Option.some.inj (hx.symm.trans hy)
    · cases hy
  · cases hx

end Settling

/-! ## The files of an index -/

/-- The classes that a file gives itself. -/
def directClasses (t : SourceTree) : Names :=
  classesOf (declarations t)

/-- The parents that a file gives. -/
def directParents (t : SourceTree) : Names :=
  parentsOf (declarations t)

/-- What the last file that has a name gives for it. -/
def lastOf (given : SourceTree → Names) (trees : List SourceTree) (name : String) :
    Option String :=
  trees.reverse.findSome? fun t => named? name (given t)

theorem nodup_addNames (value : String) (names : List String) {made : Names}
    (h : (made.map Prod.fst).Nodup) : ((addNames value names made).map Prod.fst).Nodup := by
  induction names generalizing made with
  | nil => exact h
  | cons name rest ih => exact ih (nodup_keys_putNamed h)

theorem nodup_directClasses (t : SourceTree) : ((directClasses t).map Prod.fst).Nodup := by
  refine List.foldlRecOn (motive := fun made : Names => (made.map Prod.fst).Nodup) _ _
    List.nodup_nil fun made h r _ => ?_
  split
  · exact nodup_addNames r.className r.names h
  · exact h

theorem nodup_directParents (t : SourceTree) : ((directParents t).map Prod.fst).Nodup := by
  refine List.foldlRecOn (motive := fun made : Names => (made.map Prod.fst).Nodup) _ _
    List.nodup_nil fun made h r _ => ?_
  split
  · next parent _ => exact nodup_addNames parent r.names h
  · exact h

theorem keys_of_trees {α : Type} (trees : List SourceTree) (given : SourceTree → α) :
    (trees.map fun t => (t.path, given t)).map Prod.fst = trees.map SourceTree.path := by
  rw [List.map_map]
  rfl

/-- Files with different paths are kept one by one. -/
theorem addTree_of_nodup {trees : List SourceTree} (h : (trees.map SourceTree.path).Nodup) :
    trees.foldl addTree {} =
      ⟨trees.map fun t => (t.path, directClasses t),
        trees.map fun t => (t.path, directParents t)⟩ := by
  have hfold (index : Index) : trees.foldl addTree index =
      ⟨(trees.map fun t => (t.path, directClasses t)).foldl
          (fun made pair => putNamed pair.1 pair.2 made) index.classes,
        (trees.map fun t => (t.path, directParents t)).foldl
          (fun made pair => putNamed pair.1 pair.2 made) index.parents⟩ := by
    induction trees generalizing index with
    | nil => rfl
    | cons t rest ih => exact ih (List.nodup_cons.mp h).2 (index.addTree t)
  have hkept (given : SourceTree → Names) :
      ofPairs (trees.map fun t => (t.path, given t)) = trees.map fun t => (t.path, given t) :=
    ofPairs_of_nodup (keys_of_trees trees given ▸ h)
  rw [hfold]
  exact congrArg₂ Index.mk (hkept directClasses) (hkept directParents)

/-- Of all files together, the last that has a name counts. -/
theorem named?_merge {given : SourceTree → Names} (h : ∀ t, ((given t).map Prod.fst).Nodup)
    (trees : List SourceTree) (name : String) :
    named? name (merge (trees.map fun t => (t.path, given t))) = lastOf given trees name := by
  have hfold (made : Names) :
      named? name (((trees.map fun t => (t.path, given t)).flatMap Prod.snd).foldl
        (fun made pair => putNamed pair.1 pair.2 made) made) =
      (lastOf given trees name).or (named? name made) := by
    induction trees generalizing made with
    | nil => rfl
    | cons t rest ih =>
      rw [List.map_cons, List.flatMap_cons, List.foldl_append, ih, named?_putAll (h t), lastOf,
        lastOf, List.reverse_cons, List.findSome?_append, List.findSome?_singleton, Option.or_assoc]
  exact (hfold []).trans Option.or_none

/-- The classes of a file when its parents are settled, given the classes and parents of all
files. -/
def settled (classes parents : Names) (t : SourceTree) : Names :=
  (resolveNames classes parents t.path (directParents t) (directClasses t)).1

theorem named?_settled (classes parents : Names) (t : SourceTree) (factory : String) :
    named? factory (settled classes parents t) =
      ((named? factory (directParents t)).bind (inherited classes parents)).or
        (named? factory (directClasses t)) :=
  named?_resolveNames (nodup_directParents t) ..

theorem resolveFiles_of_nodup (classes parents : Names) (trees : List SourceTree)
    (done : List (String × Names)) (h : (done.map Prod.fst ++ trees.map SourceTree.path).Nodup) :
    (resolveFiles classes parents (trees.map fun t => (t.path, directParents t))
        (done ++ trees.map fun t => (t.path, directClasses t))).1 =
      done ++ trees.map fun t => (t.path, settled classes parents t) := by
  induction trees generalizing done with
  | nil => rfl
  | cons t rest ih =>
    have hnew : t.path ∉ done.map Prod.fst := fun hmem =>
      (List.nodup_append.mp h).2.2 t.path hmem t.path List.mem_cons_self rfl
    have hown : named? t.path (done ++ (t.path, directClasses t) ::
        rest.map fun t => (t.path, directClasses t)) = some (directClasses t) := by
      refine named?_of_nodup ?_ (List.mem_append_right done List.mem_cons_self)
      rw [List.map_append, List.map_cons, keys_of_trees]
      exact h
    have hdone : ((done ++ [(t.path, settled classes parents t)]).map Prod.fst ++
        rest.map SourceTree.path).Nodup := by
      rw [List.map_append, List.append_assoc]
      exact h
    have hrest := ih _ hdone
    rw [List.append_assoc, List.append_assoc] at hrest
    rw [List.map_cons, List.map_cons, List.map_cons, resolveFiles, hown]
    dsimp only
    rw [putNamed_append hnew]
    exact hrest

/-- The classes and the parents of all files together. -/
def allClasses (trees : List SourceTree) : Names :=
  merge (trees.map fun t => (t.path, directClasses t))

def allParents (trees : List SourceTree) : Names :=
  merge (trees.map fun t => (t.path, directParents t))

theorem resolve_of_nodup {trees : List SourceTree} (h : (trees.map SourceTree.path).Nodup) :
    (trees.foldl addTree {}).resolve.1.classes =
      trees.map fun t => (t.path, settled (allClasses trees) (allParents trees) t) := by
  rw [addTree_of_nodup h]
  exact resolveFiles_of_nodup _ _ trees [] h

theorem named?_allClasses (trees : List SourceTree) (name : String) :
    named? name (allClasses trees) = lastOf directClasses trees name :=
  named?_merge nodup_directClasses trees name

theorem named?_allParents (trees : List SourceTree) (name : String) :
    named? name (allParents trees) = lastOf directParents trees name :=
  named?_merge nodup_directParents trees name

theorem named?_of_tree {trees : List SourceTree} (h : (trees.map SourceTree.path).Nodup)
    (given : SourceTree → Names) {t : SourceTree} (ht : t ∈ trees) :
    named? t.path (trees.map fun t => (t.path, given t)) = some (given t) := by
  refine named?_of_nodup ?_ (List.mem_map_of_mem (f := fun t => (t.path, given t)) ht)
  rw [keys_of_trees]
  exact h

end Index

/-- Of files with different paths, let `built` be the classes and `up` the parents that they give,
where the last file counts.  A name with a parent builds what the name without a parent that the
parent leads to builds.  If there is no such name, or no class for it, the entry of the name stays.
In any case the way ends, and the last name on it decides.  Names are settled one by one, and they
can be settled in any order. -/
theorem parents_settled {trees : List SourceTree} (hpaths : (trees.map SourceTree.path).Nodup) :
    let built := Index.lastOf Index.directClasses trees
    let up := Index.lastOf Index.directParents trees
    let before : Index := trees.foldl Index.addTree {}
    let settle := Index.settle (Index.merge before.classes) (Index.merge before.parents)
    ∃ index, Ledger.answers {} [trees.map .ok] = [.ok index] ∧
      (∀ t ∈ trees, ∃ own, named? t.path index.classes = some own ∧
        ∀ factory parent, named? factory (Index.directParents t) = some parent →
          (∀ root, Leads up parent root → up root = none →
            named? factory own = (built root).or (named? factory (Index.directClasses t))) ∧
          ((∀ name, Leads up parent name → up name ≠ none) →
            (∀ name, Leads up parent name → built name = none) →
            named? factory own = named? factory (Index.directClasses t)) ∧
          ∃ names last, Way up parent names ∧ names.getLast? = some last ∧
            named? factory own = (built last).or (named? factory (Index.directClasses t))) ∧
      index.classes = (Index.visits before.parents).foldl settle before.classes ∧
      ∀ order : List Index.Visit, order.Perm (Index.visits before.parents) →
        ∀ path factory, Index.entry path factory (order.foldl settle before.classes) =
          Index.entry path factory index.classes := by
  intro built up before settle
  have hup : (fun name => named? name (Index.allParents trees)) = up :=
    funext (Index.named?_allParents trees)
  have hbefore : before = _ := Index.addTree_of_nodup hpaths
  have horder : before.resolve.1.classes =
      (Index.visits before.parents).foldl settle before.classes := by
    refine Index.resolveFiles_eq_foldl _ _ fun file hfile => ?_
    rw [hbefore] at hfile ⊢
    rw [Index.keys_of_trees, ← Index.keys_of_trees trees Index.directParents]
    exact List.mem_map_of_mem hfile
  refine ⟨before.resolve.1, Ledger.answers_of_read (Index.addTrees_of_read {} trees) [],
    fun t ht => ?_, horder, fun order hperm path factory => ?_⟩
  · refine ⟨Index.settled (Index.allClasses trees) (Index.allParents trees) t, ?_,
      fun factory parent hparent => ?_⟩
    · rw [Index.resolve_of_nodup hpaths]
      exact Index.named?_of_tree hpaths _ ht
    have hfactory : named? factory
        (Index.settled (Index.allClasses trees) (Index.allParents trees) t) =
        (built (Index.ancestor (Index.allParents trees) [parent] parent).1).or
          (named? factory (Index.directClasses t)) := by
      rw [Index.named?_settled, hparent, Option.bind_some, Index.inherited, Index.named?_allClasses]
    have hleads := Index.leads_ancestor (Index.allParents trees) [parent] parent
    obtain ⟨names, hway, hlast⟩ := Index.way_ancestor (Index.allParents trees) parent
    rw [hup] at hleads hway
    refine ⟨fun root hroot hnone => ?_, fun _ hbuilt => ?_, names, _, hway, hlast, hfactory⟩
    · rw [hfactory, Index.ancestor_of_leads (hup ▸ hroot)
        ((Index.named?_allParents trees root).trans hnone)]
    · rw [hfactory, hbuilt _ hleads, Option.none_or]
  · have hfiles : (before.parents.map Prod.fst).Nodup := by
      rw [hbefore, Index.keys_of_trees]
      exact hpaths
    have hnames : ∀ file ∈ before.parents, (file.2.map Prod.fst).Nodup := by
      rw [hbefore]
      intro file hfile
      obtain ⟨t, -, rfl⟩ := List.mem_map.mp hfile
      exact Index.nodup_directParents t
    rw [horder, Index.entry_of_perm hfiles hnames hperm]

/-- A call that declares a factory, with the texts of its options. -/
def declaring (name : String) (options : List (String × String)) : Branch :=
  .node .send (some "factory") "" ⟨1, 0⟩
    [none, some (.node .sym (some name) "" ⟨1, 8⟩ []),
      some (.node .hash none "" ⟨1, 9⟩ (options.map fun option =>
        some (.node .pair none "" ⟨1, 9⟩
          [some (.node .sym (some option.1) "" ⟨1, 9⟩ []),
            some (.node .str (some option.2) "" ⟨1, 9⟩ [])])))]

/-- A file with two factories that are each other's parents, and a third that has one of them as its
parent. -/
def circleFile : SourceTree where
  path := "spec/factories/circle.rb"
  root := some (.node (.other "begin") none "" ⟨1, 0⟩
    [some (declaring "left" [("parent", "right")]), some (declaring "right" [("parent", "left")]),
      some (declaring "tail" [("parent", "left")])])

theorem settled_circle :
    ([paidFile, circleFile, invoiceFile].map SourceTree.path).Nodup ∧
      ∃ index, Ledger.answers {} [[.ok paidFile, .ok circleFile, .ok invoiceFile]] = [.ok index] ∧
        (∃ own, named? "spec/factories/paid.rb" index.classes = some own ∧
          named? "paid" own = some "Invoice") ∧
        ∃ own, named? "spec/factories/circle.rb" index.classes = some own ∧
          named? "tail" own = none := by
  have hpaths : ([paidFile, circleFile, invoiceFile].map SourceTree.path).Nodup := by decide
  obtain ⟨index, hindex, hsettled, -⟩ := parents_settled hpaths
  refine ⟨hpaths, index, hindex, ?_, ?_⟩
  · obtain ⟨own, hown, hnames⟩ := hsettled paidFile (by simp)
    refine ⟨own, hown, ?_⟩
    rw [(hnames "paid" "invoice" (by decide +kernel)).1 "invoice" .refl (by decide +kernel)]
    decide +kernel
  · obtain ⟨own, hown, hnames⟩ := hsettled circleFile (by simp)
    have hreached (name : String)
        (h : Leads (Index.lastOf Index.directParents [paidFile, circleFile, invoiceFile]) "left"
          name) : name = "left" ∨ name = "right" := by
      induction h with
      | refl => exact .inl rfl
      | tail _ hstep ih =>
        rcases ih with rfl | rfl
        · have hleft : Index.lastOf Index.directParents [paidFile, circleFile, invoiceFile] "left" =
              some "right" := by decide +kernel
          exact .inr (Option.some.inj (hstep.symm.trans hleft))
        · have hright : Index.lastOf Index.directParents [paidFile, circleFile, invoiceFile]
              "right" = some "left" := by decide +kernel
          exact .inl (Option.some.inj (hstep.symm.trans hright))
    refine ⟨own, hown, ?_⟩
    rw [(hnames "tail" "left" (by decide +kernel)).2.1]
    · decide +kernel
    · intro name hname
      rcases hreached name hname with rfl | rfl <;> decide +kernel
    · intro name hname
      rcases hreached name hname with rfl | rfl <;> decide +kernel

end Factory
end Bulkhead
