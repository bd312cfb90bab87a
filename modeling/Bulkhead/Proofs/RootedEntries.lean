/-
Entries that start with a separator.

In a published list, or in a list of overrides, a module can be written as `::Billing::Invoice`.
The lists are kept as they are written, while the names of a reference are compared without the
colons in front of them.  So such an entry matches no reference: the verdict is the one without the
entry.  `rooted_entries_idle` says so, and which references would be allowed if the separator in
front of the entries were taken off.
-/
import Mathlib.Data.List.Find
import Bulkhead.Proofs.Monotonicity

namespace Bulkhead

/-! ## Names with a separator in front -/

namespace Constant

/-- The name with a separator in front of it. -/
def rooted (name : String) : String :=
  "::" ++ name

def isRooted (name : String) : Bool :=
  separator.isPrefixOf name.toList

/-- The name without the separator in front of it, if there is one. -/
def unrooted (name : String) : String :=
  if isRooted name then String.ofList (name.toList.drop separator.length) else name

theorem toList_rooted (name : String) : (rooted name).toList = ':' :: ':' :: name.toList := by
  rw [rooted, String.toList_append]
  rfl

theorem isRooted_rooted (name : String) : isRooted (rooted name) = true := by
  rw [isRooted, toList_rooted]
  rfl

theorem unrooted_rooted (name : String) : unrooted (rooted name) = name := by
  rw [unrooted, if_pos (isRooted_rooted name), toList_rooted]
  exact String.ofList_toList

theorem unrooted_of_not {name : String} (h : isRooted name = false) : unrooted name = name := by
  rw [unrooted, h]
  rfl

theorem eq_rooted {name : String} (h : isRooted name = true) : name = rooted (unrooted name) := by
  obtain ⟨rest, hrest⟩ := List.isPrefixOf_iff_prefix.mp h
  have hname : name = rooted (String.ofList rest) := by
    rw [← String.toList_inj, toList_rooted, String.toList_ofList, ← hrest]
    rfl
  rw [hname, unrooted_rooted]

/-- The entry stands for the name, with or without a separator. -/
theorem unrooted_eq_iff {entry name : String} (h : isRooted name = false) :
    unrooted entry = name ↔ entry = name ∨ entry = rooted name := by
  cases hentry : isRooted entry with
  | true =>
    have hne : entry ≠ name := by
      rintro rfl
      rw [h] at hentry
      cases hentry
    rw [or_iff_right hne]
    refine ⟨fun hname => hname ▸ eq_rooted hentry, fun hname => ?_⟩
    rw [hname, unrooted_rooted]
  | false =>
    have hne : entry ≠ rooted name := by
      rintro rfl
      rw [isRooted_rooted] at hentry
      cases hentry
    rw [or_iff_left hne, unrooted_of_not hentry]

theorem mem_map_unrooted {entries : List String} {name : String} (h : isRooted name = false) :
    name ∈ entries.map unrooted ↔ name ∈ entries ∨ rooted name ∈ entries := by
  rw [List.mem_map]
  constructor
  · rintro ⟨entry, hentry, hname⟩
    rcases (unrooted_eq_iff h).mp hname with rfl | rfl
    · exact .inl hentry
    · exact .inr hentry
  · rintro (hentry | hentry)
    · exact ⟨name, hentry, unrooted_of_not h⟩
    · exact ⟨rooted name, hentry, unrooted_rooted name⟩

theorem isRooted_bare (name : String) : isRooted (bare name) = false := by
  have hhead := List.head?_dropWhile_not (· == ':') name.toList
  rw [isRooted, bare, String.toList_ofList]
  generalize name.toList.dropWhile (· == ':') = rest at hhead
  cases rest with
  | nil => rfl
  | cons first rest =>
    have hfirst : (first == ':') = false := hhead
    rw [separator, List.isPrefixOf_cons_cons, BEq.comm, hfirst, Bool.false_and]

end Constant

/-! ## The names of a reference -/

/-- No name that is compared with a list starts with a separator. -/
def Reach.IsBare (r : Reach) : Prop :=
  ∀ name ∈ r.engine :: r.lineage, Constant.isRooted name = false

/-- An override names what is reached, but for a separator in front. -/
def RootedOverride (p : Protection) (r : Reach) (current : Option String) : Prop :=
  ∃ name ∈ r.engine :: r.lineage, Constant.rooted name ∈ (p.overridesFor current).getD []

/-- An entry of the published list names what is reached, but for a separator in front. -/
def RootedEntry (a : PublicApi.Artifacts) (r : Reach) : Prop :=
  ∃ name ∈ r.lineage, Constant.rooted name ∈ a.allowlist

namespace Crossing

theorem isBare_ofConst {p : Protection} {engines : List String} {t : SourceTree}
    {current : Option String} {depth : Int} {n : Node} {c : Crossing}
    (hengines : ∀ engine ∈ engines, Constant.isRooted engine = false)
    (h : ofConst p engines t current depth n = some c) : c.toReach.IsBare := by
  rw [ofConst] at h
  split at h
  · obtain ⟨engine, hengine, rfl⟩ := Option.map_eq_some_iff.mp h
    intro name hname
    rcases List.mem_cons.mp hname with rfl | hname
    · rw [engineNamed] at hengine
      split at hengine
      · cases hengine
      · split at hengine
        · cases hengine
          rfl
        · split at hengine
          · next hcontains =>
            cases hengine
            exact hengines _ (List.contains_iff_mem.mp hcontains)
          · cases hengine
    · obtain ⟨node, -, rfl⟩ := List.mem_map.mp hname
      exact Constant.isRooted_bare _
  · cases h

theorem isBare_ofAssociation {engines : List String} {t : SourceTree} {n : Node} {c : Crossing}
    (hengines : ∀ engine ∈ engines, Constant.isRooted engine = false)
    (h : ofAssociation engines t n = some c) : c.toReach.IsBare := by
  rw [ofAssociation] at h
  split at h
  · cases h
  · next node className hassociated =>
    split at h
    · cases h
    · split at h
      · next hcontains =>
        cases h
        intro name hname
        rcases List.mem_cons.mp hname with rfl | hname
        · exact hengines _ (List.contains_iff_mem.mp hcontains)
        · obtain rfl := List.mem_singleton.mp hname
          rw [associated?] at hassociated
          split at hassociated
          · cases hassociated
          · split at hassociated
            · cases hassociated
            · split at hassociated
              · cases hassociated
              · cases hassociated
                exact Constant.isRooted_bare _
      · cases h

end Crossing

/-- The names of a reference are bare, unless an engine has a name that is not. -/
theorem Rules.isBare_crossingAt {r : Rules} {t : SourceTree} {current : Option String} {n : Node}
    {found : String × Crossing} (hengines : ∀ engine ∈ r.engines, Constant.isRooted engine = false)
    (h : r.crossingAt t current n = some found) : found.2.toReach.IsBare := by
  rw [crossingAt] at h
  split at h
  · obtain ⟨c, hc, rfl⟩ := Option.map_eq_some_iff.mp h
    exact Crossing.isBare_ofConst hengines hc
  · obtain ⟨c, hc, rfl⟩ := Option.map_eq_some_iff.mp h
    exact Crossing.isBare_ofAssociation hengines hc
  · cases h

/-! ## Verdicts -/

namespace Situation

def session (x : Situation) : Session :=
  .start x.settings x.directory x.source none

/-- The reference at a node, as a session that has seen nothing yet finds it. -/
def classify (x : Situation) (t : SourceTree) (current : Option String) (n : Node) :
    Option (String × Crossing) :=
  ((Inspection.crossingAt x.files t current n).run x.session).1

/-- The verdict of a session that has seen nothing yet. -/
def decide (x : Situation) (reach : Reach) (current : Option String) (file : String) :
    Except Failure Verdict :=
  ((Session.judge x.files reach current file).run.run x.session).1

/-- The verdict can be had, and it allows the reference. -/
def Allows (x : Situation) (reach : Reach) (current : Option String) (file : String) : Prop :=
  ∃ v, x.decide reach current file = .ok v ∧ v.allowed = true

theorem protection_rules (x : Situation) : x.rules.protection = x.protection :=
  rfl

theorem classify_eq (x : Situation) (t : SourceTree) (current : Option String) (n : Node) :
    x.classify t current n = x.rules.crossingAt t current n :=
  (yields_crossingAt (carries_agrees _ _ _) (fun _ => x.protection.obstacle?_clear x.files) _
    (agrees_start ..)).1

theorem decide_eq (x : Situation) (reach : Reach) (current : Option String) (file : String) :
    x.decide reach current file = x.rules.verdict reach current file :=
  (settles_judge (carries_agrees _ _ _) file
    (fun _ => settles_artifacts (x.protection.obstacle?_clear x.files) reach.engine) _
    (agrees_start ..)).1

theorem published_iff {x : Situation} {engine : String} {a : PublicApi.Artifacts} :
    x.rules.published engine = .ok a ↔
      Template.Formats x.settings.apiPath ∧ x.artifacts engine = a := by
  constructor
  · intro h
    obtain ⟨hformats, rfl⟩ := Protection.published_eq_ok h
    exact ⟨hformats, rfl⟩
  · rintro ⟨hformats, rfl⟩
    exact Protection.published_of_formats (p := x.protection) hformats x.files engine

/-- If the published list has an entry, then the API directory could be named. -/
theorem formats_of_mem {x : Situation} {engine entry : String}
    (h : entry ∈ (x.artifacts engine).allowlist) : Template.Formats x.settings.apiPath := by
  cases hdirectory : x.protection.apiDirectory x.files engine with
  | error fault =>
    rw [artifacts, Protection.artifacts, hdirectory] at h
    cases h
  | ok directory =>
    have hpublished : x.rules.published engine = .ok (x.artifacts engine) := by
      show x.protection.published x.files engine = .ok (x.protection.artifacts x.files engine)
      rw [Protection.published, Protection.artifacts, hdirectory]
      exact PublicApi.Catalog.lookAt_clear ..
    exact (published_iff.mp hpublished).1

section

variable {x : Situation} {reach : Reach} {current : Option String} {file : String}

/-- The policy decides, and where it leaves it open the published lists do. -/
theorem decide_eq_ok_iff {v : Verdict} :
    x.decide reach current file = .ok v ↔
      Verdict.byPolicy x.protection reach current = some v ∨
      (Verdict.byPolicy x.protection reach current = none ∧
        Template.Formats x.settings.apiPath ∧
        Verdict.byArtifacts (x.artifacts reach.engine) reach file = v) := by
  rw [decide_eq, ← protection_rules]
  cases hpolicy : Verdict.byPolicy x.rules.protection reach current with
  | some w => simp [Rules.verdict_of_some hpolicy]
  | none =>
    simp only [Rules.verdict_of_none hpolicy, map_eq_ok, published_iff, reduceCtorEq, false_or,
      true_and]
    constructor
    · rintro ⟨_, ⟨hformats, rfl⟩, hv⟩
      exact ⟨hformats, hv⟩
    · rintro ⟨hformats, hv⟩
      exact ⟨_, ⟨hformats, rfl⟩, hv⟩

theorem decides_iff :
    (∃ v, x.decide reach current file = .ok v) ↔
      (current ≠ some reach.engine → ¬Overridden x.protection reach current →
        ¬StronglyProtected x.protection reach current →
        Template.Formats x.settings.apiPath) := by
  simp only [decide_eq, Rules.verdict_ok_iff, protection_rules, published_iff, exists_and_left,
    exists_eq', and_true]

theorem allows_iff :
    x.Allows reach current file ↔
      current = some reach.engine ∨ Overridden x.protection reach current ∨
      (¬StronglyProtected x.protection reach current ∧ Template.Formats x.settings.apiPath ∧
        Listed (x.artifacts reach.engine) reach file) := by
  have hlisted : (∃ a, x.rules.published reach.engine = .ok a ∧ Listed a reach file) ↔
      Template.Formats x.settings.apiPath ∧ Listed (x.artifacts reach.engine) reach file := by
    simp only [published_iff, and_assoc, exists_and_left, exists_eq_left']
  constructor
  · rintro ⟨v, hv, hallowed⟩
    rw [decide_eq] at hv
    rw [← hlisted]
    exact (Rules.allowed_iff hv).mp hallowed
  · intro h
    have hdecides : ∃ v, x.decide reach current file = .ok v :=
      decides_iff.mpr fun hother hnot _ =>
        ((h.resolve_left hother).resolve_left hnot).2.1
    obtain ⟨v, hv⟩ := hdecides
    refine ⟨v, hv, ?_⟩
    rw [decide_eq] at hv
    rw [← hlisted] at h
    exact (Rules.allowed_iff hv).mpr h

end

/-- The lists of the second situation are made from those of the first; all else that a verdict on a
reach into the engine goes by is the same. -/
structure Relisted (change : List String → List String) (engine : String) (x y : Situation) :
    Prop where
  apiPath : y.settings.apiPath = x.settings.apiPath
  strong : ∀ name, y.protection.isStrong name = x.protection.isStrong name
  overrides : ∀ current, (y.protection.overridesFor current).getD [] =
    change ((x.protection.overridesFor current).getD [])
  allowlist : (y.artifacts engine).allowlist = change (x.artifacts engine).allowlist
  legacyDependents :
    (y.artifacts engine).legacyDependents = (x.artifacts engine).legacyDependents

namespace Relisted

variable {change : List String → List String} {x y : Situation} {reach : Reach}
  {current : Option String} {file : String}

/-- A list has no say in a verdict but by the names of the reference that it contains. -/
theorem decide_iff (h : Relisted change reach.engine x y)
    (hsame : ∀ name ∈ reach.engine :: reach.lineage, ∀ entries : List String,
      (change entries).contains name = entries.contains name) {v : Verdict} :
    y.decide reach current file = .ok v ↔ x.decide reach current file = .ok v := by
  have hoverriding : Verdict.overriding? y.protection reach current =
      Verdict.overriding? x.protection reach current := by
    rw [Verdict.overriding?, Verdict.overriding?, h.overrides]
    exact List.find?_congr fun name hname => hsame name hname _
  have hpolicy : Verdict.byPolicy y.protection reach current =
      Verdict.byPolicy x.protection reach current := by
    rw [Verdict.byPolicy, Verdict.byPolicy, hoverriding, h.strong, h.strong]
  have hlisted : reach.lineage.find? (y.artifacts reach.engine).allowlist.contains =
      reach.lineage.find? (x.artifacts reach.engine).allowlist.contains := by
    rw [h.allowlist]
    exact List.find?_congr fun name hname => hsame name (List.mem_cons_of_mem _ hname) _
  have hlegacy : Verdict.legacyEntry? (y.artifacts reach.engine) file =
      Verdict.legacyEntry? (x.artifacts reach.engine) file := by
    rw [Verdict.legacyEntry?, Verdict.legacyEntry?, h.legacyDependents]
  have hartifacts : Verdict.byArtifacts (y.artifacts reach.engine) reach file =
      Verdict.byArtifacts (x.artifacts reach.engine) reach file := by
    rw [Verdict.byArtifacts, Verdict.byArtifacts, hlegacy, hlisted]
  rw [decide_eq_ok_iff, decide_eq_ok_iff, hpolicy, hartifacts, h.apiPath]

theorem stronglyProtected (h : Relisted change reach.engine x y) :
    StronglyProtected y.protection reach current ↔
      StronglyProtected x.protection reach current := by
  rw [StronglyProtected, StronglyProtected, h.strong, h.strong]

theorem overridden (h : Relisted (·.map Constant.unrooted) reach.engine x y)
    (hbare : reach.IsBare) :
    Overridden y.protection reach current ↔
      Overridden x.protection reach current ∨ RootedOverride x.protection reach current := by
  rw [Overridden, Overridden, RootedOverride, h.overrides, ← exists_or]
  refine exists_congr fun name => ?_
  rw [← and_or_left]
  exact and_congr_right fun hname => Constant.mem_map_unrooted (hbare name hname)

theorem listed (h : Relisted (·.map Constant.unrooted) reach.engine x y) (hbare : reach.IsBare) :
    Listed (y.artifacts reach.engine) reach file ↔
      Listed (x.artifacts reach.engine) reach file ∨
        RootedEntry (x.artifacts reach.engine) reach := by
  have hallow : (∃ name ∈ reach.lineage, name ∈ (y.artifacts reach.engine).allowlist) ↔
      (∃ name ∈ reach.lineage, name ∈ (x.artifacts reach.engine).allowlist) ∨
        RootedEntry (x.artifacts reach.engine) reach := by
    rw [RootedEntry, h.allowlist, ← exists_or]
    refine exists_congr fun name => ?_
    rw [← and_or_left]
    exact and_congr_right fun hname =>
      Constant.mem_map_unrooted (hbare name (List.mem_cons_of_mem _ hname))
  rw [Listed, Listed, h.legacyDependents, hallow, or_assoc, or_assoc]

/-- Taking off the separators makes no verdict fail. -/
theorem decides (h : Relisted (·.map Constant.unrooted) reach.engine x y) (hbare : reach.IsBare)
    (hdecides : ∃ v, x.decide reach current file = .ok v) :
    ∃ v, y.decide reach current file = .ok v := by
  rw [decides_iff] at hdecides ⊢
  rw [h.overridden hbare, h.stronglyProtected, h.apiPath]
  exact fun hother hnot => hdecides hother (mt Or.inl hnot)

/-- Taking off the separators lets through what the entries with a separator name. -/
theorem allows (h : Relisted (·.map Constant.unrooted) reach.engine x y) (hbare : reach.IsBare) :
    y.Allows reach current file ↔
      x.Allows reach current file ∨ RootedOverride x.protection reach current ∨
      (¬StronglyProtected x.protection reach current ∧
        RootedEntry (x.artifacts reach.engine) reach) := by
  have hformats : RootedEntry (x.artifacts reach.engine) reach →
      Template.Formats x.settings.apiPath := fun ⟨_, _, hentry⟩ => formats_of_mem hentry
  rw [allows_iff, allows_iff, h.overridden hbare, h.stronglyProtected, h.listed hbare, h.apiPath]
  tauto

end Relisted

/-- An entry that starts with a separator matches no reference, provided that no engine has a name
that starts with one: without these entries the verdict is the same.  Without the separators a
reference is allowed that was allowed before, and besides one that such an entry names: in the
overrides, or in the published list if neither side is strongly protected. -/
theorem rooted_entries_idle (x : Situation)
    (hengines : ∀ engine ∈ x.protectedEngines, Constant.isRooted engine = false)
    {t : SourceTree} {owner : Option String} {n : Node} {found : String × Crossing}
    (hfound : x.classify t owner n = some found) (current : Option String) (file : String) :
    (∀ y, Relisted (·.filter fun entry => !Constant.isRooted entry) found.2.engine x y →
      ∀ v, y.decide found.2.toReach current file = .ok v ↔
        x.decide found.2.toReach current file = .ok v) ∧
    ∀ y, Relisted (·.map Constant.unrooted) found.2.engine x y →
      ((∃ v, x.decide found.2.toReach current file = .ok v) →
        ∃ v, y.decide found.2.toReach current file = .ok v) ∧
      (y.Allows found.2.toReach current file ↔
        x.Allows found.2.toReach current file ∨
        RootedOverride x.protection found.2.toReach current ∨
        (¬StronglyProtected x.protection found.2.toReach current ∧
          RootedEntry (x.artifacts found.2.engine) found.2.toReach)) := by
  rw [classify_eq] at hfound
  have hbare := Rules.isBare_crossingAt hengines hfound
  refine ⟨fun y hy v => hy.decide_iff fun name hname entries => ?_,
    fun y hy => ⟨hy.decides hbare, hy.allows hbare⟩⟩
  rw [Bool.eq_iff_iff, List.contains_iff_mem, List.contains_iff_mem, List.mem_filter,
    hbare name hname]
  exact and_iff_left rfl

/-- No engine is strongly protected. -/
def openSettings : Settings :=
  { billingSettings with stronglyProtected := [] }

/-- One engine, which publishes the given entry. -/
def publishing (entry : String) : Situation where
  settings := openSettings
  directory := none
  source := Persistence.ofList ["Billing::Invoice"]
  files :=
    { entries := billingFiles.entries ++
        [(["engines", "billing", "app"], .directory),
          (["engines", "billing", "app", "api"], .directory),
          (["engines", "billing", "app", "api", "billing"], .directory),
          (["engines", "billing", "app", "api", "billing", "api"], .directory),
          (["engines", "billing", "app", "api", "billing", "api", "_allowlist.rb"],
            .file ("module Api::Allowlist\nPUBLIC_MODULES = [" ++ entry ++ "]\nend").toUTF8 0)] }

/-- The reference of `invoiceUse`. -/
def invoiceCrossing : Crossing where
  engine := "Billing"
  lineage := ["Billing", "Billing::Invoice"]
  throughApi := false
  node :=
    { index := 1
      kind := .const
      value := some "Billing"
      parent := some 0
      slots := [none]
      source := "Billing"
      location := ⟨3, 2⟩ }
  model := some "Billing::Invoice"

theorem artifacts_publishing :
    ∀ entry ∈ ["::Billing::Invoice", "Billing::Invoice"],
      (publishing entry).artifacts "Billing" = ⟨[entry], []⟩ := by
  decide +kernel

theorem policy_open :
    Verdict.byPolicy (.ofSettings openSettings none) invoiceCrossing.toReach none = none := by
  decide +kernel

theorem decide_publishing {entry : String} {lists : PublicApi.Artifacts}
    (hlists : (publishing entry).artifacts "Billing" = lists) (file : String) :
    (publishing entry).decide invoiceCrossing.toReach none file =
      .ok (Verdict.byArtifacts lists invoiceCrossing.toReach file) := by
  have hpolicy : Verdict.byPolicy (publishing entry).protection invoiceCrossing.toReach none =
      none := policy_open
  have hformats : Template.Formats (publishing entry).settings.apiPath := Template.formats_default
  rw [← hlists]
  exact decide_eq_ok_iff.mpr (.inr ⟨hpolicy, hformats, rfl⟩)

theorem classify_publishing :
    (publishing "::Billing::Invoice").classify invoiceUse none invoiceCrossing.node =
      some ("const", invoiceCrossing) := by
  decide +kernel

theorem relisted_publishing :
    Relisted (·.map Constant.unrooted) "Billing" (publishing "::Billing::Invoice")
      (publishing "Billing::Invoice") where
  apiPath := rfl
  strong _ := rfl
  overrides current := by cases current <;> rfl
  allowlist := by
    rw [artifacts_publishing _ (.head _), artifacts_publishing _ (.tail _ (.head _))]
    decide +kernel
  legacyDependents := by
    rw [artifacts_publishing _ (.head _), artifacts_publishing _ (.tail _ (.head _))]

theorem decide_rooted_invoice :
    (publishing "::Billing::Invoice").decide invoiceCrossing.toReach none "app/models/order.rb" =
      .ok ⟨.noApiAccess, none⟩ := by
  have hverdict : Verdict.byArtifacts ⟨["::Billing::Invoice"], []⟩ invoiceCrossing.toReach
      "app/models/order.rb" = ⟨.noApiAccess, none⟩ := by decide +kernel
  rw [decide_publishing (artifacts_publishing _ (.head _)), hverdict]

theorem rooted_entries_publishing :
    (publishing "Billing::Invoice").Allows invoiceCrossing.toReach none "app/models/order.rb" := by
  have hengines : ∀ engine ∈ (publishing "::Billing::Invoice").protectedEngines,
      Constant.isRooted engine = false := by decide +kernel
  have hweak : ¬StronglyProtected (publishing "::Billing::Invoice").protection
      invoiceCrossing.toReach none := by
    rw [StronglyProtected]
    decide +kernel
  have hentry : RootedEntry ((publishing "::Billing::Invoice").artifacts "Billing")
      invoiceCrossing.toReach := by
    rw [artifacts_publishing _ (.head _)]
    exact ⟨"Billing::Invoice", by decide, by decide +kernel⟩
  obtain ⟨-, hunrooted⟩ :=
    rooted_entries_idle (publishing "::Billing::Invoice") hengines classify_publishing none
      "app/models/order.rb"
  exact (hunrooted _ relisted_publishing).2.mpr (.inr (.inr ⟨hweak, hentry⟩))

/-- The same module, published in the two spellings: the reference is refused and allowed. -/
theorem rooted_invoice_refused :
    Relisted (·.map Constant.unrooted) "Billing" (publishing "::Billing::Invoice")
      (publishing "Billing::Invoice") ∧
    (publishing "::Billing::Invoice").classify invoiceUse none invoiceCrossing.node =
      some ("const", invoiceCrossing) ∧
    (publishing "::Billing::Invoice").decide invoiceCrossing.toReach none "app/models/order.rb" =
      .ok ⟨.noApiAccess, none⟩ ∧
    (publishing "Billing::Invoice").decide invoiceCrossing.toReach none "app/models/order.rb" =
      .ok ⟨.allowlisted, some "Billing::Invoice"⟩ := by
  have hverdict : Verdict.byArtifacts ⟨["Billing::Invoice"], []⟩ invoiceCrossing.toReach
      "app/models/order.rb" = ⟨.allowlisted, some "Billing::Invoice"⟩ := by decide +kernel
  refine ⟨relisted_publishing, classify_publishing, decide_rooted_invoice, ?_⟩
  rw [decide_publishing (artifacts_publishing _ (.tail _ (.head _))), hverdict]

end Situation
end Bulkhead
