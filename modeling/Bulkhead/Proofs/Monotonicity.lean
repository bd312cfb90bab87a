/-
The policy is monotone.

A change to the settings, to the published lists or to the models acts on a reference in three
places: whether there is one, what the verdict on it is, and whether it is reported.  Each change is
followed through the three at a single node, and the lists of two whole runs are compared by going
through the nodes side by side.  `offenses_monotone` puts the results together.
-/
import Bulkhead.Outcome
import Bulkhead.Proofs.Agreement
import Bulkhead.Proofs.Policy

namespace Bulkhead

namespace Rules

/-! ## The verdict as conditions -/

/-- A verdict fails only if the published lists are needed and cannot be had. -/
theorem verdict_ok_iff {r : Rules} {reach : Reach} {current : Option String} {file : String} :
    (∃ v, r.verdict reach current file = .ok v) ↔
      (current ≠ some reach.engine → ¬Overridden r.protection reach current →
        ¬StronglyProtected r.protection reach current →
        ∃ a, r.published reach.engine = .ok a) := by
  cases hpolicy : Verdict.byPolicy r.protection reach current with
  | some v =>
    rw [verdict_of_some hpolicy]
    refine ⟨fun _ hother hnot hweak => ?_, fun _ => ⟨v, rfl⟩⟩
    rcases Verdict.decided_of_byPolicy hpolicy with hsame | hoverridden | hstrong
    · exact absurd hsame hother
    · exact absurd hoverridden hnot
    · exact absurd hstrong hweak
  | none =>
    obtain ⟨hother, hnot, hweak⟩ := Verdict.byPolicy_eq_none.mp hpolicy
    rw [verdict_of_none hpolicy]
    constructor
    · rintro ⟨v, hv⟩ _ _ _
      obtain ⟨a, ha, -⟩ := map_eq_ok.mp hv
      exact ⟨a, ha⟩
    · intro hpublished
      obtain ⟨a, ha⟩ := hpublished hother hnot hweak
      exact ⟨_, map_eq_ok.mpr ⟨a, ha, rfl⟩⟩

theorem allowed_iff {r : Rules} {reach : Reach} {current : Option String} {file : String}
    {v : Verdict} (h : r.verdict reach current file = .ok v) :
    v.allowed = true ↔ current = some reach.engine ∨ Overridden r.protection reach current ∨
      (¬StronglyProtected r.protection reach current ∧
        ∃ a, r.published reach.engine = .ok a ∧ Listed a reach file) := by
  cases hpolicy : Verdict.byPolicy r.protection reach current with
  | some v' =>
    rw [verdict_of_some hpolicy] at h
    cases h
    rw [Verdict.allowed_of_byPolicy hpolicy, ← or_assoc]
    refine (or_iff_left_of_imp fun hlisted => ?_).symm
    rcases Verdict.decided_of_byPolicy hpolicy with hsame | hoverridden | hstrong
    · exact .inl hsame
    · exact .inr hoverridden
    · exact absurd hstrong hlisted.1
  | none =>
    obtain ⟨hother, hnot, hweak⟩ := Verdict.byPolicy_eq_none.mp hpolicy
    rw [verdict_of_none hpolicy] at h
    obtain ⟨a, ha, rfl⟩ := map_eq_ok.mp h
    rw [Verdict.allowed_byArtifacts]
    simp [hother, hnot, hweak, ha]

/-! ## One reference -/

/-- The second rules ask for less: what they add to the first only lets more through. -/
structure Looser (r₁ r₂ : Rules) : Prop where
  strong : ∀ engine, r₂.protection.isStrong engine = r₁.protection.isStrong engine
  overrides : ∀ current, (r₁.protection.overridesFor current).getD [] ⊆
    (r₂.protection.overridesFor current).getD []
  engines : r₂.engines ⊆ r₁.engines
  published : ∀ engine a, r₁.published engine = .ok a → ∃ b, r₂.published engine = .ok b ∧
    a.allowlist ⊆ b.allowlist ∧ a.legacyDependents ⊆ b.legacyDependents
  isModel : ∀ name, r₂.isModel name = true → r₁.isModel name = true

/-- The second rules protect more engines strongly and are the same otherwise. -/
structure Stronger (r₁ r₂ : Rules) : Prop where
  strong : ∀ engine, r₁.protection.isStrong engine = true → r₂.protection.isStrong engine = true
  overrides : ∀ current, r₂.protection.overridesFor current = r₁.protection.overridesFor current
  engines : r₂.engines = r₁.engines
  published : r₂.published = r₁.published
  isModel : r₂.isModel = r₁.isModel

variable {r₁ r₂ : Rules} {path : String} {current : Option String} {c : Reference}
  {o : Option Offense}

theorem Looser.verdict (h : Looser r₁ r₂) {reach : Reach} {file : String} {v₁ : Verdict}
    (hv₁ : r₁.verdict reach current file = .ok v₁) :
    ∃ v₂, r₂.verdict reach current file = .ok v₂ ∧ (v₁.allowed = true → v₂.allowed = true) := by
  have hstrong : StronglyProtected r₂.protection reach current ↔
      StronglyProtected r₁.protection reach current := by
    rw [StronglyProtected, StronglyProtected, h.strong, h.strong]
  have hoverridden : Overridden r₁.protection reach current →
      Overridden r₂.protection reach current := by
    rintro ⟨name, hname, hmem⟩
    exact ⟨name, hname, h.overrides current hmem⟩
  have hok : ∃ v₂, r₂.verdict reach current file = .ok v₂ := by
    rw [verdict_ok_iff]
    intro hother hnot hweak
    obtain ⟨a, ha⟩ := verdict_ok_iff.mp ⟨v₁, hv₁⟩ hother (mt hoverridden hnot) (mt hstrong.mpr hweak)
    obtain ⟨b, hb, -⟩ := h.published _ a ha
    exact ⟨b, hb⟩
  obtain ⟨v₂, hv₂⟩ := hok
  refine ⟨v₂, hv₂, ?_⟩
  rw [allowed_iff hv₁, allowed_iff hv₂]
  rintro (hsame | hover | ⟨hweak, a, ha, hlisted⟩)
  · exact .inl hsame
  · exact .inr (.inl (hoverridden hover))
  · obtain ⟨b, hb, hallow, hlegacy⟩ := h.published _ a ha
    refine .inr (.inr ⟨mt hstrong.mp hweak, b, hb, ?_⟩)
    rcases hlisted with ⟨entry, hentry, hoccurs⟩ | hthrough | ⟨name, hname, hmem⟩
    · exact .inl ⟨entry, hlegacy hentry, hoccurs⟩
    · exact .inr (.inl hthrough)
    · exact .inr (.inr ⟨name, hname, hallow hmem⟩)

theorem Stronger.verdict (h : Stronger r₁ r₂) {reach : Reach} {file : String} {v₁ : Verdict}
    (hv₁ : r₁.verdict reach current file = .ok v₁) :
    ∃ v₂, r₂.verdict reach current file = .ok v₂ ∧ (v₂.allowed = true → v₁.allowed = true) := by
  have hstrong : StronglyProtected r₁.protection reach current →
      StronglyProtected r₂.protection reach current :=
    Or.imp (h.strong _) (h.strong _)
  have hoverridden : Overridden r₂.protection reach current ↔
      Overridden r₁.protection reach current := by
    rw [Overridden, Overridden, h.overrides]
  have hok : ∃ v₂, r₂.verdict reach current file = .ok v₂ := by
    rw [verdict_ok_iff, h.published]
    intro hother hnot hweak
    exact verdict_ok_iff.mp ⟨v₁, hv₁⟩ hother (mt hoverridden.mpr hnot) (mt hstrong hweak)
  obtain ⟨v₂, hv₂⟩ := hok
  refine ⟨v₂, hv₂, ?_⟩
  rw [allowed_iff hv₁, allowed_iff hv₂, hoverridden, h.published]
  exact Or.imp_right (Or.imp_right (And.imp_left (mt hstrong)))

/-- A refusal that is reported stays one when less is let through and more is of concern. -/
theorem reported_of_reported {v v' : Verdict} {concerned concerned' : Bool}
    (hallowed : v'.allowed = true → v.allowed = true)
    (hconcerned : concerned = true → concerned' = true)
    (h : (!v.allowed && concerned) = true) : (!v'.allowed && concerned') = true := by
  rw [Bool.and_eq_true_iff, Bool.not_eq_true', ← Bool.not_eq_true] at h ⊢
  exact ⟨mt hallowed h.1, hconcerned h.2⟩

theorem Looser.offense? (h : Looser r₁ r₂) (ho : r₁.offense? path current c = .ok o) :
    ∃ o', r₂.offense? path current c = .ok o' ∧ o'.toList.Sublist o.toList := by
  obtain ⟨v₁, hv₁, rfl⟩ := map_eq_ok.mp ho
  obtain ⟨v₂, hv₂, hallowed⟩ := h.verdict hv₁
  refine ⟨_, map_eq_ok.mpr ⟨v₂, hv₂, rfl⟩, ?_⟩
  have hreport : r₂.report path current c = r₁.report path current c := by
    rw [report, report, Offense.messageFor, Offense.messageFor, h.strong, h.strong]
  have hconcerns (hc : r₂.concerns c.model = true) : r₁.concerns c.model = true := by
    cases hmodel : c.model with
    | none => rfl
    | some name =>
      rw [hmodel] at hc
      exact h.isModel name hc
  by_cases hreported : (!v₂.allowed && r₂.concerns c.model) = true
  · have hreported₁ := reported_of_reported hallowed hconcerns hreported
    simp only [if_pos hreported, if_pos hreported₁, hreport]
    exact List.Sublist.refl _
  · rw [if_neg hreported]
    exact List.nil_sublist _

theorem Stronger.offense? (h : Stronger r₁ r₂) (ho : r₁.offense? path current c = .ok o) :
    ∃ o', r₂.offense? path current c = .ok o' ∧
      (o.toList.map Offense.location).Sublist (o'.toList.map Offense.location) := by
  obtain ⟨v₁, hv₁, rfl⟩ := map_eq_ok.mp ho
  obtain ⟨v₂, hv₂, hallowed⟩ := h.verdict hv₁
  refine ⟨_, map_eq_ok.mpr ⟨v₂, hv₂, rfl⟩, ?_⟩
  have hconcerns : r₂.concerns c.model = r₁.concerns c.model := by
    cases hmodel : c.model with
    | none => rfl
    | some name => exact congrFun h.isModel name
  by_cases hreported : (!v₁.allowed && r₁.concerns c.model) = true
  · have hreported₂ := reported_of_reported hallowed hconcerns.trans hreported
    simp only [if_pos hreported, if_pos hreported₂]
    exact List.Sublist.refl _
  · rw [if_neg hreported]
    exact List.nil_sublist _

/-! ## One node -/

theorem Looser.choose (h : Looser r₁ r₂) (engine : String) (found : Option Reference) :
    (if r₂.engines.contains engine then found else none) = none ∨
      (if r₂.engines.contains engine then found else none) =
        if r₁.engines.contains engine then found else none := by
  by_cases hmem : engine ∈ r₂.engines
  · rw [List.contains_iff_mem.mpr hmem, List.contains_iff_mem.mpr (h.engines hmem)]
    exact .inr rfl
  · rw [if_neg (mt List.contains_iff_mem.mp hmem)]
    exact .inl rfl

theorem Looser.referenceAt (h : Looser r₁ r₂) (t : SourceTree) (current : Option String)
    (n : Node) :
    r₂.referenceAt t current n = none ∨
      r₂.referenceAt t current n = r₁.referenceAt t current n := by
  rcases referenceAt_cases t current n with
    ⟨name, reference, hreference⟩ | ⟨engine, reference, hreference⟩ | hnone
  · have hreserved : Crossing.isReserved r₂.protection current name =
        Crossing.isReserved r₁.protection current name := by
      rw [Crossing.isReserved, Crossing.isReserved, h.strong]
    rw [hreference r₁, hreference r₂, hreserved]
    split
    · exact .inr rfl
    · exact h.choose name _
  · rw [hreference r₁, hreference r₂]
    exact h.choose engine _
  · exact .inl (hnone r₂)

/-- A reference that is new with the strong protection comes from a file of an engine that is
strongly protected: it reaches into the interface of the main application. -/
theorem Stronger.referenceAt (h : Stronger r₁ r₂)
    (hfree : ∀ engine ∈ r₁.engines, ¬Crossing.mainApp.toList <+: engine.toList) (t : SourceTree)
    (current : Option String) (n : Node) :
    r₂.referenceAt t current n = r₁.referenceAt t current n ∨
      (r₁.referenceAt t current n = none ∧ r₂.protection.isStrong current = true) := by
  rcases referenceAt_cases t current n with
    ⟨name, reference, hreference⟩ | ⟨engine, reference, hreference⟩ | hnone
  · rw [hreference r₁, hreference r₂, h.engines, Crossing.isReserved, Crossing.isReserved]
    cases hmain : Crossing.mainApp.toList.isPrefixOf name.toList with
    | false => exact .inl rfl
    | true =>
      have hunprotected : ¬r₁.engines.contains name = true := fun hmem =>
        hfree name (List.contains_iff_mem.mp hmem) (List.isPrefixOf_iff_prefix.mp hmain)
      rw [if_neg hunprotected, Bool.true_and, Bool.true_and]
      cases hold : r₁.protection.isStrong current with
      | true =>
        rw [h.strong current hold]
        exact .inl rfl
      | false =>
        cases hnew : r₂.protection.isStrong current with
        | false => exact .inl rfl
        | true => exact .inr ⟨rfl, rfl⟩
  · rw [hreference r₁, hreference r₂, h.engines]
    exact .inl rfl
  · rw [hnone, hnone]
    exact .inl rfl

def offensesAt (r : Rules) (path : String) (current : Option String) :
    Option Reference → Except Failure (List Offense)
  | none => .ok []
  | some c => (r.offense? path current c).map Option.toList

/-- A way to compare the offenses of two runs, piece by piece. -/
structure Compares (S : List Offense → List Offense → Prop) : Prop where
  nil : S [] []
  append : ∀ {a b c d}, S a b → S c d → S (a ++ c) (b ++ d)

theorem compares_sublist : Compares fun old new => new.Sublist old where
  nil := List.nil_sublist _
  append := List.Sublist.append

theorem compares_locations :
    Compares fun old new => (old.map Offense.location).Sublist (new.map Offense.location) where
  nil := List.nil_sublist _
  append hfirst hrest := by
    rw [List.map_append, List.map_append]
    exact hfirst.append hrest

section Compared

variable {S : List Offense → List Offense → Prop} (hS : Compares S)

include hS

theorem offensesAt_compared {old : List Offense}
    (hoffense : ∀ c o, r₁.offense? path current c = .ok o →
      ∃ o', r₂.offense? path current c = .ok o' ∧ S o.toList o'.toList)
    {found : Option Reference} (hold : r₁.offensesAt path current found = .ok old) :
    ∃ new, r₂.offensesAt path current found = .ok new ∧ S old new := by
  cases found with
  | none =>
    cases hold
    exact ⟨[], rfl, hS.nil⟩
  | some c =>
    obtain ⟨o, ho, rfl⟩ := map_eq_ok.mp hold
    obtain ⟨o', ho', hcompared⟩ := hoffense c o ho
    exact ⟨_, map_eq_ok.mpr ⟨o', ho', rfl⟩, hcompared⟩

/-! ## All nodes -/

omit hS in
theorem offenses_cons {r : Rules} {find : Node → Option Reference} {n : Node}
    {rest : List Node} {offenses : List Offense} :
    r.offenses path current ((n :: rest).filterMap find) = .ok offenses ↔
      ∃ here below, r.offensesAt path current (find n) = .ok here ∧
        r.offenses path current (rest.filterMap find) = .ok below ∧
        offenses = here ++ below := by
  cases hfind : find n with
  | none =>
    rw [List.filterMap_cons_none hfind]
    constructor
    · exact fun h => ⟨[], offenses, rfl, h, rfl⟩
    · rintro ⟨here, below, hhere, hbelow, rfl⟩
      cases hhere
      exact hbelow
  | some c =>
    rw [List.filterMap_cons_some hfind, Rules.offenses, offensesAt, bind_eq_ok]
    constructor
    · rintro ⟨o, ho, h⟩
      obtain ⟨below, hbelow, h⟩ := bind_eq_ok.mp h
      cases h
      exact ⟨o.toList, below, map_eq_ok.mpr ⟨o, ho, rfl⟩, hbelow, rfl⟩
    · rintro ⟨here, below, hhere, hbelow, rfl⟩
      obtain ⟨o, ho, rfl⟩ := map_eq_ok.mp hhere
      exact ⟨o, ho, bind_eq_ok.mpr ⟨below, hbelow, rfl⟩⟩

theorem offenses_compared {find₁ find₂ : Node → Option Reference}
    (hnode : ∀ n old, r₁.offensesAt path current (find₁ n) = .ok old →
      ∃ new, r₂.offensesAt path current (find₂ n) = .ok new ∧ S old new)
    {nodes : List Node} {old : List Offense}
    (hold : r₁.offenses path current (nodes.filterMap find₁) = .ok old) :
    ∃ new, r₂.offenses path current (nodes.filterMap find₂) = .ok new ∧ S old new := by
  induction nodes generalizing old with
  | nil =>
    cases hold
    exact ⟨[], rfl, hS.nil⟩
  | cons n rest ih =>
    obtain ⟨here, below, hhere, hbelow, rfl⟩ := offenses_cons.mp hold
    obtain ⟨here', hhere', hcompared⟩ := hnode n here hhere
    obtain ⟨below', hbelow', hrest⟩ := ih hbelow
    exact ⟨_, offenses_cons.mpr ⟨here', below', hhere', hbelow', rfl⟩,
      hS.append hcompared hrest⟩

end Compared

theorem Looser.inspect (h : Looser r₁ r₂) {t : SourceTree} {old : List Offense}
    (howner : r₂.protection.ownerOf t.path = r₁.protection.ownerOf t.path)
    (hold : r₁.inspect t = .ok old) :
    ∃ new, r₂.inspect t = .ok new ∧ new.Sublist old := by
  rw [Rules.inspect, howner]
  refine offenses_compared compares_sublist (fun n here hhere => ?_) hold
  rcases h.referenceAt t _ n with hnone | hsame
  · rw [hnone]
    exact ⟨[], rfl, List.nil_sublist _⟩
  · rw [hsame]
    exact offensesAt_compared compares_sublist (fun c o ho => h.offense? ho) hhere

theorem Stronger.inspect (h : Stronger r₁ r₂) {t : SourceTree} {old : List Offense}
    (hfree : ∀ engine ∈ r₁.engines, ¬Crossing.mainApp.toList <+: engine.toList)
    (howner : r₂.protection.ownerOf t.path = r₁.protection.ownerOf t.path)
    (hold : r₁.inspect t = .ok old) :
    ∃ new, r₂.inspect t = .ok new ∧
      (old.map Offense.location).Sublist (new.map Offense.location) := by
  rw [Rules.inspect, howner]
  refine offenses_compared compares_locations (fun n here hhere => ?_) hold
  rcases h.referenceAt hfree t (r₁.protection.ownerOf t.path) n with hsame | ⟨hnone, hstrong⟩
  · rw [hsame]
    exact offensesAt_compared compares_locations (fun c o ho => h.offense? ho) hhere
  · rw [hnone] at hhere
    cases hhere
    cases r₂.referenceAt t (r₁.protection.ownerOf t.path) n with
    | none => exact ⟨[], rfl, List.nil_sublist _⟩
    | some c =>
      -- Whatever is reached, the file belongs to an engine that is strongly protected.
      have hok : ∃ v, r₂.verdict c.toReach (r₁.protection.ownerOf t.path) t.path = .ok v :=
        verdict_ok_iff.mpr fun _ _ hweak => absurd (.inl hstrong) hweak
      obtain ⟨v, hv⟩ := hok
      exact ⟨_, map_eq_ok.mpr ⟨_, map_eq_ok.mpr ⟨v, hv, rfl⟩, rfl⟩, List.nil_sublist _⟩

end Rules

/-! ## Situations -/

/-- All that an analysis goes by apart from the file. -/
structure Situation where
  settings : Settings
  directory : Option Path
  source : Persistence.Source
  files : FileSystem

namespace Situation

def protection (x : Situation) : Protection :=
  .ofSettings x.settings x.directory

def inspect (x : Situation) (trail : Option Audit.Trail) (t : SourceTree) :
    Except Failure (List Offense) :=
  Inspection.fresh x.settings x.directory x.source trail x.files t

def protectedEngines (x : Situation) : List String :=
  x.protection.protectedEngines (x.protection.survey x.files).1

def artifacts (x : Situation) (engine : String) : PublicApi.Artifacts :=
  x.protection.artifacts x.files engine

/-- The second situation has longer lists of what is published, of overrides and of engines without
protection, or fewer models; all else is the same. -/
structure Lenient (x y : Situation) : Prop where
  enginesPath : y.settings.enginesPath = x.settings.enginesPath
  apiPath : y.settings.apiPath = x.settings.apiPath
  names : ∀ name, name ∈ y.protection.directoryNames y.files ↔
    name ∈ x.protection.directoryNames x.files
  strong : ∀ engine, engine ∈ y.protection.strong ↔ engine ∈ x.protection.strong
  unprotected : x.protection.unprotected ⊆ y.protection.unprotected
  overrides : ∀ current, (x.protection.overridesFor current).getD [] ⊆
    (y.protection.overridesFor current).getD []
  allowlist : ∀ engine, (x.artifacts engine).allowlist ⊆ (y.artifacts engine).allowlist
  legacyDependents : ∀ engine,
    (x.artifacts engine).legacyDependents ⊆ (y.artifacts engine).legacyDependents
  models : ∀ name, (y.source name).isModel = true → (x.source name).isModel = true

/-- The situation with other engines strongly protected. -/
def withStrong (x : Situation) (names : List String) : Situation :=
  { x with settings := { x.settings with stronglyProtected := names } }

def rules (x : Situation) : Rules :=
  .found x.protection x.source x.files

theorem inspect_eq (x : Situation) (trail : Option Audit.Trail) (t : SourceTree) :
    x.inspect trail t = x.rules.inspect t :=
  fresh_eq ..

theorem Lenient.looser {x y : Situation} (h : Lenient x y) : Rules.Looser x.rules y.rules where
  strong engine := by
    cases engine with
    | none => rfl
    | some engine =>
      show y.protection.strong.contains engine = x.protection.strong.contains engine
      rw [Bool.eq_iff_iff, List.contains_iff_mem, List.contains_iff_mem, h.strong]
  overrides := h.overrides
  engines := by
    intro engine hengine
    obtain ⟨⟨name, hname, hconstant⟩, hmem⟩ := Protection.mem_protectedEngines.mp hengine
    exact Protection.mem_protectedEngines.mpr
      ⟨⟨name, (h.names name).mp hname, hconstant⟩, mt (@h.unprotected engine) hmem⟩
  published engine a ha := by
    obtain ⟨hformats, rfl⟩ := Protection.published_eq_ok ha
    have hsame : y.protection.settings.apiPath = x.protection.settings.apiPath := h.apiPath
    rw [← hsame] at hformats
    exact ⟨y.artifacts engine, Protection.published_of_formats hformats y.files engine,
      h.allowlist engine, h.legacyDependents engine⟩
  isModel := h.models

theorem constants_subset {names more : List String} (h : names ⊆ more) :
    Settings.constants names ⊆ Settings.constants more := by
  intro engine hengine
  rw [Settings.constants, mem_sortedSet, List.mem_map] at hengine ⊢
  obtain ⟨name, hname, hconstant⟩ := hengine
  exact ⟨name, h hname, hconstant⟩

theorem withStrong_stronger {x : Situation} {names : List String}
    (h : x.settings.stronglyProtected ⊆ names) :
    Rules.Stronger x.rules (x.withStrong names).rules where
  strong engine hstrong := by
    cases engine with
    | none => exact hstrong
    | some engine =>
      have hmem : engine ∈ Settings.constants x.settings.stronglyProtected :=
        List.contains_iff_mem.mp hstrong
      exact List.contains_iff_mem.mpr (constants_subset h hmem)
  overrides _ := rfl
  engines := rfl
  published := rfl
  isModel := rfl

/-- A file has no more offenses, and those it has in the same order, when lists that let references
through get longer or models get fewer.  It has offenses at all places where it had them before when
more engines are strongly protected, unless the interface of the main application is an engine. -/
theorem offenses_monotone (x : Situation) (trail : Option Audit.Trail) (t : SourceTree) :
    (Template.Formats x.settings.apiPath → ∃ old, x.inspect trail t = .ok old) ∧
    (∀ old, x.inspect trail t = .ok old →
      (∀ y, Lenient x y → ∃ new, y.inspect trail t = .ok new ∧ new.Sublist old) ∧
      (∀ names, x.settings.stronglyProtected ⊆ names →
        (∀ engine ∈ x.protectedEngines, ¬Crossing.mainApp.toList <+: engine.toList) →
        ∃ new, (x.withStrong names).inspect trail t = .ok new ∧
          (old.map Offense.location).Sublist (new.map Offense.location))) := by
  refine ⟨fun hformats => ?_, fun old hold => ⟨fun y hlenient => ?_, fun names hnames hfree => ?_⟩⟩
  · exact ⟨_, fresh_of_formats hformats x.directory x.source trail x.files t⟩
  · have howner : y.protection.ownerOf t.path = x.protection.ownerOf t.path :=
      Protection.ownerOf_congr hlenient.enginesPath t.path
    rw [inspect_eq] at hold ⊢
    exact hlenient.looser.inspect howner hold
  · have howner : (x.withStrong names).protection.ownerOf t.path = x.protection.ownerOf t.path :=
      Protection.ownerOf_congr rfl t.path
    rw [inspect_eq] at hold ⊢
    exact (withStrong_stronger hnames).inspect hfree howner hold

def watched : Situation where
  settings := billingSettings
  directory := none
  source := Persistence.ofList ["Billing::Invoice"]
  files := billingFiles

/-- The situation with other engines unprotected and another source of models. -/
def relax (x : Situation) (names : List String) (source : Persistence.Source) : Situation :=
  { x with settings := { x.settings with unprotected := names }, source := source }

theorem lenient_relax (x : Situation) {names : List String} {source : Persistence.Source}
    (hnames : x.settings.unprotected ⊆ names)
    (hmodels : ∀ name, (source name).isModel = true → (x.source name).isModel = true) :
    Lenient x (x.relax names source) where
  enginesPath := rfl
  apiPath := rfl
  names _ := Iff.rfl
  strong _ := Iff.rfl
  unprotected := constants_subset hnames
  overrides _ := List.Subset.refl _
  allowlist _ := List.Subset.refl _
  legacyDependents _ := List.Subset.refl _
  models := hmodels

theorem offenses_monotone_watched :
    ∃ old, watched.inspect none invoiceUse = .ok old ∧
      (∃ new, (watched.relax ["shop"] (Persistence.ofList [])).inspect none invoiceUse = .ok new ∧
        new.Sublist old) ∧
      (∃ new, (watched.withStrong ["billing", "shop"]).inspect none invoiceUse = .ok new ∧
        (old.map Offense.location).Sublist (new.map Offense.location)) := by
  obtain ⟨hok, hmonotone⟩ := offenses_monotone watched none invoiceUse
  obtain ⟨old, hold⟩ := hok Template.formats_default
  obtain ⟨hlenient, hstrong⟩ := hmonotone old hold
  have hrelax : Lenient watched (watched.relax ["shop"] (Persistence.ofList [])) :=
    lenient_relax watched (List.nil_subset _) nofun
  refine ⟨old, hold, hlenient _ hrelax, hstrong _ ?_ ?_⟩
  · exact List.cons_subset_cons _ (List.nil_subset _)
  · intro engine hengine
    obtain ⟨⟨name, hname, rfl⟩, -⟩ := Protection.mem_protectedEngines.mp hengine
    have hnames : watched.protection.directoryNames watched.files = ["billing"] := by
      decide +kernel
    rw [hnames] at hname
    cases List.mem_singleton.mp hname
    decide +kernel

end Situation
end Bulkhead
