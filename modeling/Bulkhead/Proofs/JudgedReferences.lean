/-
Which references of a file are judged, whatever the session has seen before.

A session may have looked at the engines long ago; what it found then is what it goes by, and no
operation of an inspection changes that.  So the references that are judged are those at the nodes
as the session at the beginning would tell them, in reading order, up to one on which there is no
verdict.  There is a verdict on each if the template for the API directories can be filled in.
-/
import Bulkhead.Proofs.Questions

namespace Bulkhead

namespace Session

/-- The protected engines as the session has them, or as it would find them. -/
def listed (fs : FileSystem) (s : Session) : List String :=
  s.protectedEngines.getD
    (s.protection.protectedEngines (s.engines.getD (s.protection.survey fs).1))

/-- A session after another, with the same engines and without a new event. -/
structure Persists (fs : FileSystem) (s s' : Session) : Prop where
  listed : s'.listed fs = s.listed fs
  trail : s'.trail = s.trail

theorem Persists.trans {fs : FileSystem} {s₁ s₂ s₃ : Session} (h₁ : Persists fs s₁ s₂)
    (h₂ : Persists fs s₂ s₃) : Persists fs s₁ s₃ :=
  ⟨h₂.listed.trans h₁.listed, h₂.trail.trans h₁.trail⟩

theorem run_guarded (fs : FileSystem) (s : Session) :
    ((guarded fs).run s).1 = s.listed fs := by
  unfold guarded listed
  rw [StateT.run_bind, StateT.run_get, pure_bind]
  cases s.protectedEngines with
  | some engines => rfl
  | none => exact congrArg s.protection.protectedEngines (run_allEngines fs s).1

end Session

/-- The work changes nothing about the engines and emits no event. -/
def Calm {α : Type} (fs : FileSystem) (x : Steady α) : Prop :=
  ∀ s : Session, s.Persists fs (x.run s).2

namespace Calm

variable {α β : Type} {fs : FileSystem}

theorem of_pure (a : α) : Calm fs (pure a) :=
  fun _ => ⟨rfl, rfl⟩

theorem of_bind {x : Steady α} {f : α → Steady β} (hx : Calm fs x) (hf : ∀ a, Calm fs (f a)) :
    Calm fs (x >>= f) :=
  fun s => (hx s).trans (hf (x.run s).1 (x.run s).2)

theorem of_get {f : Session → Steady β} (hf : ∀ s, Calm fs (f s)) : Calm fs (get >>= f) :=
  fun s => hf s s

theorem of_modify {f : Session → Session} (hf : ∀ s : Session, s.Persists fs (f s)) :
    Calm fs (modify f) :=
  hf

theorem of_work {x : Work α} {f : α → Work β} (hx : Calm fs x.run) (hf : ∀ a, Calm fs (f a).run) :
    Calm fs (x >>= f).run := by
  rw [ExceptT.run_bind]
  refine of_bind hx fun r => ?_
  cases r with
  | ok a => exact hf a
  | error failure => exact of_pure _

theorem of_steady {x : Steady α} {f : α → Work β} (hx : Calm fs x) (hf : ∀ a, Calm fs (f a).run) :
    Calm fs (ExceptT.run ((liftM x : Work α) >>= f)) :=
  of_work (fun s => hx s) hf

theorem of_work_get {f : Session → Work β} (hf : ∀ s, Calm fs (f s).run) :
    Calm fs (ExceptT.run (get >>= f)) :=
  fun s => hf s s

end Calm

/-! ## The operations -/

section Operations

variable (fs : FileSystem)

theorem calm_write (notes : List Note) : Calm fs (Session.write notes) :=
  .of_modify fun _ => ⟨rfl, rfl⟩

theorem calm_allEngines : Calm fs (Session.allEngines fs) := by
  rintro ⟨protection, catalog, source, engines, guarded, memo, trail, journal⟩
  cases engines with
  | some engines => exact ⟨rfl, rfl⟩
  | none => exact ⟨rfl, rfl⟩

theorem calm_guarded : Calm fs (Session.guarded fs) := by
  rintro ⟨protection, catalog, source, engines, guarded, memo, trail, journal⟩
  cases guarded with
  | some engines => exact ⟨rfl, rfl⟩
  | none =>
    cases engines with
    | some engines => exact ⟨rfl, rfl⟩
    | none => exact ⟨rfl, rfl⟩

theorem calm_guardedIf (needed : Bool) : Calm fs (Session.guardedIf needed fs) := by
  cases needed with
  | true => exact calm_guarded fs
  | false => exact .of_pure _

theorem calm_crossingAt (t : SourceTree) (current : Option String) (n : Node) :
    Calm fs (Inspection.crossingAt fs t current n) := by
  unfold Inspection.crossingAt
  cases n.kind with
  | const =>
    refine .of_bind (.of_get fun s => ?_) fun _ => .of_pure _
    exact .of_bind (calm_guardedIf fs _) fun _ => .of_pure _
  | send => exact .of_bind (.of_bind (calm_guardedIf fs _) fun _ => .of_pure _) fun _ => .of_pure _
  | _ => exact .of_pure _

theorem calm_apiDirectory (engine : String) : Calm fs (Session.apiDirectory fs engine).run := by
  rw [Session.apiDirectory, Session.requireEngines_clear, pure_bind]
  refine .of_steady (calm_allEngines fs) fun engines => .of_work_get fun s => ?_
  cases s.catalog.apiDirectory
      (PublicApi.Catalog.directoryName (named? engine engines) engine) with
  | ok path => exact .of_pure _
  | error fault => exact .of_pure _

theorem calm_artifacts (engine : String) : Calm fs (Session.artifacts fs engine).run := by
  refine .of_work_get fun s => ?_
  cases s.catalog.known? engine with
  | some artifacts => exact .of_pure _
  | none =>
    refine .of_work (calm_apiDirectory fs engine) fun directory => .of_work_get fun s => ?_
    generalize s.catalog.consult fs engine directory = consulted
    refine .of_steady (.of_modify fun _ => ⟨rfl, rfl⟩) fun _ => ?_
    refine .of_steady (calm_write fs _) fun _ => ?_
    cases consulted.1 with
    | ok artifacts => exact .of_pure _
    | error failure => exact .of_pure _

theorem calm_judge (reach : Reach) (current : Option String) (file : String) :
    Calm fs (Session.judge fs reach current file).run := by
  refine .of_work_get fun s => ?_
  cases Verdict.byPolicy s.protection reach current with
  | some verdict => exact .of_pure _
  | none => exact .of_work (calm_artifacts fs reach.engine) fun _ => .of_pure _

end Operations

/-! ## Verdicts -/

namespace PublicApi
namespace Catalog

variable {c : Catalog}

theorem apiPath_lookUp (c : Catalog) (found : String → Option String) (fs : FileSystem)
    (engine : String) : (c.lookUp found fs engine).2.apiPath = c.apiPath := by
  cases hknown : c.known? engine with
  | some artifacts => rw [lookUp_of_known hknown]
  | none =>
    cases hhome : c.home found engine with
    | error fault => rw [lookUp_of_fault hknown hhome]
    | ok directory =>
      rw [lookUp_of_home hknown hhome]
      exact (consults_consult fs directory hknown).place.2

theorem lookUp_of_formats (h : Template.Formats c.apiPath) (found : String → Option String)
    (fs : FileSystem) (engine : String) : ∃ a, (c.lookUp found fs engine).1 = .ok a := by
  cases hknown : c.known? engine with
  | some artifacts =>
    rw [lookUp_of_known hknown]
    exact ⟨artifacts, rfl⟩
  | none =>
    obtain ⟨path, hpath⟩ := h (directoryName (found engine) engine)
    have hhome : c.home found engine = .ok (c.enginesDirectory.join (.ofString path)) := by
      rw [home, apiDirectory, hpath]
      rfl
    generalize c.enginesDirectory.join (.ofString path) = directory at hhome
    have hconsults := consults_consult fs directory hknown
    rw [lookUp_of_home hknown hhome]
    generalize (c.consult fs engine directory).2.1 = made at hconsults ⊢
    generalize (c.consult fs engine directory).1 = outcome at hconsults ⊢
    cases hconsults with
    | unlisted hlist =>
      rw [inventory_clear] at hlist
      cases hlist
    | unread hlist hchanged hread =>
      rw [readArtifacts_clear] at hread
      cases hread
    | kept | read => exact ⟨_, rfl⟩

end Catalog
end PublicApi

namespace Verdict

theorem reason_of_byPolicy {p : Protection} {r : Reach} {current : Option String} {v : Verdict}
    (h : byPolicy p r current = some v) : v.reason ≠ .noApiAccess := by
  rw [byPolicy] at h
  repeat' split at h
  all_goals
    cases h
  all_goals
    intro hreason
    cases hreason

theorem reason_byArtifacts {a : PublicApi.Artifacts} {r : Reach} {file : String}
    (h : (byArtifacts a r file).allowed = false) :
    (byArtifacts a r file).reason = .noApiAccess := by
  rw [byArtifacts] at h ⊢
  generalize legacyEntry? a file = legacy at h ⊢
  generalize r.lineage.find? a.allowlist.contains = listed at h ⊢
  cases legacy with
  | some entry => cases h
  | none =>
    cases hthrough : r.throughApi with
    | true =>
      rw [hthrough] at h
      cases h
    | false =>
      rw [hthrough] at h
      cases listed with
      | some name => cases h
      | none => rfl

end Verdict

namespace Session

variable {fs : FileSystem} {reach : Reach} {current : Option String} {file : String} {s : Session}

theorem judge_of_some {v : Verdict} (h : Verdict.byPolicy s.protection reach current = some v) :
    (judge fs reach current file).run.run s = (.ok v, s) := by
  rw [judge, run_get_bind, h]
  rfl

theorem judge_of_none (h : Verdict.byPolicy s.protection reach current = none) :
    (judge fs reach current file).run.run s =
      let found := (artifacts fs reach.engine).run.run s
      (found.1.map fun a => Verdict.byArtifacts a reach file, found.2) := by
  rw [judge, run_get_bind, h]
  generalize hfound : (artifacts fs reach.engine).run.run s = found
  obtain ⟨answer, s'⟩ := found
  cases answer with
  | ok a => exact run_bind_of_ok _ hfound
  | error failure => exact run_bind_of_error _ hfound

/-- A refusal gives the lack of access by the API as its reason, unless a side is strongly
protected. -/
theorem reason_of_refused {v : Verdict}
    (h : ((judge fs reach current file).run.run s).1 = .ok v) (hrefused : v.allowed = false) :
    v.reason = .noApiAccess ↔ ¬StronglyProtected s.protection reach current := by
  cases hpolicy : Verdict.byPolicy s.protection reach current with
  | some v' =>
    rw [judge_of_some hpolicy] at h
    cases h
    have hnot : ¬(current = some reach.engine ∨ Overridden s.protection reach current) := by
      rw [← Verdict.allowed_of_byPolicy hpolicy, hrefused]
      exact Bool.false_ne_true
    have hstrong : StronglyProtected s.protection reach current :=
      (or_assoc.mpr (Verdict.decided_of_byPolicy hpolicy)).resolve_left hnot
    exact iff_of_false (Verdict.reason_of_byPolicy hpolicy) (not_not_intro hstrong)
  | none =>
    rw [judge_of_none hpolicy] at h
    obtain ⟨a, -, rfl⟩ := map_eq_ok.mp h
    exact iff_of_true (Verdict.reason_byArtifacts hrefused)
      (Verdict.byPolicy_eq_none.mp hpolicy).2.2

theorem apiPath_judge (fs : FileSystem) (reach : Reach) (current : Option String) (file : String)
    (s : Session) :
    ((judge fs reach current file).run.run s).2.catalog.apiPath = s.catalog.apiPath := by
  cases hpolicy : Verdict.byPolicy s.protection reach current with
  | some v => rw [judge_of_some hpolicy]
  | none =>
    rw [judge_of_none hpolicy]
    dsimp only
    rw [(run_artifacts (s.protection.obstacle?_clear fs) reach.engine).2]
    exact PublicApi.Catalog.apiPath_lookUp ..

theorem judge_of_formats (h : Template.Formats s.catalog.apiPath) (fs : FileSystem) (reach : Reach)
    (current : Option String) (file : String) :
    ∃ v, ((judge fs reach current file).run.run s).1 = .ok v := by
  cases hpolicy : Verdict.byPolicy s.protection reach current with
  | some v =>
    rw [judge_of_some hpolicy]
    exact ⟨v, rfl⟩
  | none =>
    rw [judge_of_none hpolicy]
    dsimp only
    rw [(run_artifacts (s.protection.obstacle?_clear fs) reach.engine).1]
    obtain ⟨a, ha⟩ := PublicApi.Catalog.lookUp_of_formats h
      (fun engine => named? engine (s.engines.getD (s.protection.survey fs).1)) fs reach.engine
    rw [ha]
    exact ⟨_, rfl⟩

end Session

/-! ## Files -/

namespace Judgement

/-- What is judged. -/
def reference (j : Judgement) : String × Crossing :=
  (j.kind, j.crossing)

end Judgement

/-- A session after another, which has judged references in between. -/
structure Session.Judges (fs : FileSystem) (s s' : Session) : Prop extends
    Keeps s s', Persists fs s s' where
  apiPath : s'.catalog.apiPath = s.catalog.apiPath

theorem Session.Judges.trans {fs : FileSystem} {s₁ s₂ s₃ : Session} (h₁ : Judges fs s₁ s₂)
    (h₂ : Judges fs s₂ s₃) : Judges fs s₁ s₃ where
  toKeeps := h₁.toKeeps.trans h₂.toKeeps
  toPersists := h₁.toPersists.trans h₂.toPersists
  apiPath := h₂.apiPath.trans h₁.apiPath

namespace Inspection

variable {fs : FileSystem} {t : SourceTree} {current : Option String} {s : Session}

theorem run_guardedIf (needed : Bool) (fs : FileSystem) (s : Session) :
    ((Session.guardedIf needed fs).run s).1 = if needed then s.listed fs else [] := by
  cases needed with
  | true => exact Session.run_guarded fs s
  | false => rfl

theorem run_crossingOfConst (fs : FileSystem) (t : SourceTree) (current : Option String)
    (depth : Int) (n : Node) (s : Session) :
    ((Session.crossingOfConst fs t current depth n).run s).1 =
      Crossing.ofConst s.protection
        (if Crossing.isCandidate t n && Crossing.needsEngines s.protection t current n then
          s.listed fs else []) t current depth n := by
  rw [← run_guardedIf]
  rfl

theorem run_crossingOfAssociation (fs : FileSystem) (t : SourceTree) (n : Node) (s : Session) :
    ((Session.crossingOfAssociation fs t n).run s).1 =
      Crossing.ofAssociation (if Crossing.associationNeedsEngines t n then s.listed fs else []) t
        n := by
  rw [← run_guardedIf]
  rfl

/-- The reference at a node depends on the protected engines, not on how they came to be known. -/
theorem crossingAt_congr {s' : Session} (h : s.Judges fs s') (t : SourceTree)
    (current : Option String) (n : Node) :
    ((crossingAt fs t current n).run s').1 = ((crossingAt fs t current n).run s).1 := by
  unfold crossingAt
  cases n.kind with
  | const =>
    have hconst : ((Session.crossingOfConst fs t current Crossing.defaultDepth n).run s').1 =
        ((Session.crossingOfConst fs t current Crossing.defaultDepth n).run s).1 := by
      rw [run_crossingOfConst, run_crossingOfConst, h.protection, h.listed]
    exact congrArg (Option.map ("const", ·)) hconst
  | send =>
    have hassociation : ((Session.crossingOfAssociation fs t n).run s').1 =
        ((Session.crossingOfAssociation fs t n).run s).1 := by
      rw [run_crossingOfAssociation, run_crossingOfAssociation, h.listed]
    exact congrArg (Option.map ("association", ·)) hassociation
  | _ => rfl

theorem judges_crossingAt (fs : FileSystem) (t : SourceTree) (current : Option String) (n : Node)
    (s : Session) : s.Judges fs ((crossingAt fs t current n).run s).2 where
  toKeeps := (blind_crossingAt fs t current n s).2.2
  toPersists := calm_crossingAt fs t current n s
  apiPath := by
    have hguarded (needed : Bool) :
        ((Session.guardedIf needed fs).run s).2.catalog = s.catalog := by
      cases needed with
      | true => exact catalog_guarded fs s
      | false => rfl
    unfold crossingAt
    cases n.kind with
    | const => exact congrArg _ (hguarded _)
    | send => exact congrArg _ (hguarded _)
    | _ => rfl

theorem judges_judge (fs : FileSystem) (reach : Reach) (current : Option String) (file : String)
    (s : Session) : s.Judges fs ((Session.judge fs reach current file).run.run s).2 where
  toKeeps := (blind_judge fs reach current file s).2.2
  toPersists := calm_judge fs reach current file s
  apiPath := Session.apiPath_judge fs reach current file s

/-- What happens at a node: there is no reference, or no verdict, or a judgement is made. -/
theorem judgeNodes_cases (fs : FileSystem) (t : SourceTree) (current : Option String) (n : Node)
    (rest : List Node) (s : Session) :
    (∃ s₁, s.Judges fs s₁ ∧ ((crossingAt fs t current n).run s).1 = none ∧
        (judgeNodes fs t current (n :: rest)).run s = (judgeNodes fs t current rest).run s₁) ∨
      ∃ kind c s₁, s.Judges fs s₁ ∧ ((crossingAt fs t current n).run s).1 = some (kind, c) ∧
        ((∃ failure s₂, ((Session.judge fs c.toReach current t.path).run.run s₁).1 =
            .error failure ∧
            (judgeNodes fs t current (n :: rest)).run s = (([], some failure), s₂)) ∨
          ∃ v s₂, s.Judges fs s₂ ∧
            ((Session.judge fs c.toReach current t.path).run.run s₁).1 = .ok v ∧
            (judgeNodes fs t current (n :: rest)).run s =
              let below := (judgeNodes fs t current rest).run s₂
              ((⟨kind, c, v⟩ :: below.1.1, below.1.2), below.2)) := by
  have hjudges₁ := judges_crossingAt fs t current n s
  generalize hfirst : (crossingAt fs t current n).run s = first at hjudges₁
  obtain ⟨found, s₁⟩ := first
  cases found with
  | none => exact .inl ⟨s₁, hjudges₁, rfl, judgeNodes_of_none rest hfirst⟩
  | some found =>
    obtain ⟨kind, c⟩ := found
    refine .inr ⟨kind, c, s₁, hjudges₁, rfl, ?_⟩
    have hjudges₂ := judges_judge fs c.toReach current t.path s₁
    generalize hsecond : (Session.judge fs c.toReach current t.path).run.run s₁ = second at hjudges₂
    obtain ⟨verdict, s₂⟩ := second
    cases verdict with
    | error failure => exact .inl ⟨failure, s₂, rfl, judgeNodes_of_error rest hfirst hsecond⟩
    | ok v =>
      exact .inr ⟨v, s₂, hjudges₁.trans hjudges₂, rfl, judgeNodes_of_ok rest hfirst hsecond⟩

/-- The references that are judged are those at the nodes, all of them unless there is a failure. -/
theorem references_judgeNodes (fs : FileSystem) (t : SourceTree) (current : Option String)
    (nodes : List Node) (s : Session) :
    let judged := ((judgeNodes fs t current nodes).run s).1
    let references := nodes.filterMap fun n => ((crossingAt fs t current n).run s).1
    judged.1.map Judgement.reference <+: references ∧
      (judged.2 = none → judged.1.map Judgement.reference = references) := by
  induction nodes generalizing s with
  | nil => exact ⟨List.nil_prefix, fun _ => rfl⟩
  | cons n rest ih =>
    -- What a later session finds at the other nodes is what this one does.
    have hrest {s' : Session} (h : s.Judges fs s') :
        (rest.filterMap fun n => ((crossingAt fs t current n).run s').1) =
          rest.filterMap fun n => ((crossingAt fs t current n).run s).1 :=
      List.filterMap_congr fun n _ => crossingAt_congr h t current n
    rw [List.filterMap_cons]
    rcases judgeNodes_cases fs t current n rest s with
      ⟨s₁, hjudges, hfound, hjudged⟩ | ⟨kind, c, s₁, -, hfound, hverdict⟩
    · rw [hjudged, hfound, ← hrest hjudges]
      exact ih s₁
    · rw [hfound]
      rcases hverdict with ⟨failure, s₂, -, hjudged⟩ | ⟨v, s₂, hjudges, -, hjudged⟩
      · rw [hjudged]
        exact ⟨List.nil_prefix, nofun⟩
      · obtain ⟨hfront, hall⟩ := ih s₂
        rw [hjudged, ← hrest hjudges]
        exact ⟨(List.prefix_cons_inj _).mpr hfront, fun hnone =>
          congrArg ((kind, c) :: ·) (hall hnone)⟩

/-- A judgement has the verdict of some session with the same protection. -/
theorem verdict_of_mem {nodes : List Node} {j : Judgement}
    (h : j ∈ ((judgeNodes fs t current nodes).run s).1.1) :
    ∃ s', s'.protection = s.protection ∧
      ((Session.judge fs j.crossing.toReach current t.path).run.run s').1 = .ok j.verdict := by
  induction nodes generalizing s with
  | nil => cases h
  | cons n rest ih =>
    have hrest {s' : Session} (hjudges : s.Judges fs s')
        (h : j ∈ ((judgeNodes fs t current rest).run s').1.1) :
        ∃ s', s'.protection = s.protection ∧
          ((Session.judge fs j.crossing.toReach current t.path).run.run s').1 = .ok j.verdict := by
      obtain ⟨s'', hprotection, hverdict⟩ := ih h
      exact ⟨s'', hprotection.trans hjudges.protection, hverdict⟩
    rcases judgeNodes_cases fs t current n rest s with
      ⟨s₁, hjudges, -, hjudged⟩ | ⟨kind, c, s₁, hjudges₁, -, hverdict⟩
    · rw [hjudged] at h
      exact hrest hjudges h
    · rcases hverdict with ⟨failure, s₂, -, hjudged⟩ | ⟨v, s₂, hjudges, hverdict, hjudged⟩
      · rw [hjudged] at h
        cases h
      · rw [hjudged] at h
        rcases List.mem_cons.mp h with rfl | h
        · exact ⟨s₁, hjudges₁.protection, hverdict⟩
        · exact hrest hjudges h

theorem judgeNodes_of_formats (h : Template.Formats s.catalog.apiPath) (fs : FileSystem)
    (t : SourceTree) (current : Option String) (nodes : List Node) :
    ((judgeNodes fs t current nodes).run s).1.2 = none := by
  induction nodes generalizing s with
  | nil => rfl
  | cons n rest ih =>
    rcases judgeNodes_cases fs t current n rest s with
      ⟨s₁, hjudges, -, hjudged⟩ | ⟨kind, c, s₁, hjudges₁, -, hverdict⟩
    · rw [hjudged]
      exact ih (hjudges.apiPath ▸ h)
    · rcases hverdict with ⟨failure, s₂, hverdict, -⟩ | ⟨v, s₂, hjudges, -, hjudged⟩
      · obtain ⟨v, hv⟩ :=
          Session.judge_of_formats (hjudges₁.apiPath ▸ h) fs c.toReach current t.path
        rw [hverdict] at hv
        cases hv
      · rw [hjudged]
        exact ih (hjudges.apiPath ▸ h)

/-! ## Whole files -/

theorem judgements_eq (fs : FileSystem) (t : SourceTree) (s : Session) :
    (judgements fs t).run s.core =
      (judgeNodes fs t (s.protection.ownerOf t.path) t.nodes.toList).run s.core.revalidated := rfl

theorem references_judgements (fs : FileSystem) (t : SourceTree) (s : Session) :
    let judged := ((judgements fs t).run s.core).1
    let references := t.nodes.toList.filterMap fun n =>
      ((crossingAt fs t (s.protection.ownerOf t.path) n).run s).1
    judged.1.map Judgement.reference <+: references ∧
      (judged.2 = none → judged.1.map Judgement.reference = references) := by
  have hjudges : s.core.Judges fs s.core.revalidated := ⟨⟨rfl, rfl, rfl⟩, ⟨rfl, rfl⟩, rfl⟩
  have hreferences : (t.nodes.toList.filterMap fun n =>
        ((crossingAt fs t (s.protection.ownerOf t.path) n).run s).1) =
      t.nodes.toList.filterMap fun n =>
        ((crossingAt fs t (s.protection.ownerOf t.path) n).run s.core.revalidated).1 :=
    List.filterMap_congr fun n _ =>
      (blind_crossingAt fs t _ n s).1.trans (crossingAt_congr hjudges t _ n).symm
  rw [hreferences, judgements_eq]
  exact references_judgeNodes fs t _ t.nodes.toList s.core.revalidated

theorem reason_of_judgement {j : Judgement} (h : j ∈ ((judgements fs t).run s.core).1.1)
    (hrefused : j.verdict.allowed = false) :
    j.verdict.reason = .noApiAccess ↔
      ¬StronglyProtected s.protection j.crossing.toReach (s.protection.ownerOf t.path) := by
  rw [judgements_eq] at h
  obtain ⟨s', hprotection, hverdict⟩ := verdict_of_mem h
  rw [Session.reason_of_refused hverdict hrefused, hprotection]
  rfl

theorem judgements_of_formats (h : Template.Formats s.catalog.apiPath) (fs : FileSystem)
    (t : SourceTree) : ((judgements fs t).run s.core).1.2 = none := by
  have hrevalidated : Template.Formats s.core.revalidated.catalog.apiPath := h
  rw [judgements_eq]
  exact judgeNodes_of_formats hrevalidated fs t _ _

/-- The trail and the journal make no difference to the offenses or to the questions. -/
theorem inspect_congr {s' : Session} (hcore : s'.core = s.core) (hsource : s'.source = s.source)
    (hmemo : s'.memo = s.memo) (fs : FileSystem) (t : SourceTree) :
    ((inspect fs t).run.run s').1 = ((inspect fs t).run.run s).1 ∧
      ((inspect fs t).run.run s').2.memo = ((inspect fs t).run.run s).2.memo := by
  obtain ⟨-, hasks, hreport⟩ := run_inspect (show s.core = s.core from rfl) fs t
  obtain ⟨-, hasks', hreport'⟩ := run_inspect hcore fs t
  have hprotection : s'.protection = s.protection := congrArg (fun s => s.protection) hcore
  have hlater : ((inspect fs t).run.run s').2.memo = ((inspect fs t).run.run s).2.memo := by
    rw [hasks.memo, hasks'.memo, hsource, hmemo]
  have hsame := hreport ((inspect fs t).run.run s).2.memo fun _ _ h => h
  have hsame' := hreport' ((inspect fs t).run.run s).2.memo fun _ _ h => hlater ▸ h
  rw [hprotection] at hsame'
  exact ⟨hsame'.trans hsame.symm, hlater⟩

end Inspection

end Bulkhead
