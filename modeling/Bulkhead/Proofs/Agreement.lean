/-
Sessions that agree with a host.

A session looks at the engines directory, the published lists and the models when it first has to,
and keeps what it finds.  It *agrees* with a host when everything it has kept is what it would find
there now.  Every operation that succeeds leaves it so and gives the answer of the rules; after one
that fails nothing is said, for lists that could not be read may be marked as compared.  What an
inspection needs of such an invariant is collected in `Carries`, so that the way from the single
operations to `settles_inspect` is gone only once.  The theorems that the other modules use are
`fresh_eq_outcome` and `fresh_eq`: a session that has seen nothing yet reports what its rules report.
-/
import Bulkhead.Proofs.Kept
import Bulkhead.Proofs.Rules

namespace Bulkhead

structure Agrees (p : Protection) (source : Persistence.Source) (host : Host) (s : Session) :
    Prop where
  protection : s.protection = p
  asks : s.source = source
  directory : s.catalog.enginesDirectory = p.enginesDirectory
  apiPath : s.catalog.apiPath = p.settings.apiPath
  engines : ∀ engines, s.engines = some engines →
    p.obstacle? host = none ∧ engines = (p.survey host).1
  guarded : ∀ engines, s.protectedEngines = some engines →
    p.obstacle? host = none ∧ engines = p.protectedEngines (p.survey host).1
  memo : s.memo.Agrees source
  /-- The application was asked about what has an answer. -/
  reached : ∀ name answer, s.memo.answer? name = some answer → host.asking name = none
  /-- What has been compared is what is published. -/
  known : ∀ engine artifacts, s.catalog.known? engine = some artifacts →
    p.published host engine = .ok artifacts
  /-- What was kept with the digest of now is what is published. -/
  shelved : ∀ engine kept directory files, s.catalog.shelved? engine = some kept →
    p.apiDirectory host engine = .ok directory →
    PublicApi.Catalog.inventory host directory = .ok files →
    kept.digest = PublicApi.Catalog.digest files → p.published host engine = .ok kept.artifacts

/-- Work that gives one answer in every session of a kind, and leaves it of that kind. -/
def Yields {α : Type} (I : Session → Prop) (x : Steady α) (a : α) : Prop :=
  ∀ s, I s → (x.run s).1 = a ∧ I (x.run s).2

namespace Yields

variable {α β : Type} {I : Session → Prop}

theorem of_pure (a : α) : Yields I (pure a) a :=
  fun _ hs => ⟨rfl, hs⟩

theorem of_bind {x : Steady α} {f : α → Steady β} {a : α} {b : β} (hx : Yields I x a)
    (hf : Yields I (f a) b) : Yields I (x >>= f) b := by
  intro s hs
  obtain ⟨ha, hs'⟩ := hx s hs
  have h := hf _ hs'
  rw [← ha] at h
  exact h

/-- What is read from the session need not be known, if the answer is the same for all. -/
theorem of_get {f : Session → Steady β} {b : β} (hf : ∀ s, I s → Yields I (f s) b) :
    Yields I (get >>= f) b :=
  fun s hs => hf s hs s hs

theorem of_modify {f : Session → Session} (hf : ∀ s, I s → I (f s)) : Yields I (modify f) () :=
  fun s hs => ⟨rfl, hf s hs⟩

theorem of_set {s : Session} (hs : I s) : Yields I (set s) () :=
  fun _ _ => ⟨rfl, hs⟩

end Yields

/-- Work that has one outcome in every session of a kind, and leaves it of that kind if it
succeeds. -/
def Settles {α : Type} (I : Session → Prop) (x : Work α) (r : Except Failure α) : Prop :=
  ∀ s, I s → (x.run.run s).1 = r ∧ ∀ a, r = .ok a → I (x.run.run s).2

namespace Settles

variable {α β : Type} {I : Session → Prop}

theorem of_pure (a : α) : Settles I (pure a) (.ok a) :=
  fun _ hs => ⟨rfl, fun _ _ => hs⟩

theorem of_throw (failure : Failure) : Settles I (throw failure : Work α) (.error failure) := by
  refine fun s _ => ⟨rfl, fun a h => ?_⟩
  cases h

/-- Work that fails is not gone on with. -/
theorem of_bind {x : Work α} {f : α → Work β} {r : Except Failure α} {k : α → Except Failure β}
    (hx : Settles I x r) (hf : ∀ a, r = .ok a → Settles I (f a) (k a)) :
    Settles I (x >>= f) (r >>= k) := by
  intro s hs
  obtain ⟨hanswer, hkept⟩ := hx s hs
  rw [ExceptT.run_bind, StateT.run_bind]
  generalize hmade : StateT.run x.run s = made at hanswer hkept
  obtain ⟨outcome, s'⟩ := made
  obtain rfl : outcome = r := hanswer
  cases outcome with
  | ok a => exact hf a rfl s' (hkept a rfl)
  | error failure => exact ⟨rfl, fun b h => by cases h⟩

theorem of_map {x : Work α} {f : α → Work β} {r : Except Failure α} {g : α → β}
    (hx : Settles I x r) (hf : ∀ a, Settles I (f a) (.ok (g a))) :
    Settles I (x >>= f) (r.map g) := by
  have h := of_bind hx fun a _ => hf a
  cases r <;> exact h

theorem of_steady {x : Steady α} {f : α → Work β} {a : α} {b : Except Failure β}
    (hx : Yields I x a) (hf : Settles I (f a) b) : Settles I ((liftM x : Work α) >>= f) b := by
  intro s hs
  obtain ⟨ha, hs'⟩ := hx s hs
  have h := hf _ hs'
  rw [← ha] at h
  exact h

theorem of_get {f : Session → Work β} {b : Except Failure β}
    (hf : ∀ s, I s → Settles I (f s) b) : Settles I (get >>= f) b :=
  fun s hs => hf s hs s hs

end Settles

/-! ## The operations -/

section Operations

variable {p : Protection} {source : Persistence.Source} {host : Host}

theorem yields_write (notes : List Note) :
    Yields (Agrees p source host) (Session.write notes) () :=
  .of_modify fun _ h => { h with }

theorem yields_allEngines (hclear : p.obstacle? host = none) :
    Yields (Agrees p source host) (Session.allEngines host) (p.survey host).1 := by
  refine .of_get fun s h => ?_
  cases hengines : s.engines with
  | some engines =>
    rw [← (h.engines engines hengines).2]
    exact .of_pure _
  | none =>
    obtain rfl := h.protection
    refine .of_bind (.of_set ?_) (.of_bind (yields_write _) (.of_pure _))
    exact { h with engines := fun _ hengines => ⟨hclear, (Option.some.inj hengines).symm⟩ }

theorem yields_guarded (hclear : p.obstacle? host = none) :
    Yields (Agrees p source host) (Session.guarded host)
      (p.protectedEngines (p.survey host).1) := by
  refine .of_get fun s h => ?_
  cases hengines : s.protectedEngines with
  | some engines =>
    rw [← (h.guarded engines hengines).2]
    exact .of_pure _
  | none =>
    refine .of_get fun s h => .of_bind (yields_allEngines hclear) ?_
    rw [h.protection]
    refine .of_bind (.of_modify fun s h => ?_) (.of_bind (yields_write _) (.of_pure _))
    exact { h with guarded := fun _ hengines => ⟨hclear, (Option.some.inj hengines).symm⟩ }

theorem yields_isModel {name : String} (hreached : host.asking name = none) :
    Yields (Agrees p source host) (Session.isModel name) (source name).isModel := by
  refine .of_get fun s h => ?_
  obtain ⟨hanswer, hmemo⟩ := Persistence.Memo.ask_agrees h.memo name
  obtain rfl := h.asks
  rw [← hanswer]
  refine .of_bind (.of_set { h with memo := hmemo, reached := fun name' answer hfound => ?_ })
    (.of_bind (yields_write _) (.of_pure _))
  by_cases hname : name = name'
  · rw [← hname, hreached]
  · exact h.reached name' answer ((Persistence.Memo.answer?_ask_of_ne hname).symm.trans hfound)

theorem yields_emit (e : Audit.Event) : Yields (Agrees p source host) (Session.emit e) () := by
  refine .of_modify fun s h => ?_
  split
  · exact h
  · exact { h with }

theorem yields_revalidate : Yields (Agrees p source host) Session.revalidate () := by
  refine .of_modify fun s h => { h with known := fun engine artifacts hknown => ?_ }
  obtain ⟨hverified, -⟩ := PublicApi.Catalog.known?_eq_some.mp hknown
  cases hverified

theorem settles_apiDirectory (hclear : p.obstacle? host = none) (engine : String) :
    Settles (Agrees p source host) (Session.apiDirectory host engine)
      ((p.apiDirectory host engine).mapError .template) := by
  have hrequired : Settles (Agrees p source host) (Session.requireEngines host) (.ok ()) := by
    refine .of_get fun s h => ?_
    rw [h.protection, hclear]
    cases s.engines <;> exact .of_pure ()
  refine .of_bind hrequired (k := fun _ => (p.apiDirectory host engine).mapError .template)
    fun _ _ => .of_steady (yields_allEngines hclear) (.of_get fun s h => ?_)
  have hdirectory : s.catalog.apiDirectory
      (PublicApi.Catalog.directoryName (named? engine (p.survey host).1) engine) =
        p.apiDirectory host engine := by
    rw [PublicApi.Catalog.apiDirectory, h.directory, h.apiPath]
    rfl
  rw [hdirectory]
  cases p.apiDirectory host engine with
  | ok directory => exact .of_pure _
  | error fault => exact .of_throw _

/-- Consulting the catalog has the outcome of a look at the files. -/
theorem published_of_consults {s : Session} (h : Agrees p source host s) {engine : String}
    {directory : Path} (hdirectory : p.apiDirectory host engine = .ok directory)
    {outcome : Except FileSystem.Failure PublicApi.Artifacts} {made : PublicApi.Catalog}
    (hconsults : s.catalog.Consults host engine directory outcome made) :
    outcome.mapError .files = p.published host engine := by
  have hlook : p.published host engine = PublicApi.Catalog.lookAt host engine directory := by
    rw [Protection.published, hdirectory]
  rw [PublicApi.Catalog.lookAt] at hlook
  cases hconsults with
  | unlisted hlist =>
    rw [hlook, hlist]
    rfl
  | kept hlist hkept hdigest =>
    exact (h.shelved engine _ directory _ hkept hdirectory hlist hdigest).symm
  | unread hlist hchanged hread | read hlist hchanged hread => rw [hlook, hlist, hread]

/-- A catalog that gives an answer keeps what is published. -/
theorem agrees_consult {s : Session} (h : Agrees p source host s) {engine : String}
    {directory : Path} (hdirectory : p.apiDirectory host engine = .ok directory)
    {artifacts : PublicApi.Artifacts} {made : PublicApi.Catalog}
    (hconsults : s.catalog.Consults host engine directory (.ok artifacts) made) :
    Agrees p source host { s with catalog := made } := by
  have hpublished : p.published host engine = .ok artifacts :=
    (published_of_consults h hdirectory hconsults).symm
  have hknown (engine' : String) (artifacts' : PublicApi.Artifacts)
      (hfound : made.known? engine' = some artifacts') :
      p.published host engine' = .ok artifacts' := by
    by_cases hengine : engine = engine'
    · rw [← hengine, hconsults.known?] at hfound
      cases hfound
      rw [← hengine, hpublished]
    · rw [hconsults.known?_of_ne hengine] at hfound
      exact h.known engine' artifacts' hfound
  cases hconsults with
  | kept => exact { h with known := hknown }
  | read =>
    refine { h with known := hknown, shelved := fun engine' kept directory' files' hkept => ?_ }
    rw [PublicApi.Catalog.shelved?_shelve] at hkept
    split at hkept
    · next hengine =>
      cases hkept
      intro _ _ _
      rw [← hengine, hpublished]
    · exact h.shelved engine' kept directory' files' hkept

theorem consulted {s : Session} (h : Agrees p source host s) {engine : String} {directory : Path}
    (hdirectory : p.apiDirectory host engine = .ok directory) :
    (s.catalog.consult host engine directory).1.mapError .files = p.published host engine ∧
      ∀ artifacts, (s.catalog.consult host engine directory).1 = .ok artifacts →
        Agrees p source host { s with catalog := (s.catalog.consult host engine directory).2.1 } := by
  cases hknown : s.catalog.known? engine with
  | some artifacts =>
    have hconsult : s.catalog.consult host engine directory = (.ok artifacts, s.catalog, []) := by
      rw [PublicApi.Catalog.consult, hknown]
    rw [hconsult, h.known engine artifacts hknown]
    exact ⟨rfl, fun _ _ => h⟩
  | none =>
    have hconsults := PublicApi.Catalog.consults_consult host directory hknown
    refine ⟨published_of_consults h hdirectory hconsults, fun artifacts hok => ?_⟩
    rw [hok] at hconsults
    exact agrees_consult h hdirectory hconsults

theorem settles_artifacts (hclear : p.obstacle? host = none) (engine : String) :
    Settles (Agrees p source host) (Session.artifacts host engine) (p.published host engine) := by
  refine .of_get fun s h => ?_
  cases hknown : s.catalog.known? engine with
  | some artifacts =>
    rw [h.known engine artifacts hknown]
    exact .of_pure _
  | none =>
    have hdirectory : Settles (Agrees p source host) (Session.apiDirectory host engine) _ :=
      settles_apiDirectory hclear engine
    cases hfound : p.apiDirectory host engine with
    | error fault =>
      rw [hfound] at hdirectory
      have hpublished : p.published host engine = .error (.template fault) := by
        rw [Protection.published, hfound]
      rw [hpublished]
      exact .of_bind hdirectory (k := fun _ => .error (.template fault)) fun _ habsurd => by
        cases habsurd
    | ok directory =>
      rw [hfound] at hdirectory
      refine .of_bind hdirectory (k := fun _ => p.published host engine) fun directory' heq => ?_
      cases heq
      refine .of_get fun s h => ?_
      obtain ⟨hpublished, hkept⟩ := consulted h hfound
      rw [← hpublished]
      dsimp only
      cases hread : (s.catalog.consult host engine directory).1 with
      | error failure => exact fun s' _ => ⟨rfl, fun a habsurd => by cases habsurd⟩
      | ok artifacts =>
        replace hkept := hkept artifacts hread
        refine .of_steady (.of_modify fun s h => ?_) (.of_steady (yields_write _) (.of_pure _))
        exact { h with
                directory := hkept.directory, apiPath := hkept.apiPath
                known := hkept.known, shelved := hkept.shelved }

end Operations

/-! ## Inspecting -/

/-- Where the engines cannot be surveyed none is protected. -/
theorem clear_of_engine {p : Protection} {host : Host} {engine : String}
    (h : engine ∈ p.protectedEngines (p.survey host).1) : p.obstacle? host = none := by
  rw [Protection.obstacle?]
  cases hlist : host.directories p.enginesDirectory with
  | ok names => rfl
  | error failure =>
    rw [Protection.survey, hlist, Protection.protectedEngines, mem_sortedSet] at h
    cases h

/-- What has to be known of a kind of session for each operation of an inspection. -/
structure Carries (I : Session → Prop) (p : Protection) (source : Persistence.Source)
    (host : Host) : Prop where
  protection : ∀ s, I s → s.protection = p
  write : ∀ notes, Yields I (Session.write notes) ()
  emit : ∀ e, Yields I (Session.emit e) ()
  /-- An answer is there only if the application could be asked. -/
  reached : ∀ s, I s → ∀ name answer, s.memo.answer? name = some answer → host.asking name = none
  isModel : ∀ name, host.asking name = none →
    Yields I (Session.isModel name) (source name).isModel
  /-- Engines that cannot be surveyed have not been. -/
  unsurveyed : p.obstacle? host ≠ none → ∀ s, I s → s.engines = none ∧ s.protectedEngines = none
  guarded : p.obstacle? host = none →
    Yields I (Session.guarded host) (p.protectedEngines (p.survey host).1)
  artifacts : p.obstacle? host = none → ∀ engine ∈ p.protectedEngines (p.survey host).1,
    Settles I (Session.artifacts host engine) (p.published host engine)
  revalidate : Yields I Session.revalidate ()

theorem carries_agrees (p : Protection) (source : Persistence.Source) (host : Host) :
    Carries (Agrees p source host) p source host where
  protection := fun _ h => h.protection
  write := yields_write
  emit := yields_emit
  reached := fun _ h => h.reached
  isModel := fun _ => yields_isModel
  unsurveyed := by
    intro hblocked s h
    refine ⟨Option.eq_none_iff_forall_ne_some.mpr fun engines hengines => ?_,
      Option.eq_none_iff_forall_ne_some.mpr fun engines hengines => ?_⟩
    · exact hblocked (h.engines engines hengines).1
    · exact hblocked (h.guarded engines hengines).1
  guarded := yields_guarded
  artifacts := fun hclear engine _ => settles_artifacts hclear engine
  revalidate := yields_revalidate

section Inspecting

variable {I : Session → Prop} {p : Protection} {source : Persistence.Source} {host : Host}
  (carried : Carries I p source host)

include carried

/-- Protected engines that are not needed do not matter. -/
theorem yields_guardedIf {α : Type} {needed : Bool} (f : List String → α)
    (hclear : needed = true → p.obstacle? host = none)
    (hf : needed = false → ∀ engines, f [] = f engines) :
    Yields I (do return f (← Session.guardedIf needed host))
      (f (p.protectedEngines (p.survey host).1)) := by
  cases needed with
  | true => exact .of_bind (carried.guarded (hclear rfl)) (.of_pure _)
  | false =>
    rw [← hf rfl]
    exact .of_bind (.of_pure []) (.of_pure _)

theorem yields_crossingOfConst {t : SourceTree} {current : Option String} {n : Node} (depth : Int)
    (hclear : (Crossing.isCandidate t n && Crossing.needsEngines p t current n) = true →
      p.obstacle? host = none) :
    Yields I (Session.crossingOfConst host t current depth n)
      (Crossing.ofConst p (p.protectedEngines (p.survey host).1) t current depth n) := by
  refine .of_get fun s hs => ?_
  rw [carried.protection s hs]
  refine yields_guardedIf carried (fun engines => Crossing.ofConst p engines t current depth n)
    hclear ?_
  intro hneeded engines
  unfold Crossing.ofConst
  by_cases hcandidate : Crossing.isCandidate t n = true
  · rw [hcandidate, Bool.true_and] at hneeded
    have hname : Crossing.engineNamed p [] t current n =
        Crossing.engineNamed p engines t current n := by
      unfold Crossing.needsEngines at hneeded
      unfold Crossing.engineNamed
      split at hneeded <;> simp_all
    rw [hname]
  · rw [if_neg hcandidate, if_neg hcandidate]

theorem yields_crossingOfAssociation {t : SourceTree} {n : Node}
    (hclear : Crossing.associationNeedsEngines t n = true → p.obstacle? host = none) :
    Yields I (Session.crossingOfAssociation host t n)
      (Crossing.ofAssociation (p.protectedEngines (p.survey host).1) t n) := by
  refine yields_guardedIf carried (fun engines => Crossing.ofAssociation engines t n) hclear ?_
  intro hneeded engines
  unfold Crossing.associationNeedsEngines at hneeded
  unfold Crossing.ofAssociation
  split at hneeded <;> simp_all

theorem yields_crossingAt {t : SourceTree} {current : Option String} {n : Node}
    (hclear : Crossing.dependsOnEngines p t current n = true → p.obstacle? host = none) :
    Yields I (Inspection.crossingAt host t current n)
      ((Rules.found p source host).crossingAt t current n) := by
  unfold Crossing.dependsOnEngines at hclear
  unfold Inspection.crossingAt Rules.crossingAt
  cases hkind : n.kind with
  | const =>
    rw [hkind] at hclear
    exact .of_bind (yields_crossingOfConst carried _ hclear) (.of_pure _)
  | send =>
    rw [hkind] at hclear
    exact .of_bind (yields_crossingOfAssociation carried hclear) (.of_pure _)
  | _ => exact .of_pure _

/-- A node that depends on engines stops the inspection where they cannot be surveyed. -/
theorem settles_requireEnginesAt (t : SourceTree) (current : Option String) (n : Node) :
    Settles I (Inspection.requireEnginesAt host t current n)
      (Rules.proceed ((Rules.found p source host).obstacleAt t current n)) := by
  have hrequired : Settles I (Session.requireEngines host)
      (Rules.proceed ((p.obstacle? host).map .files)) := by
    refine .of_get fun s hs => ?_
    rw [carried.protection s hs]
    cases hobstacle : p.obstacle? host with
    | none => cases s.engines <;> exact .of_pure ()
    | some failure =>
      rw [(carried.unsurveyed (by simp [hobstacle]) s hs).1]
      exact .of_throw _
  refine .of_get fun s hs => ?_
  have hat : (Rules.found p source host).obstacleAt t current n =
      if Crossing.dependsOnEngines p t current n then (p.obstacle? host).map .files else none := rfl
  rw [carried.protection s hs, hat]
  cases Crossing.dependsOnEngines p t current n with
  | false =>
    rw [Bool.and_false]
    exact .of_pure ()
  | true =>
    rw [Bool.and_true, if_pos rfl]
    cases hprotected : s.protectedEngines with
    | none => exact hrequired
    | some engines =>
      -- Engines that are known could be surveyed.
      have hclear : p.obstacle? host = none := by
        by_contra hblocked
        rw [(carried.unsurveyed hblocked s hs).2] at hprotected
        cases hprotected
      rw [hclear]
      exact .of_pure ()

theorem settles_requireAnswer (name : String) :
    Settles I (Session.requireAnswer host name)
      (Rules.proceed ((host.asking name).map .oracle)) := by
  refine .of_get fun s hs => ?_
  cases hanswer : s.memo.answer? name with
  | none => cases host.asking name <;> first | exact .of_pure () | exact .of_throw _
  | some answer =>
    rw [carried.reached s hs name answer hanswer]
    exact .of_pure ()

theorem settles_judge {reach : Reach} {current : Option String} (file : String)
    (hartifacts : Verdict.byPolicy p reach current = none →
      Settles I (Session.artifacts host reach.engine) (p.published host reach.engine)) :
    Settles I (Session.judge host reach current file)
      ((Rules.found p source host).verdict reach current file) := by
  refine .of_get fun s hs => ?_
  rw [carried.protection s hs]
  cases hpolicy : Verdict.byPolicy p reach current with
  | some verdict =>
    rw [Rules.verdict_of_some hpolicy]
    exact .of_pure _
  | none =>
    rw [Rules.verdict_of_none hpolicy]
    exact .of_map (hartifacts hpolicy) fun _ => .of_pure _

theorem settles_check (path kind : String) {current : Option String} {c : Crossing}
    (hartifacts : Verdict.byPolicy p c.toReach current = none →
      Settles I (Session.artifacts host c.engine) (p.published host c.engine)) :
    Settles I (Inspection.check host path kind current c)
      ((Rules.found p source host).settle path current c.reference) := by
  refine .of_bind (settles_judge carried path hartifacts) fun verdict _ => ?_
  refine .of_steady (carried.emit _) ?_
  rw [Rules.conclude]
  cases verdict.allowed with
  | true => exact .of_pure _
  | false =>
    refine .of_get fun s hs => ?_
    have hmodel : c.reference.model = c.model := rfl
    rw [carried.protection s hs, hmodel]
    cases c.model with
    | none => exact .of_pure _
    | some model =>
      have hconcerns : (Rules.found p source host).concerns (some model) =
          (source model).isModel := rfl
      have hescape : (some model).bind (Rules.found p source host).escape =
          (host.asking model).map .oracle := rfl
      rw [hconcerns, hescape]
      have hrequired := settles_requireAnswer carried model
      cases hasking : host.asking model with
      | some escape =>
        rw [hasking] at hrequired
        show Settles I _ (.error (.oracle escape))
        refine .of_bind (k := fun _ => .error (.oracle escape)) hrequired fun _ hproceed => ?_
        cases hproceed
      | none =>
        rw [hasking] at hrequired
        refine .of_bind (k := fun _ => .ok _) hrequired fun _ _ => ?_
        refine .of_steady (carried.isModel model hasking) ?_
        cases (source model).isModel with
        | true => exact .of_pure _
        | false => exact .of_steady (carried.emit _) (.of_pure _)

theorem settles_checkNodes (t : SourceTree) (current : Option String) (nodes : List Node) :
    Settles I (Inspection.checkNodes host t current nodes)
      ((Rules.found p source host).outcomes t current nodes) := by
  induction nodes with
  | nil => exact .of_pure _
  | cons n rest ih =>
    have hrequired := settles_requireEnginesAt carried t current n
    rw [Rules.outcomes, Rules.outcomeAt]
    cases hobstacle : (Rules.found p source host).obstacleAt t current n with
    | some failure =>
      rw [hobstacle] at hrequired
      refine .of_bind (k := fun _ => .error failure) hrequired fun _ hproceed => ?_
      cases hproceed
    | none =>
      rw [hobstacle] at hrequired
      have hclear : Crossing.dependsOnEngines p t current n = true → p.obstacle? host = none := by
        intro hdepends
        have hat : (Rules.found p source host).obstacleAt t current n =
            (p.obstacle? host).map .files := if_pos hdepends
        rw [hobstacle] at hat
        exact Option.map_eq_none_iff.mp hat.symm
      refine .of_bind (k := fun _ => _) hrequired fun _ _ =>
        .of_steady (yields_crossingAt carried hclear) ?_
      rw [Rules.referenceAt]
      cases hfound : (Rules.found p source host).crossingAt t current n with
      | none =>
        exact .of_bind (.of_pure none) fun offense _ => .of_bind ih fun offenses _ => .of_pure _
      | some found =>
        refine .of_bind (settles_check carried t.path found.1 fun hopen => ?_) fun offense _ =>
          .of_bind ih fun offenses _ => .of_pure _
        have hengine := Rules.engine_of_crossingAt hfound hopen
        exact carried.artifacts (clear_of_engine hengine) found.2.engine hengine

theorem settles_inspect (t : SourceTree) :
    Settles I (Inspection.inspect host t) ((Rules.found p source host).outcome t) := by
  refine .of_steady carried.revalidate (.of_get fun s hs => ?_)
  rw [carried.protection s hs]
  have hsame (r : Except Failure (List Offense)) : r >>= .ok = r := by cases r <;> rfl
  rw [← hsame (Rules.outcome ..)]
  exact .of_bind (settles_checkNodes carried t (p.ownerOf t.path) t.nodes.toList) fun offenses _ =>
    .of_steady (carried.write _) (.of_pure _)

end Inspecting

/-! ## Sessions that have seen nothing -/

theorem agrees_start (settings : Settings) (root : Option Path) (source : Persistence.Source)
    (trail : Option Audit.Trail) (host : Host) :
    Agrees (Protection.ofSettings settings root) source host
      (Session.start settings root source trail) where
  protection := rfl
  asks := rfl
  directory := rfl
  apiPath := rfl
  engines := nofun
  guarded := nofun
  memo := nofun
  reached := nofun
  known := nofun
  shelved := nofun

/-- The offenses of a file as a session that has seen nothing yet reports them. -/
def Inspection.fresh (settings : Settings) (root : Option Path) (source : Persistence.Source)
    (trail : Option Audit.Trail) (host : Host) (t : SourceTree) :
    Except Failure (List Offense) :=
  ((Inspection.inspect host t).run.run (Session.start settings root source trail)).1

theorem fresh_eq_outcome (settings : Settings) (root : Option Path) (source : Persistence.Source)
    (trail : Option Audit.Trail) (host : Host) (t : SourceTree) :
    Inspection.fresh settings root source trail host t =
      (Rules.found (Protection.ofSettings settings root) source host).outcome t :=
  (settles_inspect (carries_agrees _ _ _) t _ (agrees_start settings root source trail host)).1

theorem fresh_eq (settings : Settings) (root : Option Path) (source : Persistence.Source)
    (trail : Option Audit.Trail) (fs : FileSystem) (t : SourceTree) :
    Inspection.fresh settings root source trail fs t =
      (Rules.found (Protection.ofSettings settings root) source fs).inspect t := by
  rw [fresh_eq_outcome, Rules.outcome_found]

theorem fresh_of_formats {settings : Settings} (hformats : Template.Formats settings.apiPath)
    (root : Option Path) (source : Persistence.Source) (trail : Option Audit.Trail)
    (fs : FileSystem) (t : SourceTree) :
    let p := Protection.ofSettings settings root
    let current := p.ownerOf t.path
    Inspection.fresh settings root source trail fs t =
      .ok (((Rules.found p source fs).references t current).filterMap
        (Reference.offense? p source fs t.path current)) := by
  intro p current
  rw [fresh_eq, Rules.inspect, offenses_of_formats (p := p) hformats]
  rfl

end Bulkhead
