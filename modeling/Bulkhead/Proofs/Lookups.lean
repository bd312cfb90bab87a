/-
Which engines an inspection looks up, and where.

The inspection is written once more with the lookup as a parameter, in any monad that has the
operations of a session; with the lookup of the session it is the inspection itself.  With a lookup
that first notes the engine it is the same run with a list beside it.  Every engine in that list is
protected, so it was found in a directory, and what it publishes is read from there:
`lookups_housed`.
-/
import Bulkhead.Proofs.Checksum
import Bulkhead.Proofs.Judging
import Bulkhead.Proofs.RootedEntries

namespace Bulkhead

/-! ## The directory of an engine -/

theorem le_of_named?_ofPairs {pairs : List (String × String)} {key value : String}
    (hordered : pairs.Pairwise fun a b => a.2 ≤ b.2)
    (h : named? key (ofPairs pairs) = some value) :
    ∀ other ∈ pairs, other.1 = key → other.2 ≤ value := by
  induction pairs using List.reverseRecOn with
  | nil => exact List.forall_mem_nil _
  | append_singleton pairs last ih =>
    obtain ⟨hbefore, -, hlast⟩ := List.pairwise_append.mp hordered
    rw [ofPairs, List.foldl_append, List.foldl_cons, List.foldl_nil, named?_putNamed] at h
    intro other hother hkey
    split at h
    · cases h
      rcases List.mem_append.mp hother with hother | hother
      · exact hlast other hother last List.mem_cons_self
      · obtain rfl := List.mem_singleton.mp hother
        exact String.le_refl _
    · next hnot =>
      rcases List.mem_append.mp hother with hother | hother
      · exact ih hbefore h other hother hkey
      · rw [List.mem_singleton.mp hother] at hkey
        exact absurd hkey hnot

namespace Protection

/-- The engine was found in the directory: it is one of those in the engines directory, the last in
order that spells the engine. -/
structure Houses (p : Protection) (fs : FileSystem) (engine directory : String) : Prop where
  named : named? engine (p.survey fs).1 = some directory
  listed : ∃ names, fs.directories p.enginesDirectory = .ok names ∧ directory ∈ names ∧
    ∀ other ∈ names, Naming.toConstant other = engine → other ≤ directory
  spells : Naming.toConstant directory = engine

/-- The API directory is named after the directory, and not after the engine. -/
theorem Houses.apiDirectory {p : Protection} {fs : FileSystem} {engine directory : String}
    (h : p.Houses fs engine directory) : p.apiDirectory fs engine = p.apiPlace directory := by
  rw [Protection.apiDirectory, h.named, directoryName_of_found h.spells]
  rfl

theorem directories_of_mem {p : Protection} {fs : FileSystem} {name : String}
    (h : name ∈ p.directoryNames fs) :
    fs.directories p.enginesDirectory = .ok (p.directoryNames fs) := by
  rw [directoryNames] at h ⊢
  cases hnames : fs.directories p.enginesDirectory with
  | ok names => rfl
  | error failure =>
    rw [hnames] at h
    cases h

theorem houses_of_protected {p : Protection} {fs : FileSystem} {engine : String}
    (h : engine ∈ p.protectedEngines (p.survey fs).1) :
    ∃ directory, p.Houses fs engine directory := by
  have hengine : engine ∈ (p.survey fs).1.map Prod.fst :=
    mem_survey.mpr (mem_protectedEngines.mp h).1
  obtain ⟨name, hname, hnamed, hspells⟩ := directory_of_engine hengine
  refine ⟨name, hnamed, ⟨_, directories_of_mem hname, hname, ?_⟩, hspells⟩
  intro other hother hsame
  rw [survey_fst, byDirectory] at hnamed
  refine le_of_named?_ofPairs ?_ hnamed (Naming.toConstant other, other) ?_ hsame
  · exact List.pairwise_map.mpr (pairwise_sorted _)
  · exact List.mem_map.mpr ⟨other, List.mem_mergeSort.mpr hother, rfl⟩

end Protection

namespace Inspection

/-! ## Inspections with a lookup of their own -/

section Looking

variable {m : Type → Type} [Monad m] [MonadLiftT Steady m]
  (look : String → m PublicApi.Artifacts)

def judgeBy (r : Reach) (current : Option String) (file : String) : m Verdict := do
  let s : Session ← liftM (get : Steady Session)
  match Verdict.byPolicy s.protection r current with
  | some verdict => return verdict
  | none => return Verdict.byArtifacts (← look r.engine) r file

def checkBy (path kind : String) (current : Option String) (c : Crossing) :
    m (Option Offense) := do
  let verdict ← judgeBy look c.toReach current path
  liftM (Session.emit (checkedEvent path kind c current verdict))
  if verdict.allowed then return none
  let s : Session ← liftM (get : Steady Session)
  let offense := Offense.ofCrossing s.protection path c current
  match c.model with
  | none => return some offense
  | some model =>
    if ← liftM (Session.isModel model) then return some offense
    liftM (Session.emit (skippedEvent path c model))
    return none

def checkNodesBy (fs : FileSystem) (t : SourceTree) (current : Option String) :
    List Node → m (List Offense)
  | [] => return []
  | n :: rest => do
    let found ← liftM (crossingAt fs t current n)
    let offense ←
      match found with
      | some (kind, c) => checkBy look t.path kind current c
      | none => pure none
    return offense.toList ++ (← checkNodesBy fs t current rest)

def inspectBy (fs : FileSystem) (t : SourceTree) : m (List Offense) := do
  liftM Session.revalidate
  let s : Session ← liftM (get : Steady Session)
  let current := s.protection.ownerOf t.path
  let offenses ← checkNodesBy look fs t current t.nodes.toList
  let engine := if (current.getD "").isEmpty then "<main>" else current.getD ""
  liftM (Session.write [⟨.debug, .inspection, t.path ++ ": " ++ toString offenses.length ++
    " offense(s) (engine " ++ engine ++ ")"⟩])
  return offenses

end Looking

theorem checkBy_artifacts (fs : FileSystem) (path kind : String) (current : Option String)
    (c : Crossing) :
    checkBy (Session.artifacts fs) path kind current c = check fs path kind current c := by
  rw [checkBy, check]
  simp only [Session.requireAnswer_clear, pure_bind]
  rfl

theorem checkNodesBy_artifacts (fs : FileSystem) (t : SourceTree) (current : Option String)
    (nodes : List Node) :
    checkNodesBy (Session.artifacts fs) fs t current nodes = checkNodes fs t current nodes := by
  induction nodes with
  | nil => rfl
  | cons n rest ih =>
    rw [checkNodesBy, checkNodes, requireEnginesAt_clear, pure_bind, ih]
    refine bind_congr fun found => ?_
    cases found with
    | none => rfl
    | some found =>
      show checkBy (Session.artifacts fs) t.path found.1 current found.2 >>= _ =
        check fs t.path found.1 current found.2 >>= _
      rw [checkBy_artifacts]

/-- With the lookup of the session it is the inspection. -/
theorem inspectBy_artifacts (fs : FileSystem) (t : SourceTree) :
    inspectBy (Session.artifacts fs) fs t = inspect fs t := by
  rw [inspectBy, inspect]
  simp only [checkNodesBy_artifacts]
  rfl

/-! ## Noting the lookups -/

/-- Work in a session beside a list of the engines that were looked up. -/
abbrev Watched := ExceptT Failure (StateT (List String) Steady)

def watch (fs : FileSystem) (engine : String) : Watched PublicApi.Artifacts := do
  modify (· ++ [engine])
  ExceptT.mk (liftM (Session.artifacts fs engine).run)

/-- In every session of a kind the watched work does what the work does, and only engines with a
property are noted; work that succeeds leaves the session of that kind. -/
def Watches {α : Type} (I : Session → Prop) (P : String → Prop) (x : Watched α) (y : Work α) :
    Prop :=
  ∀ s looked, I s → ∃ more : List String, (∀ engine ∈ more, P engine) ∧
    (x.run.run looked).run s = (((y.run.run s).1, looked ++ more), (y.run.run s).2) ∧
    ∀ a, (y.run.run s).1 = .ok a → I (y.run.run s).2

section Watching

variable {α β : Type} {I : Session → Prop} {P : String → Prop}

theorem run_bind_of_ok {x : Watched α} {a : α} {looked looked' : List String} {s s' : Session}
    (f : α → Watched β) (h : (x.run.run looked).run s = ((.ok a, looked'), s')) :
    ((x >>= f).run.run looked).run s = ((f a).run.run looked').run s' := by
  rw [ExceptT.run_bind, StateT.run_bind, StateT.run_bind, h]
  rfl

theorem run_bind_of_error {x : Watched α} {failure : Failure} {looked looked' : List String}
    {s s' : Session} (f : α → Watched β)
    (h : (x.run.run looked).run s = ((.error failure, looked'), s')) :
    ((x >>= f).run.run looked).run s = ((.error failure, looked'), s') := by
  rw [ExceptT.run_bind, StateT.run_bind, StateT.run_bind, h]
  rfl

namespace Watches

theorem of_pure (a : α) : Watches I P (pure a) (pure a) := by
  intro s looked hs
  refine ⟨[], List.forall_mem_nil _, ?_, fun _ _ => hs⟩
  rw [List.append_nil]
  rfl

theorem of_bind {x : Watched α} {y : Work α} {f : α → Watched β} {g : α → Work β}
    (hx : Watches I P x y) (hf : ∀ a, Watches I P (f a) (g a)) :
    Watches I P (x >>= f) (y >>= g) := by
  intro s looked hs
  obtain ⟨more, hmore, hrun, hs'⟩ := hx s looked hs
  generalize hwork : y.run.run s = result at hrun hs'
  obtain ⟨answer, s'⟩ := result
  cases answer with
  | error failure =>
    rw [run_bind_of_error f hrun, Session.run_bind_of_error g hwork]
    exact ⟨more, hmore, rfl, fun b hok => by cases hok⟩
  | ok a =>
    obtain ⟨further, hfurther, hrun', hs''⟩ := hf a s' (looked ++ more) (hs' a rfl)
    rw [run_bind_of_ok f hrun, Session.run_bind_of_ok g hwork, hrun', List.append_assoc]
    refine ⟨more ++ further, ?_, rfl, hs''⟩
    intro engine hengine
    exact (List.mem_append.mp hengine).elim (hmore engine) (hfurther engine)

theorem of_steady {x : Steady α} {a : α} {f : α → Watched β} {g : α → Work β} (hx : Yields I x a)
    (hf : Watches I P (f a) (g a)) : Watches I P (liftM x >>= f) (liftM x >>= g) := by
  intro s looked hs
  obtain ⟨rfl, hs'⟩ := hx s hs
  exact hf (x.run s).2 looked hs'

theorem of_get {f : Session → Watched β} {g : Session → Work β}
    (hf : ∀ s, I s → Watches I P (f s) (g s)) :
    Watches I P (liftM (get : Steady Session) >>= f) (get >>= g) :=
  fun s looked hs => hf s hs s looked hs

theorem of_look {fs : FileSystem} {engine : String} {r : Except Failure PublicApi.Artifacts}
    (hkept : Settles I (Session.artifacts fs engine) r) (hengine : P engine) :
    Watches I P (watch fs engine) (Session.artifacts fs engine) := by
  intro s looked hs
  obtain ⟨hanswer, hs'⟩ := hkept s hs
  refine ⟨[engine], ?_, rfl, fun a hok => hs' a (hanswer.symm.trans hok)⟩
  intro other hother
  rwa [List.mem_singleton.mp hother]

end Watches
end Watching

section Inspecting

variable {I : Session → Prop} {P : String → Prop} {p : Protection} {source : Persistence.Source}
  {fs : FileSystem} (carried : Carries I p source fs)

include carried

theorem watches_judge {c : Crossing} {current : Option String} (file : String)
    (hlook : Verdict.byPolicy p c.toReach current = none →
      c.engine ∈ p.protectedEngines (p.survey fs).1 ∧ P c.engine) :
    Watches I P (judgeBy (watch fs) c.toReach current file)
      (Session.judge fs c.toReach current file) := by
  refine .of_get fun s hs => ?_
  rw [carried.protection s hs]
  cases hpolicy : Verdict.byPolicy p c.toReach current with
  | some verdict => exact .of_pure _
  | none =>
    obtain ⟨hengine, hnoted⟩ := hlook hpolicy
    exact .of_bind (.of_look (carried.artifacts (p.obstacle?_clear fs) c.engine hengine) hnoted)
      fun _ => .of_pure _

theorem watches_check (path kind : String) {c : Crossing} {current : Option String}
    (hlook : Verdict.byPolicy p c.toReach current = none →
      c.engine ∈ p.protectedEngines (p.survey fs).1 ∧ P c.engine) :
    Watches I P (checkBy (watch fs) path kind current c) (check fs path kind current c) := by
  rw [← checkBy_artifacts]
  refine .of_bind (watches_judge carried path hlook) fun verdict => ?_
  refine .of_steady (carried.emit _) ?_
  cases verdict.allowed with
  | true => exact .of_pure _
  | false =>
    refine .of_get fun s _ => ?_
    cases c.model with
    | none => exact .of_pure _
    | some model =>
      refine .of_steady (carried.isModel model rfl) ?_
      cases (source model).isModel with
      | true => exact .of_pure _
      | false => exact .of_steady (carried.emit _) (.of_pure _)

theorem watches_checkNodes {t : SourceTree} {current : Option String}
    (hnoted : ∀ n found, (Rules.found p source fs).crossingAt t current n = some found →
      Verdict.byPolicy p found.2.toReach current = none → P found.2.engine) (nodes : List Node) :
    Watches I P (checkNodesBy (watch fs) fs t current nodes) (checkNodes fs t current nodes) := by
  induction nodes with
  | nil => exact .of_pure _
  | cons n rest ih =>
    rw [checkNodes, requireEnginesAt_clear, pure_bind]
    refine .of_steady (yields_crossingAt carried fun _ => p.obstacle?_clear fs) ?_
    cases hfound : (Rules.found p source fs).crossingAt t current n with
    | none => exact .of_bind (.of_pure none) fun _ => .of_bind ih fun _ => .of_pure _
    | some found =>
      have hcheck := watches_check carried t.path found.1 fun hpolicy =>
        ⟨Rules.engine_of_crossingAt hfound hpolicy, hnoted n found hfound hpolicy⟩
      exact .of_bind hcheck fun _ => .of_bind ih fun _ => .of_pure _

theorem watches_inspect {t : SourceTree}
    (hnoted : ∀ n found,
      (Rules.found p source fs).crossingAt t (p.ownerOf t.path) n = some found →
        Verdict.byPolicy p found.2.toReach (p.ownerOf t.path) = none → P found.2.engine) :
    Watches I P (inspectBy (watch fs) fs t) (inspect fs t) := by
  refine .of_steady carried.revalidate (.of_get fun s hs => ?_)
  rw [carried.protection s hs]
  exact .of_bind (watches_checkNodes carried hnoted t.nodes.toList) fun _ =>
    .of_steady (carried.write _) (.of_pure _)

end Inspecting

end Inspection

/-! ## What a decision depends on -/

/-- Every path below the directory leads to the same content in both file systems, or to none. -/
def FileSystem.SameBelow (fs₁ fs₂ : FileSystem) (directory : Path) : Prop :=
  ∀ below, (fs₁.content (directory.join ⟨0, below⟩)).toOption =
    (fs₂.content (directory.join ⟨0, below⟩)).toOption

namespace PublicApi.Catalog

variable {fs₁ fs₂ : FileSystem} {directory : Path}

theorem sameContents_of_sameBelow (h : fs₁.SameBelow fs₂ directory) :
    SameContents fs₁ fs₂ directory :=
  sameContents_of_content fun kind => h [kind.fileName]

end PublicApi.Catalog

/-- What an engine publishes is read from its API directory only. -/
theorem Protection.published_of_sameBelow {p : Protection} {fs₁ fs₂ : FileSystem} {engine : String}
    (hnames : ∀ name, name ∈ p.directoryNames fs₁ ↔ name ∈ p.directoryNames fs₂)
    (hbelow : ∀ directory, p.apiDirectory fs₁ engine = .ok directory →
      fs₁.SameBelow fs₂ directory) :
    p.published fs₁ engine = p.published fs₂ engine := by
  rw [published, published, ← apiDirectory_congr (survey_congr hnames)]
  cases hdirectory : p.apiDirectory fs₁ engine with
  | error fault => rfl
  | ok directory =>
    dsimp only
    rw [PublicApi.Catalog.lookAt_clear, PublicApi.Catalog.lookAt_clear,
      PublicApi.Catalog.artifactsIn_congr
        (PublicApi.Catalog.sameContents_of_sameBelow (hbelow directory hdirectory))]

namespace Situation

/-- The API directory of an engine for a session that has seen nothing yet. -/
def apiDirectory (x : Situation) (engine : String) : Except Failure Path :=
  ((Session.apiDirectory x.files engine).run.run x.session).1

theorem apiDirectory_eq (x : Situation) (engine : String) :
    x.apiDirectory engine = (x.protection.apiDirectory x.files engine).mapError .template := by
  exact (settles_apiDirectory (x.protection.obstacle?_clear x.files) engine _ (agrees_start ..)).1

/-- Each engine that is looked up is protected, and the file lies in no strongly protected engine. -/
theorem watched_inspect (x : Situation) (trail : Option Audit.Trail) (t : SourceTree) :
    ∃ looked : List String,
      ((Inspection.inspectBy (Inspection.watch x.files) x.files t).run.run []).run
          (.start x.settings x.directory x.source trail) =
        ((x.inspect trail t, looked),
          ((Inspection.inspect x.files t).run.run
            (.start x.settings x.directory x.source trail)).2) ∧
      ∀ engine ∈ looked, engine ∈ x.protectedEngines ∧
        ¬ x.protection.isStrong (x.protection.ownerOf t.path) = true := by
  obtain ⟨looked, hlooked, hrun, -⟩ :=
    Inspection.watches_inspect (carries_agrees x.protection x.source x.files)
      (P := fun engine => engine ∈ x.protectedEngines ∧
        ¬ x.protection.isStrong (x.protection.ownerOf t.path) = true)
      (fun n found hfound hpolicy => ⟨Rules.engine_of_crossingAt hfound hpolicy, fun hstrong =>
        (Verdict.byPolicy_eq_none.mp hpolicy).2.2 (.inl hstrong)⟩)
      _ [] (agrees_start x.settings x.directory x.source trail x.files)
  exact ⟨looked, hrun, hlooked⟩

theorem decide_of_sameBelow {x y : Situation} {reach : Reach} (hsettings : y.settings = x.settings)
    (hdirectory : y.directory = x.directory)
    (hnames : ∀ name, name ∈ x.protection.directoryNames x.files ↔
      name ∈ x.protection.directoryNames y.files)
    (hbelow : ∀ directory, x.apiDirectory reach.engine = .ok directory →
      x.files.SameBelow y.files directory) (current : Option String) (file : String) :
    y.decide reach current file = x.decide reach current file := by
  have hprotection : y.protection = x.protection := by
    rw [protection, protection, hsettings, hdirectory]
  have hpublished : x.rules.published reach.engine = y.rules.published reach.engine := by
    show x.protection.published x.files reach.engine = y.protection.published y.files reach.engine
    rw [hprotection]
    refine Protection.published_of_sameBelow hnames fun directory hdirectory => ?_
    apply hbelow
    rw [apiDirectory_eq, hdirectory]
    rfl
  rw [decide_eq, decide_eq, Rules.verdict, Rules.verdict, protection_rules, protection_rules,
    hprotection, hpublished]

end Situation

/-- The use of an order leads to one lookup. -/
example :
    let fs := PublicApi.Catalog.shopFiles
    (((Inspection.inspectBy (Inspection.watch fs) fs orderUse).run.run []).run
      (.start shopSettings none (Persistence.ofList []) none)).1.2 = ["Shop"] := by
  decide +kernel

end Bulkhead
