/-
What the checks of a file go by, all at once.

A session looks at the engines directory, the published lists and the models when it first has to.
`Rules` holds what there is to find, and what stands in the way of finding it, and judges references
without a session.  `Rules.outcome` is the outcome of an inspection; where nothing stands in the way
it is `Rules.inspect`, which judges the references of a file one after the other.
-/
import Bulkhead.Inspection
import Bulkhead.Outcome
import Bulkhead.Proofs.Policy
import Bulkhead.Proofs.PublishedFiles

namespace Bulkhead

/-- A reach with its place in the file and the constant to ask about: a crossing without the number
of its node. -/
structure Reference extends Reach where
  location : Location
  model : Option String
deriving DecidableEq

def Crossing.reference (c : Crossing) : Reference where
  toReach := c.toReach
  location := c.node.location
  model := c.model

/-- A constant names a protected engine, or it lies in the interface of the main application. -/
theorem Crossing.engine_of_ofConst {p : Protection} {engines : List String} {t : SourceTree}
    {current : Option String} {depth : Int} {n : Node} {c : Crossing}
    (h : ofConst p engines t current depth n = some c) :
    (p.isStrong current = true ∧ c.engine = mainApp) ∨
      (t.constName n = some c.engine ∧ c.engine ∈ engines) := by
  rw [ofConst] at h
  split at h
  · obtain ⟨engine, hengine, rfl⟩ := Option.map_eq_some_iff.mp h
    rw [engineNamed] at hengine
    split at hengine
    · cases hengine
    · next name hname =>
      split at hengine
      · next hreserved =>
        cases hengine
        rw [isReserved, Bool.and_eq_true] at hreserved
        exact .inl ⟨hreserved.2, rfl⟩
      · split at hengine
        · next hcontains =>
          cases hengine
          exact .inr ⟨hname, List.contains_iff_mem.mp hcontains⟩
        · cases hengine
  · cases h

theorem Crossing.engine_of_ofAssociation {engines : List String} {t : SourceTree} {n : Node}
    {c : Crossing} (h : ofAssociation engines t n = some c) : c.engine ∈ engines := by
  rw [ofAssociation] at h
  split at h
  · cases h
  · split at h
    · cases h
    · split at h
      · next hcontains =>
        cases h
        exact List.contains_iff_mem.mp hcontains
      · cases h

structure Rules where
  protection : Protection
  /-- The protected engines. -/
  engines : List String
  /-- What an engine publishes, unless its API directory cannot be named, listed or read. -/
  published : String → Except Failure PublicApi.Artifacts
  isModel : String → Bool
  /-- What keeps the engines from being surveyed. -/
  blocked : Option Failure := none
  /-- What keeps the application from being asked about a name. -/
  escape : String → Option Failure := fun _ => none

namespace Rules

def verdict (r : Rules) (reach : Reach) (current : Option String) (file : String) :
    Except Failure Verdict :=
  match Verdict.byPolicy r.protection reach current with
  | some verdict => .ok verdict
  | none => (r.published reach.engine).map fun artifacts => Verdict.byArtifacts artifacts reach file

theorem verdict_of_some {r : Rules} {reach : Reach} {current : Option String} {v : Verdict}
    (h : Verdict.byPolicy r.protection reach current = some v) (file : String) :
    r.verdict reach current file = .ok v := by
  rw [verdict, h]

theorem verdict_of_none {r : Rules} {reach : Reach} {current : Option String}
    (h : Verdict.byPolicy r.protection reach current = none) (file : String) :
    r.verdict reach current file =
      (r.published reach.engine).map fun artifacts => Verdict.byArtifacts artifacts reach file := by
  rw [verdict, h]

/-- There is nothing to ask about, or it is a model. -/
def concerns (r : Rules) : Option String → Bool
  | none => true
  | some model => r.isModel model

def report (r : Rules) (path : String) (current : Option String) (c : Reference) : Offense where
  path := path
  location := c.location
  message := Offense.messageFor r.protection c.engine current
  engine := c.engine
  current := current

def offense? (r : Rules) (path : String) (current : Option String) (c : Reference) :
    Except Failure (Option Offense) :=
  (r.verdict c.toReach current path).map fun verdict =>
    if !verdict.allowed && r.concerns c.model then some (r.report path current c) else none

def offenses (r : Rules) (path : String) (current : Option String) :
    List Reference → Except Failure (List Offense)
  | [] => .ok []
  | c :: rest => do
    let offense ← r.offense? path current c
    return offense.toList ++ (← r.offenses path current rest)

/-- The crossing at a node, with its kind. -/
def crossingAt (r : Rules) (t : SourceTree) (current : Option String) (n : Node) :
    Option (String × Crossing) :=
  match n.kind with
  | .const =>
    (Crossing.ofConst r.protection r.engines t current Crossing.defaultDepth n).map ("const", ·)
  | .send => (Crossing.ofAssociation r.engines t n).map ("association", ·)
  | _ => none

def referenceAt (r : Rules) (t : SourceTree) (current : Option String) (n : Node) :
    Option Reference :=
  (r.crossingAt t current n).map fun found => found.2.reference

/-- The references of a tree, in reading order. -/
def references (r : Rules) (t : SourceTree) (current : Option String) : List Reference :=
  t.nodes.toList.filterMap (r.referenceAt t current)

def inspect (r : Rules) (t : SourceTree) : Except Failure (List Offense) :=
  let current := r.protection.ownerOf t.path
  r.offenses t.path current (r.references t current)

/-! ## Outcomes -/

/-- Goes on unless there is a reason not to. -/
def proceed : Option Failure → Except Failure Unit
  | none => .ok ()
  | some failure => .error failure

/-- What keeps it from being told whether there is a crossing at a node. -/
def obstacleAt (r : Rules) (t : SourceTree) (current : Option String) (n : Node) : Option Failure :=
  if Crossing.dependsOnEngines r.protection t current n then r.blocked else none

/-- What a verdict leads to. -/
def conclude (r : Rules) (path : String) (current : Option String) (c : Reference)
    (verdict : Verdict) : Except Failure (Option Offense) :=
  if verdict.allowed then .ok none
  else (proceed (c.model.bind r.escape)).map fun _ =>
    if r.concerns c.model then some (r.report path current c) else none

def settle (r : Rules) (path : String) (current : Option String) (c : Reference) :
    Except Failure (Option Offense) :=
  r.verdict c.toReach current path >>= r.conclude path current c

def outcomeAt (r : Rules) (t : SourceTree) (current : Option String) (n : Node) :
    Except Failure (Option Offense) :=
  proceed (r.obstacleAt t current n) >>= fun _ =>
    match r.referenceAt t current n with
    | some c => r.settle t.path current c
    | none => .ok none

def outcomes (r : Rules) (t : SourceTree) (current : Option String) :
    List Node → Except Failure (List Offense)
  | [] => .ok []
  | n :: rest => do
    let offense ← r.outcomeAt t current n
    return offense.toList ++ (← r.outcomes t current rest)

/-- The outcome of an inspection: the offenses, up to what first stands in the way. -/
def outcome (r : Rules) (t : SourceTree) : Except Failure (List Offense) :=
  r.outcomes t (r.protection.ownerOf t.path) t.nodes.toList

section Clear

variable {r : Rules} (hblocked : r.blocked = none) (hescape : ∀ name, r.escape name = none)

include hescape in
theorem settle_eq_offense? (path : String) (current : Option String) (c : Reference) :
    r.settle path current c = r.offense? path current c := by
  have hanswered : c.model.bind r.escape = none := by
    cases c.model with
    | none => rfl
    | some name => exact hescape name
  rw [settle, offense?]
  cases r.verdict c.toReach current path with
  | error failure => rfl
  | ok verdict =>
    show r.conclude path current c verdict = Except.ok _
    rw [conclude, hanswered]
    dsimp only
    cases verdict.allowed <;> rfl

include hblocked hescape

theorem outcomes_eq_offenses (t : SourceTree) (current : Option String) (nodes : List Node) :
    r.outcomes t current nodes =
      r.offenses t.path current (nodes.filterMap (r.referenceAt t current)) := by
  induction nodes with
  | nil => rfl
  | cons n rest ih =>
    rw [outcomes, ih, outcomeAt, obstacleAt, hblocked, ite_self]
    cases hreference : r.referenceAt t current n with
    | none =>
      rw [List.filterMap_cons_none hreference]
      cases r.offenses t.path current (rest.filterMap (r.referenceAt t current)) <;> rfl
    | some c =>
      rw [List.filterMap_cons_some hreference, offenses, ← settle_eq_offense? hescape]
      rfl

/-- Where nothing stands in the way, the outcome is that of judging the references. -/
theorem outcome_eq_inspect (t : SourceTree) : r.outcome t = r.inspect t :=
  outcomes_eq_offenses hblocked hescape t _ _

end Clear

/-! ## References -/

/-- What engines publish is asked of protected engines only: the interface of the main application
counts as an engine where strong protection has decided before. -/
theorem engine_of_crossingAt {r : Rules} {t : SourceTree} {current : Option String} {n : Node}
    {found : String × Crossing} (h : r.crossingAt t current n = some found)
    (hopen : Verdict.byPolicy r.protection found.2.toReach current = none) :
    found.2.engine ∈ r.engines := by
  obtain ⟨-, -, hweak⟩ := Verdict.byPolicy_eq_none.mp hopen
  rw [crossingAt] at h
  split at h
  · obtain ⟨c, hc, rfl⟩ := Option.map_eq_some_iff.mp h
    rcases Crossing.engine_of_ofConst hc with ⟨hstrong, -⟩ | ⟨-, hengine⟩
    · exact absurd (.inl hstrong) hweak
    · exact hengine
  · obtain ⟨c, hc, rfl⟩ := Option.map_eq_some_iff.mp h
    exact Crossing.engine_of_ofAssociation hc
  · cases h

/-- At a constant the rules say which engine its name stands for. -/
theorem referenceAt_of_const (t : SourceTree) (current : Option String) {n : Node}
    (hkind : n.kind = .const) :
    (∃ (name : String) (reference : String → Reference), ∀ r : Rules,
      r.referenceAt t current n =
        if Crossing.isReserved r.protection current name then some (reference Crossing.mainApp)
        else if r.engines.contains name then some (reference name) else none) ∨
    (∀ r : Rules, r.referenceAt t current n = none) := by
  simp only [referenceAt, crossingAt, hkind, Crossing.ofConst]
  by_cases hcandidate : Crossing.isCandidate t n = true
  · simp only [if_pos hcandidate, Crossing.engineNamed]
    cases t.constName n with
    | none => exact .inr fun r => rfl
    | some name =>
      refine .inl ⟨name, fun engine => Crossing.reference
        { engine
          lineage := (t.lineage n Crossing.defaultDepth).map fun n => Constant.bare n.source
          throughApi := Crossing.isThroughApi t n
          node := n
          model := t.constName (t.outermost n) }, fun r => ?_⟩
      dsimp only
      split
      · rfl
      · split <;> rfl
  · simp only [if_neg hcandidate]
    exact .inr fun r => rfl

/-- At a call the rules say whether the engine of an association is protected. -/
theorem referenceAt_of_send (t : SourceTree) (current : Option String) {n : Node}
    (hkind : n.kind = .send) :
    (∃ (engine : String) (reference : Reference), ∀ r : Rules,
      r.referenceAt t current n =
        if r.engines.contains engine then some reference else none) ∨
    (∀ r : Rules, r.referenceAt t current n = none) := by
  simp only [referenceAt, crossingAt, hkind, Crossing.ofAssociation]
  cases Crossing.associated? t n with
  | none => exact .inr fun r => rfl
  | some found =>
    dsimp only
    cases Crossing.leadingEngine found.2 with
    | none => exact .inr fun r => rfl
    | some engine =>
      refine .inl ⟨engine, Crossing.reference
        { engine
          lineage := [found.2]
          throughApi := (Constant.segments found.2)[1]? == some Crossing.apiSegment
          node := found.1
          model := none }, fun r => ?_⟩
      dsimp only
      split <;> rfl

/-- All that the rules have to do with the reference at a node. -/
theorem referenceAt_cases (t : SourceTree) (current : Option String) (n : Node) :
    (∃ (name : String) (reference : String → Reference), ∀ r : Rules,
      r.referenceAt t current n =
        if Crossing.isReserved r.protection current name then some (reference Crossing.mainApp)
        else if r.engines.contains name then some (reference name) else none) ∨
    (∃ (engine : String) (reference : Reference), ∀ r : Rules,
      r.referenceAt t current n =
        if r.engines.contains engine then some reference else none) ∨
    (∀ r : Rules, r.referenceAt t current n = none) := by
  cases hkind : n.kind with
  | const =>
    rcases referenceAt_of_const t current hkind with hconst | hnone
    · exact .inl hconst
    · exact .inr (.inr hnone)
  | send => exact .inr (referenceAt_of_send t current hkind)
  | _ => exact .inr (.inr fun r => by rw [referenceAt, crossingAt, hkind]; rfl)

end Rules

namespace Protection

/-- The API directory of an engine, as it is found now. -/
def apiDirectory (p : Protection) (host : Host) (engine : String) :
    Except Template.Fault Path :=
  let found := named? engine (p.survey host).1
  (Template.fill p.settings.apiPath (PublicApi.Catalog.directoryName found engine)).map fun path =>
    p.enginesDirectory.join (.ofString path)

/-- What an engine publishes, as it is found now. -/
def published (p : Protection) (host : Host) (engine : String) :
    Except Failure PublicApi.Artifacts :=
  match p.apiDirectory host engine with
  | .ok directory => PublicApi.Catalog.lookAt host engine directory
  | .error fault => .error (.template fault)

/-- What an engine publishes, if its API directory can be named, and nothing otherwise. -/
def artifacts (p : Protection) (fs : FileSystem) (engine : String) : PublicApi.Artifacts :=
  match p.apiDirectory fs engine with
  | .ok directory => PublicApi.Catalog.artifactsIn fs directory
  | .error _ => ⟨[], []⟩

end Protection

/-! ## Templates that can be filled in -/

namespace Template

/-- The template can be filled in for every directory. -/
def Formats (template : String) : Prop :=
  ∀ directory, ∃ path, fill template directory = .ok path

theorem fillPieces_of_ok {first filled : List Char} {pieces : List Piece} (second : List Char)
    (h : fillPieces first pieces = .ok filled) :
    ∃ filled', fillPieces second pieces = .ok filled' := by
  induction pieces generalizing filled with
  | nil => exact ⟨[], rfl⟩
  | cons piece rest ih =>
    have hrest {f : List Char → List Char} (g : List Char → List Char)
        (h : (fillPieces first rest).map f = .ok filled) :
        ∃ filled', (fillPieces second rest).map g = .ok filled' := by
      obtain ⟨made, hmade, -⟩ := map_eq_ok.mp h
      obtain ⟨made', hmade'⟩ := ih hmade
      exact ⟨g made', map_eq_ok.mpr ⟨made', hmade', rfl⟩⟩
    cases piece with
    | char c => exact hrest (c :: ·) h
    | field name =>
      rw [fillPieces, fieldText] at h ⊢
      by_cases hname : name = "engine".toList
      · rw [if_pos hname] at h ⊢
        exact hrest (second ++ ·) h
      · rw [if_neg hname] at h
        cases h
    | unbalanced => cases h
    | elaborate => cases h

/-- A template that can be filled in once can be filled in always: the directory does not matter. -/
theorem formats_of_fill {template : String} (directory : String)
    (h : (fill template directory).isOk = true) : Formats template := by
  intro other
  cases hpieces : fillPieces directory.toList (pieces none template.toList) with
  | error fault =>
    rw [fill, hpieces] at h
    cases h
  | ok filled =>
    obtain ⟨filled', hfilled⟩ := fillPieces_of_ok other.toList hpieces
    exact ⟨String.ofList filled', map_eq_ok.mpr ⟨filled', hfilled, rfl⟩⟩

theorem formats_default : Formats Settings.defaultApiPath :=
  formats_of_fill "" (by decide +kernel)

end Template

theorem Protection.published_of_formats {p : Protection}
    (hformats : Template.Formats p.settings.apiPath) (fs : FileSystem) (engine : String) :
    p.published fs engine = .ok (p.artifacts fs engine) := by
  obtain ⟨path, hpath⟩ := hformats
    (PublicApi.Catalog.directoryName (named? engine (p.survey fs).1) engine)
  have hdirectory : p.apiDirectory fs engine =
      .ok (p.enginesDirectory.join (.ofString path)) := by
    rw [apiDirectory, hpath]
    rfl
  rw [published, artifacts, hdirectory]
  exact PublicApi.Catalog.lookAt_clear ..

theorem Protection.published_eq_ok {p : Protection} {fs : FileSystem} {engine : String}
    {a : PublicApi.Artifacts} (h : p.published fs engine = .ok a) :
    Template.Formats p.settings.apiPath ∧ a = p.artifacts fs engine := by
  cases hdirectory : p.apiDirectory fs engine with
  | error fault =>
    rw [published, hdirectory] at h
    cases h
  | ok directory =>
    rw [published, hdirectory] at h
    dsimp only at h
    rw [PublicApi.Catalog.lookAt_clear] at h
    cases h
    refine ⟨?_, by rw [artifacts, hdirectory]⟩
    obtain ⟨path, hfill, -⟩ := map_eq_ok.mp hdirectory
    exact Template.formats_of_fill _ (by rw [hfill]; rfl)

/-- The rules that are found on a host. -/
def Rules.found (p : Protection) (source : Persistence.Source) (host : Host) : Rules where
  protection := p
  engines := p.protectedEngines (p.survey host).1
  published := p.published host
  isModel := fun name => (source name).isModel
  blocked := (p.obstacle? host).map .files
  escape := fun name => (host.asking name).map .oracle

/-- Nothing stands in the way of the files of a file system. -/
theorem Rules.outcome_found (p : Protection) (source : Persistence.Source) (fs : FileSystem)
    (t : SourceTree) : (found p source fs).outcome t = (found p source fs).inspect t :=
  outcome_eq_inspect (congrArg (Option.map Failure.files) (p.obstacle?_clear fs)) (fun _ => rfl) t

/-- File systems that have the same engines lead to the same references. -/
theorem Rules.references_of_names {p : Protection} {fs₁ fs₂ : FileSystem}
    (hnames : ∀ name, name ∈ p.directoryNames fs₁ ↔ name ∈ p.directoryNames fs₂)
    (source : Persistence.Source) (t : SourceTree) (current : Option String) :
    (found p source fs₁).references t current = (found p source fs₂).references t current := by
  have hengines : (found p source fs₁).engines = (found p source fs₂).engines := by
    rw [found, found, Protection.survey_congr hnames]
  have hnode (n : Node) : (found p source fs₁).referenceAt t current n =
      (found p source fs₂).referenceAt t current n := by
    rw [referenceAt, referenceAt, crossingAt, crossingAt, hengines]
    rfl
  rw [references, references, funext hnode]

/-! ## Rules that never fail -/

/-- A reference is reported if the verdict is against it, and the constant it names, if any, is a
model. -/
def Reference.offense? (p : Protection) (source : Persistence.Source) (fs : FileSystem)
    (path : String) (current : Option String) (c : Reference) : Option Offense :=
  let verdict := (Verdict.byPolicy p c.toReach current).getD
    (Verdict.byArtifacts (p.artifacts fs c.engine) c.toReach path)
  if verdict.allowed || !c.model.all fun name => (source name).isModel then none
  else
    some
      { path
        location := c.location
        message := Offense.messageFor p c.engine current
        engine := c.engine
        current }

theorem offense?_of_formats {p : Protection} (hformats : Template.Formats p.settings.apiPath)
    (source : Persistence.Source) (fs : FileSystem) (path : String) (current : Option String)
    (c : Reference) :
    (Rules.found p source fs).offense? path current c =
      .ok (c.offense? p source fs path current) := by
  have hverdict : (Rules.found p source fs).verdict c.toReach current path =
      .ok ((Verdict.byPolicy p c.toReach current).getD
        (Verdict.byArtifacts (p.artifacts fs c.engine) c.toReach path)) := by
    cases hpolicy : Verdict.byPolicy p c.toReach current with
    | some verdict => rw [Rules.verdict_of_some hpolicy, Option.getD_some]
    | none =>
      have hpublished : (Rules.found p source fs).published c.engine =
          .ok (p.artifacts fs c.engine) := Protection.published_of_formats hformats fs c.engine
      rw [Rules.verdict_of_none hpolicy, hpublished]
      rfl
  have hconcerns : (Rules.found p source fs).concerns c.model =
      c.model.all fun name => (source name).isModel := by
    cases c.model <;> rfl
  rw [Rules.offense?, hverdict, hconcerns, Reference.offense?]
  show Except.ok _ = Except.ok _
  dsimp only
  generalize Verdict.allowed _ = allowed
  generalize Option.all _ c.model = concerned
  cases allowed <;> cases concerned <;> rfl

theorem offenses_of_formats {p : Protection} (hformats : Template.Formats p.settings.apiPath)
    (source : Persistence.Source) (fs : FileSystem) (path : String) (current : Option String)
    (references : List Reference) :
    (Rules.found p source fs).offenses path current references =
      .ok (references.filterMap (Reference.offense? p source fs path current)) := by
  induction references with
  | nil => rfl
  | cons c rest ih =>
    rw [Rules.offenses, offense?_of_formats hformats, ih, List.filterMap_cons]
    cases c.offense? p source fs path current <;> rfl

/-! ## A small project

One engine, strongly protected, that publishes nothing. -/

def billingSettings : Settings where
  enginesPath := "engines/"
  closed := by decide
  stronglyProtected := ["billing"]
  apiPath := Settings.defaultApiPath

def billingFiles : FileSystem where
  entries := [(["engines"], .directory), (["engines", "billing"], .directory)]

/-- A file outside the engines that names a constant of one. -/
def invoiceUse : SourceTree where
  path := "app/models/order.rb"
  root := some (.node .const (some "Invoice") "Billing::Invoice" ⟨3, 2⟩
    [some (.node .const (some "Billing") "Billing" ⟨3, 2⟩ [none])])

end Bulkhead
