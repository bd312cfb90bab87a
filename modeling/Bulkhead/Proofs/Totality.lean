/-
When an analysis under accepted settings gives a result.

Accepted settings always describe a source of models, and no tree makes an analysis fail.  What can is
the template of the API directories: to be accepted it has to contain the field for the engine, and
what else stands in it is looked at only when an API directory is named.  An inspection does that for
a reference that the policy alone does not decide, the checksum for every directory of an engine.  And
the host can: the engines directory may have a name that cannot be one, the files of an API directory
may not be listed, and the status of a list may not be had.  `results_of_accepted` gives the exact
conditions, and the templates that are always safe.
-/
import Bulkhead.Proofs.AcceptedSettings
import Bulkhead.Proofs.Checksum

namespace Bulkhead

/-! ## Templates that are safe -/

namespace Template

/-- A part of a template: a character that is text, or the field for the engine. -/
inductive Part where
  | char (c : Char)
  | engine
deriving DecidableEq

namespace Part

/-- How a part is written.  Braces are doubled. -/
def written : Part → List Char
  | char c => if c = opening ∨ c = closing then [c, c] else [c]
  | engine => opening :: ("engine".toList ++ [closing])

def piece : Part → Piece
  | char c => .char c
  | engine => .field "engine".toList

/-- What stands for a part once the directory is filled in. -/
def filled (directory : List Char) : Part → List Char
  | char c => [c]
  | engine => directory

theorem pieces_written (part : Part) (rest : List Char) :
    pieces none (part.written ++ rest) = part.piece :: pieces none rest := by
  have hbraces : opening ≠ closing := by decide
  cases part with
  | engine => simp [written, piece, pieces, opening, closing, isMark]
  | char c =>
    rw [written]
    by_cases hopening : c = opening
    · simp [hopening, piece, pieces]
    · by_cases hclosing : c = closing
      · simp [hclosing, piece, pieces, hbraces.symm]
      · cases rest <;> simp [hopening, hclosing, piece, pieces]

end Part

def ofParts (parts : List Part) : String :=
  String.ofList (parts.flatMap Part.written)

theorem pieces_ofParts (parts : List Part) :
    pieces none (parts.flatMap Part.written) = parts.map Part.piece := by
  induction parts with
  | nil => rfl
  | cons part parts ih => rw [List.flatMap_cons, Part.pieces_written, ih, List.map_cons]

theorem fill_ofParts (parts : List Part) (directory : String) :
    fill (ofParts parts) directory =
      .ok (String.ofList (parts.flatMap (Part.filled directory.toList))) := by
  have hpieces : fillPieces directory.toList (parts.map Part.piece) =
      .ok (parts.flatMap (Part.filled directory.toList)) := by
    induction parts with
    | nil => rfl
    | cons part parts ih =>
      cases part with
      | char c =>
        rw [List.map_cons, Part.piece, fillPieces, ih]
        rfl
      | engine =>
        rw [List.map_cons, Part.piece, fillPieces, fieldText, if_pos rfl, ih]
        rfl
  rw [fill, ofParts, String.toList_ofList, pieces_ofParts, hpieces]
  rfl

theorem formats_ofParts (parts : List Part) : Formats (ofParts parts) :=
  fun directory => ⟨_, fill_ofParts parts directory⟩

theorem fieldFault_ne (name : List Char) (number : Nat) (cs : List Char) :
    fieldFault name number cs ≠ .unsupported := by
  induction cs generalizing number with
  | nil =>
    intro h
    cases h
  | cons c cs ih =>
    rw [fieldFault]
    split
    · intro h
      cases h
    · split
      · intro h
        cases h
      · exact ih _

theorem fault_of_fieldText {engine name : List Char} {fault : Fault}
    (h : fieldText engine name = .error fault) : fault ≠ .unsupported := by
  rw [fieldText] at h
  split at h
  · cases h
  · cases h
    exact fieldFault_ne name 0 name

theorem fault_of_fillPieces {engine : List Char} {pieces : List Piece} {fault : Fault}
    (hplain : .elaborate ∉ pieces) (h : fillPieces engine pieces = .error fault) :
    fault ≠ .unsupported := by
  induction pieces with
  | nil => cases h
  | cons piece rest ih =>
    have hrest := ih (List.not_mem_of_not_mem_cons hplain)
    cases piece with
    | char c => exact hrest (map_eq_error.mp h)
    | field name =>
      rw [fillPieces] at h
      split at h
      · next hfield =>
        cases h
        exact fault_of_fieldText hfield
      · exact hrest (map_eq_error.mp h)
    | unbalanced =>
      cases h
      intro h
      cases h
    | elaborate => exact absurd List.mem_cons_self hplain

/-- Every fault of a plain template is one of its braces and fields. -/
theorem fault_of_plain {template directory : String} {fault : Fault} (hplain : IsPlain template)
    (h : fill template directory = .error fault) : fault ≠ .unsupported :=
  fault_of_fillPieces hplain (map_eq_error.mp h)

end Template

/-- The failure is one of filling in the template or one of the files. -/
def Failure.Arises (template : String) (failure : Failure) : Prop :=
  (∃ directory fault, Template.fill template directory = .error fault ∧
    failure = .template fault) ∨ ∃ why, failure = .files why

/-! ## Inspections -/

namespace Rules

variable {r : Rules} {t : SourceTree} {current : Option String}

theorem outcomes_ok_iff {nodes : List Node} :
    (∃ offenses, r.outcomes t current nodes = .ok offenses) ↔
      ∀ n ∈ nodes, ∃ offense, r.outcomeAt t current n = .ok offense := by
  induction nodes with
  | nil => simp [outcomes]
  | cons n rest ih =>
    rw [List.forall_mem_cons, ← ih, outcomes]
    constructor
    · rintro ⟨found, h⟩
      obtain ⟨offense, hoffense, h⟩ := bind_eq_ok.mp h
      obtain ⟨below, hbelow, -⟩ := bind_eq_ok.mp h
      exact ⟨⟨offense, hoffense⟩, below, hbelow⟩
    · rintro ⟨⟨offense, hoffense⟩, below, hbelow⟩
      rw [hoffense, hbelow]
      exact ⟨_, rfl⟩

/-- The first node that fails is why there is no report. -/
theorem outcomes_eq_error {nodes : List Node} {failure : Failure}
    (h : r.outcomes t current nodes = .error failure) :
    ∃ n ∈ nodes, r.outcomeAt t current n = .error failure := by
  induction nodes with
  | nil => cases h
  | cons n rest ih =>
    rcases bind_eq_error.mp h with hfailed | ⟨offense, -, h⟩
    · exact ⟨n, List.mem_cons_self, hfailed⟩
    · rcases bind_eq_error.mp h with hbelow | ⟨below, -, h⟩
      · obtain ⟨n', hmem, hfailed⟩ := ih hbelow
        exact ⟨n', List.mem_cons_of_mem n hmem, hfailed⟩
      · cases h

/-- At a node it is the engines that are missing or the verdict, if every question is answered. -/
theorem outcomeAt_cases (hescape : ∀ name, r.escape name = none) (n : Node) :
    (∃ failure, r.obstacleAt t current n = some failure ∧
        r.outcomeAt t current n = .error failure) ∨
      (r.obstacleAt t current n = none ∧
        ((r.referenceAt t current n = none ∧ r.outcomeAt t current n = .ok none) ∨
          ∃ c, r.referenceAt t current n = some c ∧
            r.outcomeAt t current n = r.offense? t.path current c)) := by
  rw [outcomeAt]
  cases r.obstacleAt t current n with
  | some failure => exact .inl ⟨failure, rfl, rfl⟩
  | none =>
    refine .inr ⟨rfl, ?_⟩
    cases r.referenceAt t current n with
    | none => exact .inl ⟨rfl, rfl⟩
    | some c => exact .inr ⟨c, rfl, settle_eq_offense? hescape t.path current c⟩

theorem outcomeAt_ok_iff (hescape : ∀ name, r.escape name = none) {n : Node} :
    (∃ offense, r.outcomeAt t current n = .ok offense) ↔
      r.obstacleAt t current n = none ∧ ∀ c, r.referenceAt t current n = some c →
        ∃ v, r.verdict c.toReach current t.path = .ok v := by
  rcases outcomeAt_cases hescape n with
    ⟨failure, hobstacle, houtcome⟩ | ⟨hobstacle, ⟨hreference, houtcome⟩ | ⟨c, hreference, houtcome⟩⟩
  · rw [hobstacle, houtcome]
    constructor
    · rintro ⟨offense, h⟩
      cases h
    · rintro ⟨h, -⟩
      cases h
  · rw [hobstacle, hreference, houtcome]
    refine ⟨fun _ => ⟨rfl, ?_⟩, fun _ => ⟨none, rfl⟩⟩
    intro c h
    cases h
  · rw [hobstacle, hreference, houtcome, offense?]
    constructor
    · rintro ⟨offense, h⟩
      obtain ⟨v, hv, -⟩ := map_eq_ok.mp h
      refine ⟨rfl, fun c' hc' => ?_⟩
      cases hc'
      exact ⟨v, hv⟩
    · rintro ⟨-, h⟩
      obtain ⟨v, hv⟩ := h c rfl
      exact ⟨_, map_eq_ok.mpr ⟨v, hv, rfl⟩⟩

theorem proceed_eq_error {obstacle : Option Failure} {failure : Failure}
    (h : proceed obstacle = .error failure) : obstacle = some failure := by
  cases obstacle with
  | none => cases h
  | some failure' =>
    cases h
    rfl

/-- A node fails for want of the engines, of a verdict or of an answer. -/
theorem outcomeAt_eq_error {n : Node} {failure : Failure}
    (h : r.outcomeAt t current n = .error failure) :
    r.obstacleAt t current n = some failure ∨
      (∃ c : Reference, r.verdict c.toReach current t.path = .error failure) ∨
        ∃ name, r.escape name = some failure := by
  rcases bind_eq_error.mp h with hobstacle | ⟨-, -, h⟩
  · exact .inl (proceed_eq_error hobstacle)
  · split at h
    · next c _ =>
      rcases bind_eq_error.mp h with hverdict | ⟨verdict, -, h⟩
      · exact .inr (.inl ⟨c, hverdict⟩)
      · rw [conclude] at h
        split at h
        · cases h
        · obtain ⟨name, -, hescape⟩ :=
            Option.bind_eq_some_iff.mp (proceed_eq_error (map_eq_error.mp h))
          exact .inr (.inr ⟨name, hescape⟩)
    · cases h

end Rules

namespace PublicApi.Catalog

variable {host : Host} {engine : String} {directory : Path}

theorem lookAt_eq_ok {a : Artifacts} :
    lookAt host engine directory = .ok a ↔
      (∃ files, inventory host directory = .ok files) ∧
        (readArtifacts host engine directory).1 = .ok a := by
  rw [lookAt]
  cases hfiles : inventory host directory with
  | error failure =>
    constructor
    · intro h
      cases h
    · rintro ⟨⟨files, h⟩, -⟩
      cases h
  | ok files =>
    constructor
    · intro h
      exact ⟨⟨files, rfl⟩, mapError_eq_ok.mp h⟩
    · rintro ⟨-, h⟩
      exact mapError_eq_ok.mpr h

theorem lookAt_eq_error {failure : Failure} (h : lookAt host engine directory = .error failure) :
    ∃ why, failure = .files why := by
  rw [lookAt] at h
  split at h
  · cases h
    exact ⟨_, rfl⟩
  · obtain ⟨why, -, rfl⟩ := mapError_eq_error.mp h
    exact ⟨why, rfl⟩

end PublicApi.Catalog

namespace Protection

variable {p : Protection} {host : Host} {engine : String}

/-- What an engine publishes can be had if its API directory has a name, its files can be listed and
its lists can be read. -/
theorem exists_published_iff :
    (∃ a, p.published host engine = .ok a) ↔
      ∃ directory files a, p.apiDirectory host engine = .ok directory ∧
        PublicApi.Catalog.inventory host directory = .ok files ∧
        (PublicApi.Catalog.readArtifacts host engine directory).1 = .ok a := by
  rw [published]
  cases hdirectory : p.apiDirectory host engine with
  | error fault =>
    constructor
    · rintro ⟨a, h⟩
      cases h
    · rintro ⟨directory, files, a, h, -⟩
      cases h
  | ok directory =>
    constructor
    · rintro ⟨a, h⟩
      obtain ⟨⟨files, hfiles⟩, ha⟩ := PublicApi.Catalog.lookAt_eq_ok.mp h
      exact ⟨directory, files, a, rfl, hfiles, ha⟩
    · rintro ⟨directory', files, a, h, hfiles, ha⟩
      cases h
      exact ⟨a, PublicApi.Catalog.lookAt_eq_ok.mpr ⟨⟨files, hfiles⟩, ha⟩⟩

theorem published_eq_error {failure : Failure} (h : p.published host engine = .error failure) :
    failure.Arises p.settings.apiPath := by
  rw [published] at h
  cases hdirectory : p.apiDirectory host engine with
  | error fault =>
    rw [hdirectory] at h
    cases h
    exact .inl ⟨_, fault, map_eq_error.mp hdirectory, rfl⟩
  | ok directory =>
    rw [hdirectory] at h
    exact .inr (PublicApi.Catalog.lookAt_eq_error h)

end Protection

namespace Rules

variable {p : Protection} {source : Persistence.Source} {host : Host} {reach : Reach}
  {current : Option String} {file : String}

/-- There is a verdict if the policy decides, or if what the engine publishes can be had. -/
theorem found_verdict_ok_iff :
    (∃ v, (found p source host).verdict reach current file = .ok v) ↔
      (Verdict.byPolicy p reach current = none → ∃ a, p.published host reach.engine = .ok a) := by
  have hpublished : (found p source host).published reach.engine =
      p.published host reach.engine := rfl
  have hprotection : (found p source host).protection = p := rfl
  rw [verdict, hprotection, hpublished]
  cases Verdict.byPolicy p reach current with
  | some v =>
    refine ⟨fun _ h => ?_, fun _ => ⟨v, rfl⟩⟩
    cases h
  | none =>
    constructor
    · rintro ⟨v, h⟩ -
      obtain ⟨a, ha, -⟩ := map_eq_ok.mp h
      exact ⟨a, ha⟩
    · intro h
      obtain ⟨a, ha⟩ := h rfl
      exact ⟨_, map_eq_ok.mpr ⟨a, ha, rfl⟩⟩

theorem found_verdict_eq_error {failure : Failure}
    (h : (found p source host).verdict reach current file = .error failure) :
    p.published host reach.engine = .error failure := by
  rw [verdict] at h
  split at h
  · cases h
  · exact map_eq_error.mp h

/-- There is a report just when the engines can be surveyed, wherever it depends on them, and what
they publish can be had, wherever the policy does not decide. -/
theorem found_outcome_ok_iff (hasking : ∀ name, host.asking name = none) (t : SourceTree) :
    (∃ offenses, (found p source host).outcome t = .ok offenses) ↔
      (∀ n ∈ t.nodes.toList, Crossing.dependsOnEngines p t (p.ownerOf t.path) n = true →
          p.obstacle? host = none) ∧
        ∀ c ∈ (found p source host).references t (p.ownerOf t.path),
          Verdict.byPolicy p c.toReach (p.ownerOf t.path) = none →
            ∃ a, p.published host c.engine = .ok a := by
  have hescape (name : String) : (found p source host).escape name = none :=
    congrArg (Option.map Failure.oracle) (hasking name)
  have hobstacle (n : Node) :
      (found p source host).obstacleAt t (p.ownerOf t.path) n = none ↔
        (Crossing.dependsOnEngines p t (p.ownerOf t.path) n = true → p.obstacle? host = none) := by
    show (if Crossing.dependsOnEngines p t (p.ownerOf t.path) n then
      (p.obstacle? host).map Failure.files else none) = none ↔ _
    split
    · next hdepends => simp [hdepends]
    · next hfree => simp [hfree]
  refine outcomes_ok_iff.trans ?_
  simp only [outcomeAt_ok_iff hescape, found_verdict_ok_iff, references, List.mem_filterMap]
  constructor
  · intro h
    refine ⟨fun n hn => (hobstacle n).mp (h n hn).1, ?_⟩
    rintro c ⟨n, hn, hc⟩
    exact (h n hn).2 c hc
  · rintro ⟨hclear, hpublished⟩ n hn
    exact ⟨(hobstacle n).mpr (hclear n hn), fun c hc => hpublished c ⟨n, hn, hc⟩⟩

theorem found_outcome_eq_error {t : SourceTree} {failure : Failure}
    (h : (found p source host).outcome t = .error failure) :
    failure.Arises p.settings.apiPath ∨
      ∃ name escape, host.asking name = some escape ∧ failure = .oracle escape := by
  obtain ⟨n, -, hn⟩ := outcomes_eq_error h
  rcases outcomeAt_eq_error hn with hobstacle | ⟨c, hverdict⟩ | ⟨name, hescape⟩
  · rw [obstacleAt] at hobstacle
    split at hobstacle
    · obtain ⟨why, -, rfl⟩ := Option.map_eq_some_iff.mp hobstacle
      exact .inl (.inr ⟨why, rfl⟩)
    · cases hobstacle
  · exact .inl (Protection.published_eq_error (found_verdict_eq_error hverdict))
  · obtain ⟨escape, hasking, rfl⟩ := Option.map_eq_some_iff.mp hescape
    exact .inr ⟨name, escape, hasking, rfl⟩

end Rules

/-! ## Checksums -/

namespace PublicApi.Catalog

variable {c : Catalog} {host : Host}

theorem wholeInventory_ok_iff {names : List String} :
    (∃ files, c.wholeInventory host names = .ok files) ↔
      ∀ name ∈ names, ∃ directory files, c.apiDirectory name = .ok directory ∧
        inventory host directory = .ok files := by
  induction names with
  | nil => simp [wholeInventory]
  | cons name rest ih =>
    rw [List.forall_mem_cons, ← ih, wholeInventory]
    constructor
    · rintro ⟨found, h⟩
      obtain ⟨directory, hdirectory, h⟩ := bind_eq_ok.mp h
      obtain ⟨files, hfiles, h⟩ := bind_eq_ok.mp h
      obtain ⟨below, hbelow, -⟩ := bind_eq_ok.mp h
      exact ⟨⟨directory, files, mapError_eq_ok.mp hdirectory, mapError_eq_ok.mp hfiles⟩,
        below, hbelow⟩
    · rintro ⟨⟨directory, files, hdirectory, hfiles⟩, below, hbelow⟩
      rw [hdirectory, hbelow]
      show ∃ found, (inventory host directory).mapError Failure.files >>= _ = .ok found
      rw [hfiles]
      exact ⟨_, rfl⟩

theorem wholeInventory_eq_error {names : List String} {failure : Failure}
    (h : c.wholeInventory host names = .error failure) : failure.Arises c.apiPath := by
  induction names with
  | nil => cases h
  | cons name rest ih =>
    rcases bind_eq_error.mp h with hdirectory | ⟨directory, -, h⟩
    · obtain ⟨fault, hfault, rfl⟩ := mapError_eq_error.mp hdirectory
      exact .inl ⟨name, fault, map_eq_error.mp hfault, rfl⟩
    · rcases bind_eq_error.mp h with hfiles | ⟨files, -, h⟩
      · obtain ⟨why, -, rfl⟩ := mapError_eq_error.mp hfiles
        exact .inr ⟨why, rfl⟩
      · rcases bind_eq_error.mp h with hbelow | ⟨below, -, h⟩
        · exact ih hbelow
        · cases h

theorem wholeDigest_eq_error {failure : Failure} (h : c.wholeDigest host = .error failure) :
    failure.Arises c.apiPath := by
  rcases bind_eq_error.mp h with hnames | ⟨names, -, h⟩
  · rw [engineNames] at hnames
    split at hnames
    · cases hnames
    · split at hnames
      · cases hnames
      · cases hnames
        exact .inr ⟨_, rfl⟩
  · rcases bind_eq_error.mp h with hfiles | ⟨files, -, h⟩
    · exact wholeInventory_eq_error hfiles
    · cases h

end PublicApi.Catalog

theorem PublicApi.Catalog.wholeDigest_ok_iff {c : Catalog} {host : Host} :
    (∃ digest, c.wholeDigest host = .ok digest) ↔
      ∃ names, c.engineNames host = .ok names ∧ ∀ name ∈ names, ∃ directory files,
        c.apiDirectory name = .ok directory ∧ inventory host directory = .ok files := by
  have hsorted (names : List String) :
      (∃ files, c.wholeInventory host (names.mergeSort fun a b => decide (a ≤ b)) = .ok files) ↔
        ∀ name ∈ names, ∃ directory files, c.apiDirectory name = .ok directory ∧
          inventory host directory = .ok files := by
    rw [wholeInventory_ok_iff]
    simp only [List.mem_mergeSort]
  constructor
  · rintro ⟨digest, h⟩
    obtain ⟨names, hnames, h⟩ := bind_eq_ok.mp h
    obtain ⟨files, hfiles, -⟩ := bind_eq_ok.mp h
    exact ⟨names, hnames, (hsorted names).mp ⟨files, hfiles⟩⟩
  · rintro ⟨names, hnames, h⟩
    obtain ⟨files, hfiles⟩ := (hsorted names).mpr h
    exact ⟨_, bind_eq_ok.mpr ⟨names, hnames, bind_eq_ok.mpr ⟨files, hfiles, rfl⟩⟩⟩

/-- The names of the engines directories can be had just when nothing keeps the engines from being
surveyed: a directory that cannot be listed counts as empty. -/
theorem Protection.exists_engineNames_iff {p : Protection} {host : Host}
    {P : List String → Prop} (hempty : P []) :
    (∃ names, p.catalog.engineNames host = .ok names ∧ P names) ↔
      p.obstacle? host = none ∧ ∀ names, host.directories p.enginesDirectory = .ok names →
        P names := by
  have hplace : p.catalog.enginesDirectory = p.enginesDirectory := rfl
  rw [PublicApi.Catalog.engineNames, obstacle?, hplace]
  cases host.directories p.enginesDirectory with
  | ok names => simp
  | error failure =>
    cases hsystem : failure.cause.isSystem with
    | true => simp [hsystem, hempty]
    | false => simp [hsystem]

section Checksum

variable (settings : Settings) (root : Option Path) (source : Persistence.Source)
  (trail : Option Audit.Trail) (host : Host)

theorem freshChecksum_eq :
    Inspection.freshChecksum settings root source trail host =
      (Protection.ofSettings settings root).catalog.wholeDigest host := by
  have hcatalog : (Session.start settings root source trail).catalog =
      (Protection.ofSettings settings root).catalog := rfl
  rw [Inspection.freshChecksum, Session.checksum, Session.run_get_bind, hcatalog]
  cases (Protection.ofSettings settings root).catalog.wholeDigest host with
  | ok digest => rfl
  | error failure => rfl

theorem freshChecksum_ok_iff :
    let p := Protection.ofSettings settings root
    (∃ digest, Inspection.freshChecksum settings root source trail host = .ok digest) ↔
      p.obstacle? host = none ∧ ∀ names, host.directories p.enginesDirectory = .ok names →
        ∀ name ∈ names, ∃ directory files, p.apiPlace name = .ok directory ∧
          PublicApi.Catalog.inventory host directory = .ok files := by
  intro p
  rw [freshChecksum_eq, PublicApi.Catalog.wholeDigest_ok_iff]
  exact Protection.exists_engineNames_iff (List.forall_mem_nil _)

end Checksum

/-! ## API directories that can be read -/

/-- The engines can be surveyed, and wherever the API directory of one can be named its files can be
listed and its lists read. -/
structure Protection.Accessible (p : Protection) (host : Host) : Prop where
  surveyed : p.obstacle? host = none
  listed : ∀ names, host.directories p.enginesDirectory = .ok names → ∀ name ∈ names,
    ∀ directory, p.apiPlace name = .ok directory →
      ∃ files, PublicApi.Catalog.inventory host directory = .ok files
  read : ∀ names, host.directories p.enginesDirectory = .ok names → ∀ name ∈ names,
    ∀ directory, p.apiPlace name = .ok directory →
      ∀ engine, ∃ artifacts, (PublicApi.Catalog.readArtifacts host engine directory).1 = .ok artifacts

theorem Protection.accessible_clear (p : Protection) (fs : FileSystem) : p.Accessible fs where
  surveyed := p.obstacle?_clear fs
  listed := fun _ _ _ _ directory _ => ⟨_, PublicApi.Catalog.inventory_clear fs directory⟩
  read := fun _ _ _ _ directory _ engine =>
    ⟨_, PublicApi.Catalog.readArtifacts_clear fs engine directory⟩

section Accessible

variable {settings : Settings} {root : Option Path} {host : Host}
  (hformats : Template.Formats settings.apiPath)
  (haccess : (Protection.ofSettings settings root).Accessible host)

include hformats haccess

theorem fresh_of_accessible (hasking : ∀ name, host.asking name = none)
    (source : Persistence.Source) (trail : Option Audit.Trail) (t : SourceTree) :
    ∃ offenses, Inspection.fresh settings root source trail host t = .ok offenses := by
  rw [fresh_eq_outcome]
  refine (Rules.found_outcome_ok_iff hasking t).mpr ⟨fun _ _ _ => haccess.surveyed, ?_⟩
  intro c hc hopen
  obtain ⟨names, hnames, name, hname, hplace⟩ :=
    Protection.apiDirectory_of_protected (Rules.engine_of_mem_references hc hopen)
  obtain ⟨directory, hdirectory⟩ :=
    (Protection.ofSettings settings root).apiPlace_of_formats hformats name
  obtain ⟨files, hfiles⟩ := haccess.listed names hnames name hname directory hdirectory
  obtain ⟨artifacts, hartifacts⟩ :=
    haccess.read names hnames name hname directory hdirectory c.engine
  exact Protection.exists_published_iff.mpr
    ⟨directory, files, artifacts, hplace.trans hdirectory, hfiles, hartifacts⟩

theorem freshChecksum_of_accessible (source : Persistence.Source) (trail : Option Audit.Trail) :
    ∃ digest, Inspection.freshChecksum settings root source trail host = .ok digest := by
  refine (freshChecksum_ok_iff settings root source trail host).mpr ⟨haccess.surveyed, ?_⟩
  intro names hnames name hname
  obtain ⟨directory, hdirectory⟩ :=
    (Protection.ofSettings settings root).apiPlace_of_formats hformats name
  obtain ⟨files, hfiles⟩ := haccess.listed names hnames name hname directory hdirectory
  exact ⟨directory, files, hdirectory, hfiles⟩

end Accessible

/-! ## Accepted settings -/

/-- Settings with a command describe a source of models. -/
theorem Persistence.ofSettings?_of_command {settings : ModelSettings} (h : settings.command ≠ [])
    (run : List String → Outcome) : ∃ source, ofSettings? settings run = some source := by
  have hfilled : settings.command.isEmpty = false := by
    rw [List.isEmpty_eq_false_iff]
    exact h
  rw [ofSettings?, hfilled]
  by_cases hlisted : isListed settings
  · rw [if_pos hlisted]
    exact ⟨_, rfl⟩
  · rw [if_neg hlisted]
    exact ⟨_, rfl⟩

/-- Under accepted settings whose template has plain fields there is a source of models.  If every
question reaches the application, an inspection gives a result just when the engines can be surveyed,
where a node depends on them, and for every reference that the policy leaves open the API directory
can be named, its files listed and its lists read.  The checksum gives one just when the engines can
be surveyed and the API directory of each can be named and its files listed.  Nothing but the template
of these directories and the files makes either fail, and only the files do if all of the template but
the field for the engine is text with its braces doubled; then neither fails where the API directories
are accessible. -/
theorem results_of_accepted {document : Value} {settings : Settings}
    (h : Settings.ofValue document = .ok settings) (hplain : Template.IsPlain settings.apiPath)
    (root : Option Path) (source : Persistence.Source) (trail : Option Audit.Trail) (t : SourceTree)
    (host : Host) (hasking : ∀ name, host.asking name = none) :
    let p := Protection.ofSettings settings root
    let current := p.ownerOf t.path
    let report := Inspection.fresh settings root source trail host t
    let checksum := Inspection.freshChecksum settings root source trail host
    (∀ run, ∃ source, Persistence.ofSettings? settings.model run = some source) ∧
      ((∃ offenses, report = .ok offenses) ↔
        (∀ n ∈ t.nodes.toList, Crossing.dependsOnEngines p t current n = true →
          p.obstacle? host = none) ∧
        ∀ c ∈ (Rules.found p source host).references t current,
          Verdict.byPolicy p c.toReach current = none →
            ∃ directory files artifacts, p.apiDirectory host c.engine = .ok directory ∧
              PublicApi.Catalog.inventory host directory = .ok files ∧
              (PublicApi.Catalog.readArtifacts host c.engine directory).1 = .ok artifacts) ∧
      ((∃ digest, checksum = .ok digest) ↔
        p.obstacle? host = none ∧ ∀ names, host.directories p.enginesDirectory = .ok names →
          ∀ name ∈ names, ∃ directory files, p.apiPlace name = .ok directory ∧
            PublicApi.Catalog.inventory host directory = .ok files) ∧
      (∀ failure, report = .error failure ∨ checksum = .error failure →
        (∃ fault, failure = .template fault ∧ fault ≠ .unsupported) ∨
          ∃ why, failure = .files why) ∧
      (∀ parts, settings.apiPath = Template.ofParts parts →
        (∀ failure, report = .error failure ∨ checksum = .error failure →
          ∃ why, failure = .files why) ∧
        (p.Accessible host →
          (∃ offenses, report = .ok offenses) ∧ ∃ digest, checksum = .ok digest)) := by
  intro p current report checksum
  have hreport : report = (Rules.found p source host).outcome t :=
    fresh_eq_outcome settings root source trail host t
  have harises (failure : Failure)
      (hfailed : report = .error failure ∨ checksum = .error failure) :
      failure.Arises settings.apiPath := by
    rcases hfailed with hfailed | hfailed
    · rcases Rules.found_outcome_eq_error (hreport.symm.trans hfailed) with
        harises | ⟨name, escape, hescape, -⟩
      · exact harises
      · cases (hasking name).symm.trans hescape
    · exact PublicApi.Catalog.wholeDigest_eq_error
        ((freshChecksum_eq settings root source trail host).symm.trans hfailed)
  refine ⟨?_, ?_, freshChecksum_ok_iff settings root source trail host, ?_, ?_⟩
  · exact Persistence.ofSettings?_of_command
      (Settings.command_of_readFrom (Settings.readFrom_of_ofValue h))
  · rw [hreport, Rules.found_outcome_ok_iff hasking]
    exact and_congr_right fun _ => forall₃_congr fun c _ _ => Protection.exists_published_iff
  · intro failure hfailed
    rcases harises failure hfailed with ⟨directory, fault, hfault, rfl⟩ | hfiles
    · exact .inl ⟨fault, rfl, Template.fault_of_plain hplain hfault⟩
    · exact .inr hfiles
  · intro parts hparts
    have hformats : Template.Formats settings.apiPath := hparts ▸ Template.formats_ofParts parts
    refine ⟨fun failure hfailed => ?_, fun haccess => ⟨?_, ?_⟩⟩
    · rcases harises failure hfailed with ⟨directory, fault, hfault, rfl⟩ | hfiles
      · obtain ⟨path, hpath⟩ := hformats directory
        cases hpath.symm.trans hfault
      · exact hfiles
    · exact fresh_of_accessible hformats haccess hasking source trail t
    · exact freshChecksum_of_accessible hformats haccess source trail

/-- Settings that give a template for the API directories. -/
def settingsWithApi (apiPath : String) : Value :=
  .record [("EnginesPath", .text "engines/"), ("ApiPath", .text apiPath)]

/-- The API of each engine in a directory whose name has braces. -/
theorem results_bracedApi :
    ∃ settings, Settings.ofValue (settingsWithApi "\x7bengine\x7d/\x7b\x7bapi\x7d\x7d") =
        .ok settings ∧
      (∃ offenses, Inspection.fresh settings none (Persistence.ofList []) none billingFiles
        invoiceUse = .ok offenses) ∧
      ∃ digest, Inspection.freshChecksum settings none (Persistence.ofList []) none billingFiles =
        .ok digest := by
  obtain ⟨settings, hsettings⟩ : ∃ settings,
      Settings.ofValue (settingsWithApi "\x7bengine\x7d/\x7b\x7bapi\x7d\x7d") = .ok settings :=
    ⟨_, rfl⟩
  have hparts : settings.apiPath = Template.ofParts
      (.engine :: ['/', Template.opening, 'a', 'p', 'i', Template.closing].map .char) := by
    rw [(Settings.readFrom_of_ofValue hsettings).apiPath]
    decide +kernel
  have hplain : Template.IsPlain settings.apiPath := by
    rw [(Settings.readFrom_of_ofValue hsettings).apiPath]
    decide +kernel
  obtain ⟨-, -, -, -, hsafe⟩ := results_of_accepted hsettings hplain none (Persistence.ofList [])
    none invoiceUse billingFiles fun _ => rfl
  exact ⟨settings, hsettings, (hsafe _ hparts).2 (Protection.accessible_clear _ _)⟩

/-- The fault in a template that made something fail. -/
def Failure.fault? {α : Type} : Except Failure α → Option Template.Fault
  | .error (.template fault) => some fault
  | _ => none

/-- Accepted templates with another field, a field without a name and a single brace; each makes
both the inspection and the checksum fail. -/
theorem faults_of_accepted :
    ["\x7bengine\x7d/\x7bother\x7d", "\x7bengine\x7d/\x7b\x7d", "\x7bengine\x7d\x7d"].map
        (fun apiPath => (Settings.ofValue (settingsWithApi apiPath)).toOption.map fun settings =>
          (Failure.fault? (Inspection.fresh settings none (Persistence.ofList []) none billingFiles
            invoiceUse),
          Failure.fault? (Inspection.freshChecksum settings none (Persistence.ofList []) none
            billingFiles))) =
      [some (some (.unknownField "other"), some (.unknownField "other")),
        some (some .numberedField, some .numberedField),
        some (some .unbalanced, some .unbalanced)] := by
  decide +kernel

end Bulkhead
