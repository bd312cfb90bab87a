/-
Checking many files at once is checking each of them alone.

One session serves all trees of a command, with what it keeps; its offenses are written file by
file, and the first tree that fails ends the command.  As the files of the application stay what they
are, the session agrees with them all the time.  So the output is that of sessions that have seen
nothing yet, put together in order, and neither an earlier file nor the trail makes a difference.
This is `check_eq_alone`.  It holds for every reader of settings and on every host; `check_unsurveyed`
is a check that ends without a status because the engines directory has a name that cannot be one.
-/
import Bulkhead.CommandLine.Report
import Bulkhead.Proofs.Totality

namespace Bulkhead

/-- What a session that has seen nothing yet reports of the tree at a path. -/
def Inspection.freshFile (settings : Settings) (root : Option Path) (source : Persistence.Source)
    (trail : Option Audit.Trail) (host : Host) (path : Path) : Except Failure (List Offense) :=
  ((inspectFile host path).run.run (Session.start settings root source trail)).1

/-- The line that an offense is written as. -/
def Offense.line (o : Offense) : String :=
  Json.write o.toValue

/-! ## Trees that cannot be read -/

namespace SourceTree

/-- There is a tree at the path. -/
def isReadable (host : Host) (path : Path) : Bool :=
  (load host path).isOk

/-- Why there is no tree at the path. -/
def rejection? (host : Host) (path : Path) : Option Failure :=
  match load host path with
  | .ok _ => none
  | .error failure => some failure

theorem isReported_of_ofValue {v : Value} {failure : Failure} (h : ofValue v = .error failure) :
    (Bulkhead.Failure.tree failure).isReported = true := by
  unfold ofValue at h
  repeat' split at h
  all_goals
    cases h
  all_goals rfl

/-- A tree that cannot be read is reported, unless it has an integer that is too long, its file is not
text or its path is none. -/
theorem unreported_of_load {host : Host} {path : Path} {failure : Failure}
    (h : load host path = .error failure)
    (hunreported : (Bulkhead.Failure.tree failure).isReported = false) :
    failure = .longInteger ∨ ∃ why, failure = .unavailable path why ∧ why.isSystem = false := by
  rw [load] at h
  split at h
  · rw [ofText] at h
    split at h
    · rw [isReported_of_ofValue h] at hunreported
      cases hunreported
    · cases h
      cases hunreported
    · cases h
      exact .inl rfl
  · next why _ =>
    cases h
    exact .inr ⟨why, rfl, hunreported⟩

end SourceTree

/-! ## One session for many files -/

namespace Rules

/-- The outcome for the tree at a path. -/
def fileOutcome (r : Rules) (host : Host) (path : Path) : Except Failure (List Offense) :=
  match SourceTree.load host path with
  | .ok t => r.outcome t
  | .error failure => .error (.tree failure)

variable {p : Protection} {source : Persistence.Source} {host : Host}

theorem fileOutcome_eq_error (hplain : Template.IsPlain p.settings.apiPath) {path : Path}
    {failure : Failure} (h : (found p source host).fileOutcome host path = .error failure)
    (hunreported : failure.isReported = false) :
    (∃ fault, failure = .template fault ∧ fault ≠ .unsupported) ∨
      (∃ why, failure = .files why) ∨ (∃ escape, failure = .oracle escape) ∨
      failure = .tree .longInteger ∨
      ∃ why, failure = .tree (.unavailable path why) ∧ why.isSystem = false := by
  rw [fileOutcome] at h
  split at h
  · rcases found_outcome_eq_error h with
      (⟨directory, fault, hfault, rfl⟩ | hfiles) | ⟨name, escape, -, rfl⟩
    · exact .inl ⟨fault, rfl, Template.fault_of_plain hplain hfault⟩
    · exact .inr (.inl hfiles)
    · exact .inr (.inr (.inl ⟨escape, rfl⟩))
  · next hload =>
    cases h
    rcases SourceTree.unreported_of_load hload hunreported with rfl | ⟨why, rfl, hsystem⟩
    · exact .inr (.inr (.inr (.inl rfl)))
    · exact .inr (.inr (.inr (.inr ⟨why, rfl, hsystem⟩)))

/-- Where the API directories are accessible an inspection fails only if there is no tree. -/
theorem isOk_fileOutcome {settings : Settings} {root : Option Path}
    (hformats : Template.Formats settings.apiPath)
    (haccess : (Protection.ofSettings settings root).Accessible host)
    (hasking : ∀ name, host.asking name = none) (source : Persistence.Source) :
    (fun path => ((found (Protection.ofSettings settings root) source host).fileOutcome host
      path).isOk) = SourceTree.isReadable host := by
  funext path
  rw [fileOutcome, SourceTree.isReadable]
  cases SourceTree.load host path with
  | error failure => rfl
  | ok t =>
    obtain ⟨offenses, h⟩ := fresh_of_accessible hformats haccess hasking source none t
    rw [fresh_eq_outcome] at h
    dsimp only
    rw [h]
    rfl

end Rules

section Session

variable {p : Protection} {source : Persistence.Source} {host : Host} {s : Session}

theorem yields_clearTrail : Yields (Agrees p source host) Session.clearTrail () :=
  .of_modify fun _ h => { h with }

theorem settles_inspectFile (path : Path) :
    Settles (Agrees p source host) (Inspection.inspectFile host path)
      ((Rules.found p source host).fileOutcome host path) := by
  rw [Inspection.inspectFile, Rules.fileOutcome]
  cases SourceTree.load host path with
  | ok t => exact settles_inspect (carries_agrees _ _ _) t
  | error failure => exact .of_throw (.tree failure)

theorem freshFile_eq (settings : Settings) (root : Option Path) (source : Persistence.Source)
    (trail : Option Audit.Trail) (host : Host) (path : Path) :
    Inspection.freshFile settings root source trail host path =
      (Rules.found (Protection.ofSettings settings root) source host).fileOutcome host path :=
  (settles_inspectFile path _ (agrees_start settings root source trail host)).1

/-- The offenses of many files, up to the first that fails, and why it does. -/
theorem inspectAll_of_agrees (hs : Agrees p source host s) (paths : List Path) :
    let alone := (Rules.found p source host).fileOutcome host
    let front := paths.takeWhile fun path => (alone path).isOk
    let inspected := CommandLine.inspectAll host s paths
    ∃ reports : List (List Offense), front.map alone = reports.map .ok ∧
      inspected.1 = reports.flatten ∧
      ((front = paths ∧ inspected.2.2 = none) ∨
        ∃ path rest failure, paths = front ++ path :: rest ∧ alone path = .error failure ∧
          inspected.2.2 = some failure) := by
  dsimp only
  induction paths generalizing s with
  | nil => exact ⟨[], rfl, rfl, .inl ⟨rfl, rfl⟩⟩
  | cons path rest ih =>
    obtain ⟨hanswer, hkept⟩ := settles_inspectFile path s hs
    rw [CommandLine.inspectAll, List.takeWhile_cons]
    generalize hmade : (Inspection.inspectFile host path).run.run s = made at hanswer hkept
    obtain ⟨outcome, s'⟩ := made
    obtain rfl : outcome = (Rules.found p source host).fileOutcome host path := hanswer
    cases houtcome : (Rules.found p source host).fileOutcome host path with
    | error failure =>
      exact ⟨[], rfl, rfl, .inr ⟨path, rest, failure, rfl, houtcome, rfl⟩⟩
    | ok offenses =>
      have hcleared := (yields_clearTrail s' (hkept offenses houtcome)).2
      obtain ⟨reports, hreports, hoffenses, hend⟩ := ih hcleared
      refine ⟨offenses :: reports, ?_, congrArg (offenses ++ ·) hoffenses, ?_⟩
      · show _ :: _ = _
        rw [houtcome, hreports]
        rfl
      · rcases hend with ⟨hall, hnone⟩ | ⟨path', rest', failure, hsplit, hfailed, hsome⟩
        · exact .inl ⟨congrArg (path :: ·) hall, hnone⟩
        · exact .inr ⟨path', rest', failure, congrArg (path :: ·) hsplit, hfailed, hsome⟩

end Session

/-! ## The command -/

namespace CommandLine

variable {around : Surroundings}

/-- Settings that can be loaded describe an oracle, if no models are given. -/
theorem oracle?_of_load {path : Path} {settings : Settings} {note : Note}
    (h : Settings.load around.read around.host path = .ok (settings, note)) (models : List String) :
    ∃ oracle, oracle? settings.model around.run models = some oracle := by
  rw [oracle?]
  split
  · rw [Settings.load] at h
    split at h
    · cases h
    · split at h
      · cases h
      · cases h
      · split at h
        · next hread =>
          cases h
          exact Persistence.ofSettings?_of_command
            (Settings.command_of_readFrom (Settings.readFrom_of_ofValue hread)) around.run
        · cases h
  · exact ⟨_, rfl⟩

theorem open?_of_load {path : Path} {settings : Settings} {note : Note}
    (hload : Settings.load around.read around.host path = .ok (settings, note))
    {models : List String} {oracle : Persistence.Oracle}
    (horacle : oracle? settings.model around.run models = some oracle)
    (root : Option Path) (trail : Option Audit.Trail) :
    ∃ session, open? around path root models trail = .ok (session, around.asking oracle) ∧
      Agrees (Protection.ofSettings settings root) oracle.source (around.asking oracle)
        session := by
  rw [open?, hload]
  dsimp only
  rw [horacle]
  exact ⟨_, rfl, { agrees_start settings root oracle.source trail (around.asking oracle) with }⟩

/-- What a check writes and how it ends, by what came of its trees. -/
theorem check_of_open (threshold : Level) {options : CheckOptions} {session : Session}
    {host : Host}
    (h : open? around options.settings options.root options.models
      (if options.trace then some { listener := some 0 } else none) = .ok (session, host)) :
    let inspected := inspectAll host session options.trees
    let report := check threshold around options
    report.output = inspected.1.map Offense.line ∧
      (inspected.2.2 = none → report.ending = .finished (if inspected.1.isEmpty then 0 else 1)) ∧
      ∀ failure, inspected.2.2 = some failure →
        report.ending = if failure.isReported then .finished 2 else .failed failure := by
  intro inspected report
  have hreport : report = check threshold around options := rfl
  rw [check, h] at hreport
  dsimp only at hreport
  have hinspected : inspectAll host session options.trees = inspected := rfl
  rw [hinspected] at hreport
  obtain ⟨offenses, session', failure⟩ := inspected
  cases failure with
  | none =>
    rw [hreport]
    refine ⟨rfl, fun _ => rfl, fun failure h => ?_⟩
    cases h
  | some failure =>
    dsimp only at hreport
    rw [hreport, failing]
    refine ⟨?_, fun h => ?_, fun failure' h => ?_⟩
    · split <;> rfl
    · cases h
    · cases h
      split <;> rfl

/-- A check with given settings and a given oracle, by what comes of each tree alone. -/
theorem check_of_load (threshold : Level) (options : CheckOptions) {settings : Settings}
    {note : Note} {oracle : Persistence.Oracle}
    (hload : Settings.load around.read around.host options.settings = .ok (settings, note))
    (horacle : oracle? settings.model around.run options.models = some oracle) :
    let p := Protection.ofSettings settings options.root
    let host := around.asking oracle
    let alone := (Rules.found p oracle.source host).fileOutcome host
    let front := options.trees.takeWhile fun path => (alone path).isOk
    let report := check threshold around options
    (∃ reports : List (List Offense), front.map alone = reports.map .ok ∧
      report.output = reports.flatMap (List.map Offense.line)) ∧
    ((front = options.trees ∧
        report.ending = .finished (if report.output.isEmpty then 0 else 1)) ∨
      ∃ path rest failure, options.trees = front ++ path :: rest ∧ alone path = .error failure ∧
        report.ending = if failure.isReported then .finished 2 else .failed failure) := by
  intro p host alone front report
  obtain ⟨session, hopen, hsession⟩ := open?_of_load hload horacle options.root
    (if options.trace then some { listener := some 0 } else none)
  obtain ⟨houtput, hfinished, hfailed⟩ := check_of_open threshold hopen
  obtain ⟨reports, hreports, hoffenses, hend⟩ := inspectAll_of_agrees hsession options.trees
  constructor
  · refine ⟨reports, hreports, ?_⟩
    rw [List.flatMap_def, ← List.map_flatten, ← hoffenses]
    exact houtput
  · rcases hend with ⟨hall, hnone⟩ | ⟨path, rest, failure, hsplit, hfailure, hsome⟩
    · refine .inl ⟨hall, ?_⟩
      rw [show report.output = _ from houtput, List.isEmpty_map]
      exact hfinished hnone
    · exact .inr ⟨path, rest, failure, hsplit, hfailure, hfailed failure hsome⟩

theorem check_of_accessible (threshold : Level) (options : CheckOptions) {settings : Settings}
    {note : Note} {oracle : Persistence.Oracle}
    (hload : Settings.load around.read around.host options.settings = .ok (settings, note))
    (horacle : oracle? settings.model around.run options.models = some oracle)
    (hformats : Template.Formats settings.apiPath)
    (haccess : (Protection.ofSettings settings options.root).Accessible (around.asking oracle))
    (hasking : ∀ name, (around.asking oracle).asking name = none)
    (hreported : ∀ path ∈ options.trees, ∀ failure,
      SourceTree.load (around.asking oracle) path = .error failure →
        (Failure.tree failure).isReported = true) :
    let front := options.trees.takeWhile (SourceTree.isReadable (around.asking oracle))
    let report := check threshold around options
    report.ending = .finished (if front.length < options.trees.length then 2
      else if report.output.isEmpty then 0 else 1) := by
  have hreadable := Rules.isOk_fileOutcome hformats haccess hasking oracle.source
  obtain ⟨-, hend⟩ := check_of_load threshold options hload horacle
  rw [hreadable] at hend
  intro front report
  rcases hend with ⟨hall, hending⟩ | ⟨path, rest, failure, hsplit, hfailure, hending⟩
  · have hlength : ¬ front.length < options.trees.length :=
      Nat.not_lt.mpr (congrArg List.length hall).ge
    rw [if_neg hlength]
    exact hending
  · have hlength : front.length < options.trees.length := by
      have hlengths := congrArg List.length hsplit
      rw [List.length_append, List.length_cons] at hlengths
      exact Nat.lt_of_lt_of_eq (Nat.lt_add_of_pos_right (Nat.zero_lt_succ _)) hlengths.symm
    obtain ⟨failure', hunread, rfl⟩ : ∃ failure',
        SourceTree.load (around.asking oracle) path = .error failure' ∧
          failure = .tree failure' := by
      have hunreadable := congrFun hreadable path
      rw [hfailure, SourceTree.isReadable] at hunreadable
      rw [Rules.fileOutcome] at hfailure
      cases hunread : SourceTree.load (around.asking oracle) path with
      | ok t =>
        rw [hunread] at hunreadable
        cases hunreadable
      | error failure' =>
        rw [hunread] at hfailure
        cases hfailure
        exact ⟨failure', rfl, rfl⟩
    have hmem : path ∈ options.trees := hsplit ▸ List.mem_append_right _ List.mem_cons_self
    rw [if_pos hlength]
    rw [hreported path hmem failure' hunread] at hending
    exact hending

/-- With settings that can be loaded and whose template has plain fields, the output is that of new
sessions, one for each tree that comes before the first that fails, whatever the trail; and what
failed decides on the end.  A failure that is not reported is one of the template, of the files, of
the application or of a tree that is no text, has no path or an integer that is too long.  So if the
template can be filled in, the API directories are accessible and every question reaches the
application, and trees that cannot be read are reported, then the status says whether there was such a
tree, or else whether there are offenses. -/
theorem check_eq_alone (threshold : Level) (around : Surroundings) (options : CheckOptions)
    {settings : Settings} {note : Note}
    (hload : Settings.load around.read around.host options.settings = .ok (settings, note))
    (hplain : Template.IsPlain settings.apiPath) :
    ∃ oracle, oracle? settings.model around.run options.models = some oracle ∧
      let p := Protection.ofSettings settings options.root
      let host := around.asking oracle
      ∃ alone : Path → Except Failure (List Offense),
        (∀ trail path,
          Inspection.freshFile settings options.root oracle.source trail host path = alone path) ∧
        (∀ trace,
          let report := check threshold around { options with trace }
          let front := options.trees.takeWhile fun path => (alone path).isOk
          (∃ reports : List (List Offense), front.map alone = reports.map .ok ∧
            report.output = reports.flatMap (List.map Offense.line)) ∧
          ((front = options.trees ∧
              report.ending = .finished (if report.output.isEmpty then 0 else 1)) ∨
            ∃ path rest failure, options.trees = front ++ path :: rest ∧
              alone path = .error failure ∧
              report.ending = if failure.isReported then .finished 2 else .failed failure)) ∧
        (∀ path failure, alone path = .error failure → failure.isReported = false →
          (∃ fault, failure = .template fault ∧ fault ≠ .unsupported) ∨
            (∃ why, failure = .files why) ∨ (∃ escape, failure = .oracle escape) ∨
            failure = .tree .longInteger ∨
            ∃ why, failure = .tree (.unavailable path why) ∧ why.isSystem = false) ∧
        (Template.Formats settings.apiPath → p.Accessible host → (∀ name, host.asking name = none) →
          (∀ path ∈ options.trees, ∀ failure, SourceTree.load host path = .error failure →
            (Failure.tree failure).isReported = true) →
          (∀ path, (alone path).isOk = SourceTree.isReadable host path) ∧
          ∀ trace,
            let report := check threshold around { options with trace }
            let front := options.trees.takeWhile (SourceTree.isReadable host)
            report.ending = .finished (if front.length < options.trees.length then 2
              else if report.output.isEmpty then 0 else 1)) := by
  obtain ⟨oracle, horacle⟩ := oracle?_of_load hload options.models
  refine ⟨oracle, horacle, ?_⟩
  intro p host
  have hcheck (trace : Bool) := check_of_load threshold { options with trace } hload horacle
  refine ⟨(Rules.found p oracle.source host).fileOutcome host,
    fun trail path => freshFile_eq settings options.root oracle.source trail host path, hcheck,
    fun path failure => Rules.fileOutcome_eq_error hplain, ?_⟩
  intro hformats haccess hasking hreported
  refine ⟨congrFun (Rules.isOk_fileOutcome hformats haccess hasking oracle.source), fun trace => ?_⟩
  exact check_of_accessible threshold { options with trace } hload horacle hformats haccess hasking
    hreported

/-- An application with one engine, and elsewhere its settings and two files for trees, of which one
holds none. -/
def shopFolder : FileSystem where
  entries := [(["app"], .directory), (["app", "e"], .directory), (["app", "e", "shop"], .directory),
    (["tmp"], .directory), (["tmp", "boundary.yml"], .file "EnginesPath: e/".toUTF8 1),
    (["tmp", "order.json"], .file ("\x7b\"path\": \"app/order.rb\", \"root\": " ++
      "\x7b\"type\": \"const\", \"value\": \"Shop\", \"children\": []\x7d\x7d").toUTF8 1),
    (["tmp", "broken.json"], .file "\x7b".toUTF8 1)]
  workingDirectory := ["app"]

/-- Surroundings with one text for the settings, which gives the path of the engines. -/
def shopAround (host : Host) (enginesPath : String) : Surroundings where
  host := host
  read := fun _ => .ok (.record [("EnginesPath", .text enginesPath)])
  run := fun _ => .timedOut

/-- A check of a tree, of a file that holds none, and of the tree again. -/
def shopCheck : CheckOptions where
  settings := ⟨1, ["tmp", "boundary.yml"]⟩
  root := none
  models := ["Shop"]
  trace := true
  trees := [⟨1, ["tmp", "order.json"]⟩, ⟨1, ["tmp", "broken.json"]⟩, ⟨1, ["tmp", "order.json"]⟩]

theorem front_shopCheck : shopCheck.trees.takeWhile (SourceTree.isReadable shopFolder) =
    [⟨1, ["tmp", "order.json"]⟩] := by
  decide +kernel

theorem isReported_shopCheck {path : Path} (h : path ∈ shopCheck.trees)
    {failure : SourceTree.Failure} (hfailure : SourceTree.load shopFolder path = .error failure) :
    (Failure.tree failure).isReported = true := by
  have hall : shopCheck.trees.all (fun path => (SourceTree.rejection? shopFolder path).all
    fun failure => (Failure.tree failure).isReported) = true := by decide +kernel
  have hone := List.all_eq_true.mp hall path h
  rwa [SourceTree.rejection?, hfailure] at hone

/-- The offense of the first tree is written, and nothing after it. -/
theorem check_shopFolder :
    ∃ settings note offense,
      Settings.load (shopAround shopFolder "e/").read shopFolder shopCheck.settings =
        .ok (settings, note) ∧
      Inspection.freshFile settings none (Persistence.ofList ["Shop"]) none shopFolder
        ⟨1, ["tmp", "order.json"]⟩ = .ok [offense] ∧
      ∀ trace,
        let report := check .info (shopAround shopFolder "e/") { shopCheck with trace }
        report.output = [offense.line] ∧ report.ending = .finished 2 := by
  have hhost : (shopAround shopFolder "e/").asking
      (.ofSource (Persistence.ofList shopCheck.models)) = (shopFolder : Host) := rfl
  have hapi : (Settings.load (shopAround shopFolder "e/").read shopFolder
      shopCheck.settings).toOption.map (·.1.apiPath) = some Settings.defaultApiPath := by
    decide +kernel
  have hone : (Settings.load (shopAround shopFolder "e/").read shopFolder
      shopCheck.settings).toOption.bind (fun loaded =>
        (Inspection.freshFile loaded.1 none (Persistence.ofList ["Shop"]) none shopFolder
          ⟨1, ["tmp", "order.json"]⟩).toOption.map List.length) = some 1 := by decide +kernel
  cases hload : Settings.load (shopAround shopFolder "e/").read shopFolder shopCheck.settings with
  | error failure =>
    rw [hload] at hapi
    cases hapi
  | ok loaded =>
    obtain ⟨settings, note⟩ := loaded
    rw [hload] at hapi hone
    have hdefault : settings.apiPath = Settings.defaultApiPath := Option.some.inj hapi
    have hplain : Template.IsPlain settings.apiPath := by
      rw [hdefault]
      decide +kernel
    obtain ⟨oracle, horacle, alone, halone, hcheck, -, hstatus⟩ :=
      check_eq_alone .info (shopAround shopFolder "e/") shopCheck hload hplain
    cases horacle
    rw [hhost] at halone hstatus
    obtain ⟨hreadable, hending⟩ := hstatus (hdefault ▸ Template.formats_default)
      (Protection.accessible_clear _ _) (fun _ => rfl) fun _ hpath _ => isReported_shopCheck hpath
    have hfirst : Inspection.freshFile settings none (Persistence.ofList ["Shop"]) none shopFolder
        ⟨1, ["tmp", "order.json"]⟩ = alone ⟨1, ["tmp", "order.json"]⟩ := halone none _
    dsimp only [Except.toOption, Option.bind_some] at hone
    rw [hfirst] at hone
    cases hreport : alone ⟨1, ["tmp", "order.json"]⟩ with
    | error failure =>
      rw [hreport] at hone
      cases hone
    | ok offenses =>
      rw [hreport] at hone
      obtain ⟨offense, rfl⟩ := List.length_eq_one_iff.mp (Option.some.inj hone)
      refine ⟨settings, note, offense, rfl, hfirst.trans hreport, fun trace => ⟨?_, ?_⟩⟩
      · obtain ⟨⟨reports, hreports, houtput⟩, -⟩ := hcheck trace
        rw [funext hreadable, front_shopCheck, List.map_singleton, hreport] at hreports
        obtain ⟨report, rfl⟩ : ∃ report, reports = [report] :=
          List.length_eq_one_iff.mp (by simpa using (congrArg List.length hreports).symm)
        cases hreports
        exact houtput
      · have hstopped := hending trace
        dsimp only at hstopped
        rw [front_shopCheck, if_pos (by decide)] at hstopped
        exact hstopped

/-- How a command ends, if with a status. -/
def Ending.status? : Ending → Option Nat
  | .finished status => some status
  | .failed _ => none

/-- A check whose settings can be loaded, with a template that can be filled in, and whose tree can
be read; the path of the engines has a null character, and there is no status. -/
theorem check_unsurveyed :
    let around := shopAround (Snapshot.hostOf shopFolder) "e\x00/"
    let options := { shopCheck with trees := [⟨1, ["tmp", "order.json"]⟩] }
    (Settings.load around.read around.host options.settings).toOption.map
        (fun loaded => (Template.fill loaded.1.apiPath "shop").isOk) = some true ∧
      options.trees.all (SourceTree.isReadable around.host) = true ∧
      (check .info around options).output = [] ∧
      (check .info around options).ending.status? = none := by
  decide +kernel

end CommandLine

end Bulkhead
