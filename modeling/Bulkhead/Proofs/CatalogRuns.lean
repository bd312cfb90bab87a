/-
Runs of a catalog: any sequence of questions about what engines publish, while files change and become
readable or not.

Within a pass, that is between two revalidations, all answers about an engine are the same.  The
first question about an engine that gets as far as a listing of its files has the outcome that a look
at the files has at that moment, as long as the digest of a directory tells whether its lists have
changed.  But the engine counts as compared before its lists are read.  If the reading then fails, an
older entry stays on the shelf, and the rest of the pass is answered from it.

All of this rests on what one question does to the catalog (`Consults`): it leaves what is known of
every engine, and what it puts on the shelf was read just then.  `answers_of_runs` is stated for all
runs.
-/
import Mathlib.Data.List.Induction
import Bulkhead.Proofs.Kept
import Bulkhead.Proofs.PublishedFiles

namespace Bulkhead
namespace PublicApi

/-- What can be asked of a catalog. -/
inductive Call where
  | artifacts (engine : String)
  | allowlist (engine : String)
  | legacyDependents (engine : String)
  | revalidate
deriving DecidableEq

inductive Answer where
  | artifacts (artifacts : Artifacts)
  | names (names : List String)
  | done
deriving DecidableEq

namespace Call

/-- The engine that the call asks about. -/
def engine? : Call → Option String
  | .artifacts engine | .allowlist engine | .legacyDependents engine => some engine
  | .revalidate => none

/-- The part of what an engine publishes that the call asks for. -/
def answer : Call → Artifacts → Answer
  | .artifacts _, a => .artifacts a
  | .allowlist _, a => .names a.allowlist
  | .legacyDependents _, a => .names a.legacyDependents
  | .revalidate, _ => .done

theorem engine?_eq_none {call : Call} : call.engine? = none ↔ call = .revalidate := by
  cases call <;> simp [engine?]

end Call

/-- A call, with the host as it is when it is made. -/
structure Moment where
  host : Host
  call : Call

namespace Catalog

/-- The API directory of an engine, given the directories that engines were found in. -/
def home (c : Catalog) (found : String → Option String) (engine : String) :
    Except Template.Fault Path :=
  c.apiDirectory (directoryName (found engine) engine)

/-- What is known of an engine, or else what consulting the catalog gives. -/
def lookUp (c : Catalog) (found : String → Option String) (host : Host) (engine : String) :
    Except Failure Artifacts × Catalog :=
  match c.known? engine, c.home found engine with
  | some artifacts, _ => (.ok artifacts, c)
  | none, .error fault => (.error (.template fault), c)
  | none, .ok directory =>
    ((c.consult host engine directory).1.mapError .files, (c.consult host engine directory).2.1)

/-- What a look at the files of an engine gives at a moment. -/
def freshRead (c : Catalog) (found : String → Option String) (host : Host) (engine : String) :
    Except Failure Artifacts :=
  match c.home found engine with
  | .error fault => .error (.template fault)
  | .ok directory => lookAt host engine directory

def take (c : Catalog) (found : String → Option String) (m : Moment) :
    Except Failure Answer × Catalog :=
  match m.call.engine? with
  | none => (.ok .done, c.revalidate)
  | some engine =>
    ((c.lookUp found m.host engine).1.map m.call.answer, (c.lookUp found m.host engine).2)

/-- The catalog after a run. -/
def after (c : Catalog) (found : String → Option String) (run : List Moment) : Catalog :=
  run.foldl (fun c m => (c.take found m).2) c

/-- The answer to the call that follows a run. -/
def answerTo (c : Catalog) (found : String → Option String) (before : List Moment) (m : Moment) :
    Except Failure Answer :=
  ((c.after found before).take found m).1

/-- The files of an engine cannot be listed, if it has a directory at all. -/
def Unlisted (c : Catalog) (found : String → Option String) (host : Host) (engine : String) : Prop :=
  ∀ directory, c.home found engine = .ok directory →
    ∃ failure, inventory host directory = .error failure

/-- The files of an engine are listed, with this digest, but its lists cannot be read. -/
def Unread (c : Catalog) (found : String → Option String) (host : Host) (engine : String)
    (now : String) : Prop :=
  ∃ directory files failure, c.home found engine = .ok directory ∧
    inventory host directory = .ok files ∧ digest files = now ∧
    (readArtifacts host engine directory).1 = .error failure

/-- The digest of a directory tells the lists of two moments apart. -/
structure Tells (host₁ host₂ : Host) (directory : Path) : Prop where
  /-- The hash function does not collide on the texts of the two listings. -/
  digests : ∀ files₁ files₂, inventory host₁ directory = .ok files₁ →
    inventory host₂ directory = .ok files₂ → digest files₁ = digest files₂ →
    listingText files₁ = listingText files₂
  /-- The text of a listing tells which files there are, with their times. -/
  texts : ∀ files₁ files₂, inventory host₁ directory = .ok files₁ →
    inventory host₂ directory = .ok files₂ → listingText files₁ = listingText files₂ →
    files₁ = files₂
  /-- Files that have the same times have the same contents. -/
  contents : ∀ files, inventory host₁ directory = .ok files → inventory host₂ directory = .ok files →
    SameContents host₁ host₂ directory

variable {c : Catalog} {found : String → Option String} {host : Host} {engine : String}

/-! ## One question -/

theorem lookUp_of_known {artifacts : Artifacts} (h : c.known? engine = some artifacts) :
    c.lookUp found host engine = (.ok artifacts, c) := by
  rw [lookUp, h]

theorem lookUp_of_fault {fault : Template.Fault} (h : c.known? engine = none)
    (hhome : c.home found engine = .error fault) :
    c.lookUp found host engine = (.error (.template fault), c) := by
  rw [lookUp, h, hhome]

theorem lookUp_of_home {directory : Path} (h : c.known? engine = none)
    (hhome : c.home found engine = .ok directory) :
    c.lookUp found host engine =
      ((c.consult host engine directory).1.mapError .files,
        (c.consult host engine directory).2.1) := by
  rw [lookUp, h, hhome]

theorem known?_of_not_verified (h : engine ∉ c.verified) : c.known? engine = none := by
  rw [known?, if_neg (by simpa using h)]

theorem known?_of_not_shelved (h : c.shelved? engine = none) : c.known? engine = none := by
  rw [known?, h]
  exact ite_self _

/-- What is answered is known from then on. -/
theorem known?_lookUp {artifacts : Artifacts} (h : (c.lookUp found host engine).1 = .ok artifacts) :
    (c.lookUp found host engine).2.known? engine = some artifacts := by
  cases hknown : c.known? engine with
  | some artifacts' =>
    rw [lookUp_of_known hknown] at h ⊢
    cases h
    exact hknown
  | none =>
    cases hhome : c.home found engine with
    | error fault =>
      rw [lookUp_of_fault hknown hhome] at h
      cases h
    | ok directory =>
      have hconsults := consults_consult host directory hknown
      rw [lookUp_of_home hknown hhome] at h ⊢
      dsimp only at h
      cases houtcome : (c.consult host engine directory).1 with
      | error failure =>
        rw [houtcome] at h
        cases h
      | ok artifacts' =>
        rw [houtcome] at h hconsults
        cases h
        exact hconsults.known?

/-! ## What every call keeps -/

theorem take_of_revalidate {m : Moment} (h : m.call = .revalidate) :
    c.take found m = (.ok .done, c.revalidate) := by
  rw [take, Call.engine?_eq_none.mpr h]

theorem take_of_engine {m : Moment} (h : m.call.engine? = some engine) :
    c.take found m =
      ((c.lookUp found m.host engine).1.map m.call.answer, (c.lookUp found m.host engine).2) := by
  rw [take, h]

/-- A call revalidates, leaves the catalog alone or consults it about one engine. -/
theorem take_cases (c : Catalog) (found : String → Option String) (m : Moment) :
    (m.call = .revalidate ∧ (c.take found m).2 = c.revalidate) ∨
      (m.call ≠ .revalidate ∧ (c.take found m).2 = c) ∨
      ∃ engine directory outcome, m.call.engine? = some engine ∧ c.known? engine = none ∧
        c.home found engine = .ok directory ∧
        Consults c m.host engine directory outcome (c.take found m).2 := by
  cases hcall : m.call.engine? with
  | none =>
    have hrevalidate := Call.engine?_eq_none.mp hcall
    exact .inl ⟨hrevalidate, by rw [take_of_revalidate hrevalidate]⟩
  | some engine =>
    have hasks : m.call ≠ .revalidate := by
      intro hrevalidate
      rw [hrevalidate] at hcall
      cases hcall
    rw [take_of_engine hcall]
    cases hknown : c.known? engine with
    | some artifacts => exact .inr (.inl ⟨hasks, by rw [lookUp_of_known hknown]⟩)
    | none =>
      cases hhome : c.home found engine with
      | error fault => exact .inr (.inl ⟨hasks, by rw [lookUp_of_fault hknown hhome]⟩)
      | ok directory =>
        refine .inr (.inr ⟨engine, directory, (c.consult m.host engine directory).1, rfl, hknown,
          hhome, ?_⟩)
        rw [lookUp_of_home hknown hhome]
        exact consults_consult m.host directory hknown

theorem after_append (c : Catalog) (found : String → Option String) (before run : List Moment) :
    c.after found (before ++ run) = (c.after found before).after found run := by
  rw [after, List.foldl_append]
  rfl

theorem after_cons (c : Catalog) (found : String → Option String) (m : Moment)
    (run : List Moment) : c.after found (m :: run) = (c.take found m).2.after found run :=
  rfl

/-- What every call keeps is kept by a run. -/
theorem after_induction {P : Catalog → Prop} {run : List Moment}
    (hstep : ∀ m ∈ run, ∀ c, P c → P (c.take found m).2) (h : P c) : P (c.after found run) := by
  induction run generalizing c with
  | nil => exact h
  | cons m run ih =>
    rw [after_cons]
    exact ih (fun m' hm => hstep m' (List.mem_cons_of_mem m hm)) (hstep m List.mem_cons_self c h)

/-- The directories of engines stay where they are. -/
theorem home_take (m : Moment) : (c.take found m).2.home found = c.home found := by
  rcases take_cases c found m with ⟨-, hmade⟩ | ⟨-, hmade⟩ | ⟨_, _, _, -, -, -, hconsults⟩
  · rw [hmade]
    rfl
  · rw [hmade]
  · obtain ⟨hplace, hpath⟩ := hconsults.place
    funext engine
    rw [home, home, apiDirectory, apiDirectory, hplace, hpath]

theorem home_after (run : List Moment) : (c.after found run).home found = c.home found :=
  after_induction (P := fun c' => c'.home found = c.home found)
    (fun m _ _ h => (home_take m).trans h) rfl

/-- The same, with what is known of the directories on the way. -/
theorem after_induction_home {P : Catalog → Prop} {run : List Moment}
    (hstep : ∀ m ∈ run, ∀ c', c'.home found = c.home found → P c' → P (c'.take found m).2)
    (h : P c) : P (c.after found run) := by
  have hboth : (c.after found run).home found = c.home found ∧ P (c.after found run) := by
    refine after_induction (P := fun c' => c'.home found = c.home found ∧ P c') ?_ ⟨rfl, h⟩
    rintro m hm c' ⟨hhome, hc'⟩
    exact ⟨(home_take m).trans hhome, hstep m hm c' hhome hc'⟩
  exact hboth.2

theorem freshRead_after (run : List Moment) :
    (c.after found run).freshRead found host engine = c.freshRead found host engine := by
  rw [freshRead, freshRead, home_after]

/-- What is known stays known until the next revalidation. -/
theorem known?_take {artifacts : Artifacts} {m : Moment} (hcall : m.call ≠ .revalidate)
    (h : c.known? engine = some artifacts) : (c.take found m).2.known? engine = some artifacts := by
  rcases take_cases c found m with
    ⟨hrevalidate, -⟩ | ⟨-, hmade⟩ | ⟨engine', directory, _, -, hknown, -, hconsults⟩
  · exact absurd hrevalidate hcall
  · rw [hmade, h]
  · have hne : engine' ≠ engine := by
      intro hengine
      rw [hengine, h] at hknown
      cases hknown
    rw [hconsults.known?_of_ne hne, h]

/-- What is known answers every question until the next revalidation. -/
theorem lookUp_after {artifacts : Artifacts} {run : List Moment}
    (hrun : ∀ m ∈ run, m.call ≠ .revalidate) (h : c.known? engine = some artifacts) :
    ((c.after found run).lookUp found host engine).1 = .ok artifacts := by
  have hstill : (c.after found run).known? engine = some artifacts :=
    after_induction (P := fun c => c.known? engine = some artifacts)
      (fun m hm _ => known?_take (hrun m hm)) h
  rw [lookUp_of_known hstill]

/-- An engine is compared only when it is asked about and its files are listed. -/
theorem not_verified_take {m : Moment}
    (hcall : m.call.engine? = some engine → c.Unlisted found m.host engine)
    (h : engine ∉ c.verified) : engine ∉ (c.take found m).2.verified := by
  rcases take_cases c found m with
    ⟨-, hmade⟩ | ⟨-, hmade⟩ | ⟨engine', directory, _, hasked, -, hhome, hconsults⟩
  · rw [hmade]
    exact List.not_mem_nil
  · rw [hmade]
    exact h
  · by_cases hengine : engine' = engine
    · subst hengine
      obtain ⟨failure, hfailed⟩ := hcall hasked directory hhome
      generalize (c.take found m).2 = made at hconsults ⊢
      cases hconsults with
      | unlisted => exact h
      | kept hlist | unread hlist | read hlist =>
        rw [hfailed] at hlist
        cases hlist
    · rwa [hconsults.mem_verified_of_ne hengine]

theorem not_verified_after {run : List Moment}
    (hrun : ∀ m ∈ run, m.call.engine? = some engine → c.Unlisted found m.host engine)
    (h : engine ∉ c.verified) : engine ∉ (c.after found run).verified := by
  refine after_induction_home (P := fun c' => engine ∉ c'.verified) ?_ h
  intro m hm c' hhome hopen
  refine not_verified_take (fun hasked => ?_) hopen
  rw [Unlisted, hhome]
  exact hrun m hm hasked

/-- The answer after a question from which on the artifacts are known. -/
theorem answerTo_of_known {before between : List Moment} {m₁ m₂ : Moment} {artifacts : Artifacts}
    (hfirst : m₁.call.engine? = some engine) (hsecond : m₂.call.engine? = some engine)
    (hbetween : ∀ m ∈ between, m.call ≠ .revalidate)
    (h : ((c.after found before).lookUp found m₁.host engine).2.known? engine = some artifacts) :
    c.answerTo found (before ++ m₁ :: between) m₂ = .ok (m₂.call.answer artifacts) := by
  rw [answerTo, take_of_engine hsecond, after_append, after_cons, take_of_engine hfirst,
    lookUp_after hbetween h]
  rfl

/-! ## Entries that are right -/

/-- If what is kept of an engine has the digest of its directory now, it is what the files hold
now. -/
def Sound (host : Host) (engine : String) (directory : Path) (c : Catalog) : Prop :=
  ∀ kept files, c.shelved? engine = some kept → inventory host directory = .ok files →
    kept.digest = digest files → (readArtifacts host engine directory).1 = .ok kept.artifacts

theorem sound_of_not_shelved {directory : Path} (h : c.shelved? engine = none) :
    Sound host engine directory c := by
  intro kept files hkept
  rw [h] at hkept
  cases hkept

theorem sound_of_consults {past : Host} {directory : Path} {made : Catalog}
    {outcome : Except FileSystem.Failure Artifacts}
    (hconsults : Consults c past engine directory outcome made)
    (htells : Tells past host directory) (h : Sound host engine directory c) :
    Sound host engine directory made := by
  cases hconsults with
  | unlisted | kept | unread => exact h
  | @read files artifacts hlist hchanged hread =>
    intro kept files' hkept hlist' hdigest
    rw [shelved?_shelve, if_pos rfl] at hkept
    cases hkept
    obtain rfl := htells.texts files files' hlist hlist'
      (htells.digests files files' hlist hlist' hdigest)
    rw [← readArtifacts_congr (htells.contents files hlist hlist'), hread]

theorem sound_take {directory : Path} {m : Moment} (hhome : c.home found engine = .ok directory)
    (htells : m.call.engine? = some engine → c.Unlisted found m.host engine ∨
      Tells m.host host directory)
    (h : Sound host engine directory c) : Sound host engine directory (c.take found m).2 := by
  rcases take_cases c found m with
    ⟨-, hmade⟩ | ⟨-, hmade⟩ | ⟨engine', directory', _, hasked, hknown, hhome', hconsults⟩
  · rw [hmade]
    exact h
  · rw [hmade]
    exact h
  · by_cases hengine : engine' = engine
    · subst hengine
      obtain rfl : directory = directory' := Except.ok.inj (hhome.symm.trans hhome')
      rcases htells hasked with hunlisted | htells
      · obtain ⟨failure, hfailed⟩ := hunlisted directory hhome
        generalize (c.take found m).2 = made at hconsults ⊢
        cases hconsults with
        | unlisted => exact h
        | kept hlist | unread hlist | read hlist =>
          rw [hfailed] at hlist
          cases hlist
      · exact sound_of_consults hconsults htells h
    · intro kept files hkept
      rw [hconsults.shelved?_of_ne hengine] at hkept
      exact h kept files hkept

theorem sound_after {directory : Path} {run : List Moment} (hempty : c.shelved? engine = none)
    (hhome : c.home found engine = .ok directory)
    (hrun : ∀ m ∈ run, m.call.engine? = some engine →
      c.Unlisted found m.host engine ∨ Tells m.host host directory) :
    Sound host engine directory (c.after found run) := by
  refine after_induction_home (P := Sound host engine directory) ?_ (sound_of_not_shelved hempty)
  intro m hm c' hhome' hsound
  refine sound_take (by rw [hhome', hhome]) (fun hasked => ?_) hsound
  rw [Unlisted, hhome']
  exact hrun m hm hasked

/-- A sound entry or a reading: either way the outcome is that of a look at the files. -/
theorem lookUp_of_sound (hknown : c.known? engine = none)
    (h : ∀ directory, c.home found engine = .ok directory → Sound host engine directory c) :
    (c.lookUp found host engine).1 = c.freshRead found host engine := by
  rw [freshRead]
  cases hhome : c.home found engine with
  | error fault => rw [lookUp_of_fault hknown hhome]
  | ok directory =>
    have hconsults := consults_consult host directory hknown
    rw [lookUp_of_home hknown hhome]
    dsimp only
    rw [lookAt]
    generalize (c.consult host engine directory).1 = outcome at hconsults ⊢
    generalize (c.consult host engine directory).2.1 = made at hconsults
    cases hconsults with
    | unlisted hlist =>
      rw [hlist]
      rfl
    | kept hlist hkept hdigest =>
      rw [hlist, h directory hhome _ _ hkept hlist hdigest]
    | unread hlist hchanged hread => rw [hlist, hread]
    | read hlist hchanged hread => rw [hlist, hread]

/-! ## Readings that fail -/

/-- An engine that is compared and whose lists cannot be read keeps the entry it has. -/
theorem lookUp_of_unread {now : String} {kept : Shelved} (hopen : engine ∉ c.verified)
    (hkept : c.shelved? engine = some kept) (hchanged : kept.digest ≠ now)
    (h : c.Unread found host engine now) :
    (∃ failure, (c.lookUp found host engine).1 = .error (.files failure)) ∧
      (c.lookUp found host engine).2.known? engine = some kept.artifacts := by
  obtain ⟨directory, files, failure, hhome, hlist, rfl, hread⟩ := h
  have hknown := known?_of_not_verified hopen
  have hconsults := consults_consult host directory hknown
  rw [lookUp_of_home hknown hhome]
  dsimp only
  generalize (c.consult host engine directory).1 = outcome at hconsults ⊢
  generalize (c.consult host engine directory).2.1 = made at hconsults ⊢
  cases hconsults with
  | unlisted hlist' =>
    rw [hlist] at hlist'
    cases hlist'
  | kept hlist' hkept' hdigest' =>
    rw [hlist] at hlist'
    rw [hkept] at hkept'
    cases hlist'
    cases hkept'
    exact absurd hdigest' hchanged
  | unread => exact ⟨⟨_, rfl⟩, known?_eq_some.mpr ⟨List.mem_cons_self, kept, hkept, rfl⟩⟩
  | read hlist' hchanged' hread' =>
    rw [hread] at hread'
    cases hread'

/-- The lists of an engine could not be read when it was asked about in this pass. -/
def FailedIn (c : Catalog) (found : String → Option String) (run : List Moment)
    (engine : String) : Prop :=
  ∃ before m since now, run = before ++ m :: since ∧ m.call.engine? = some engine ∧
    c.Unread found m.host engine now ∧ ∀ m' ∈ since, m'.call ≠ .revalidate

theorem failedIn_append {run : List Moment} {m : Moment} (hcall : m.call ≠ .revalidate)
    (h : c.FailedIn found run engine) : c.FailedIn found (run ++ [m]) engine := by
  obtain ⟨before, m', since, now, rfl, hasked, hunread, hsince⟩ := h
  refine ⟨before, m', since ++ [m], now, by simp, hasked, hunread, ?_⟩
  intro m'' hm
  rcases List.mem_append.mp hm with hm | hm
  · exact hsince m'' hm
  · rwa [List.mem_singleton.mp hm]

/-- What is compared is kept, unless reading it has failed in this pass. -/
theorem kept_of_verified (hstart : c.verified = []) (run : List Moment) (engine : String)
    (h : engine ∈ (c.after found run).verified) :
    (∃ kept, (c.after found run).shelved? engine = some kept) ∨ c.FailedIn found run engine := by
  induction run using List.reverseRecOn with
  | nil =>
    rw [after, List.foldl_nil, hstart] at h
    cases h
  | append_singleton run m ih =>
    have hhome : (c.after found run).home found = c.home found := home_after run
    rw [after_append] at h ⊢
    replace h : engine ∈ ((c.after found run).take found m).2.verified := h
    show (∃ kept, ((c.after found run).take found m).2.shelved? engine = some kept) ∨ _
    rcases take_cases (c.after found run) found m with
      ⟨-, hmade⟩ | ⟨hcall, hmade⟩ | ⟨engine', directory, _, hasked, -, hhome', hconsults⟩
    · rw [hmade] at h
      cases h
    · rw [hmade] at h ⊢
      exact (ih h).imp_right (failedIn_append hcall)
    · have hcall : m.call ≠ .revalidate := by
        intro hrevalidate
        rw [hrevalidate] at hasked
        cases hasked
      by_cases hengine : engine' = engine
      · subst hengine
        generalize ((c.after found run).take found m).2 = made at h hconsults ⊢
        cases hconsults with
        | unlisted => exact (ih h).imp_right (failedIn_append hcall)
        | kept hlist hkept => exact .inl ⟨_, hkept⟩
        | @unread files failure hlist hchanged hread =>
          refine .inr ⟨run, m, [], digest files, rfl, hasked, ?_, by simp⟩
          exact ⟨directory, files, failure, by rw [← hhome, hhome'], hlist, rfl, hread⟩
        | read => exact .inl ⟨_, by rw [shelved?_shelve, if_pos rfl]⟩
      · rw [hconsults.mem_verified_of_ne hengine] at h
        rw [hconsults.shelved?_of_ne hengine]
        exact (ih h).imp_right (failedIn_append hcall)

/-! ## Whole runs -/

/-- For every run of a new catalog, on a host that changes in any way from call to call.

Until the next revalidation, all answers about an engine that are given show the same artifacts.  The
first question about an engine after a revalidation, or after the start, that gets a listing of its
files has the outcome of a look at the files at that moment, if the digest of its directory tells that
moment from the earlier ones at which it was asked about; so has every question about an engine of
which nothing is kept.  What is marked as compared is kept, unless reading it has failed in this pass.
And if it fails where an older entry is kept, then the question fails and every later one of the pass
is answered from the older entry. -/
theorem answers_of_runs (enginesDirectory : Path) (apiPath : String)
    (found : String → Option String) :
    let c : Catalog := { enginesDirectory, apiPath }
    (∀ (before between : List Moment) (m₁ m₂ : Moment) (engine : String) (answer : Answer),
      m₁.call.engine? = some engine → m₂.call.engine? = some engine →
      (∀ m ∈ between, m.call ≠ .revalidate) →
      c.answerTo found before m₁ = .ok answer →
      ∃ artifacts, answer = m₁.call.answer artifacts ∧
        c.answerTo found (before ++ m₁ :: between) m₂ = .ok (m₂.call.answer artifacts)) ∧
    (∀ (before since : List Moment) (m : Moment) (engine : String),
      (before = [] ∨ ∃ earlier host, before = earlier ++ [⟨host, .revalidate⟩]) →
      (∀ m' ∈ since, m'.call.engine? = some engine → c.Unlisted found m'.host engine) →
      m.call.engine? = some engine →
      (∀ directory, c.home found engine = .ok directory →
        ∀ m' ∈ before, m'.call.engine? = some engine → Tells m'.host m.host directory) →
      c.answerTo found (before ++ since) m =
        (c.freshRead found m.host engine).map m.call.answer) ∧
    (∀ (run : List Moment) (m : Moment) (engine : String), m.call.engine? = some engine →
      (c.after found run).shelved? engine = none →
      c.answerTo found run m = (c.freshRead found m.host engine).map m.call.answer) ∧
    (∀ (run : List Moment) (engine : String), engine ∈ (c.after found run).verified →
      (∃ kept, (c.after found run).shelved? engine = some kept) ∨ c.FailedIn found run engine) ∧
    ∀ (before between : List Moment) (m₁ m₂ : Moment) (engine now : String) (kept : Shelved),
      engine ∉ (c.after found before).verified →
      (c.after found before).shelved? engine = some kept → kept.digest ≠ now →
      m₁.call.engine? = some engine → c.Unread found m₁.host engine now →
      m₂.call.engine? = some engine → (∀ m ∈ between, m.call ≠ .revalidate) →
      (∃ failure, c.answerTo found before m₁ = .error (.files failure)) ∧
        c.answerTo found (before ++ m₁ :: between) m₂ = .ok (m₂.call.answer kept.artifacts) := by
  intro c
  refine ⟨?_, ?_, ?_, kept_of_verified rfl, ?_⟩
  · intro before between m₁ m₂ engine answer hfirst hsecond hbetween hanswer
    rw [answerTo, take_of_engine hfirst] at hanswer
    obtain ⟨artifacts, hartifacts, rfl⟩ := map_eq_ok.mp hanswer
    exact ⟨artifacts, rfl,
      answerTo_of_known hfirst hsecond hbetween (known?_lookUp hartifacts)⟩
  · intro before since m engine hrevalidated hsince hcall htells
    have hbefore : engine ∉ (c.after found before).verified := by
      rcases hrevalidated with rfl | ⟨earlier, host, rfl⟩
      · exact List.not_mem_nil
      · rw [after_append]
        exact List.not_mem_nil
    -- No question since then gets a listing, so the engine is not compared on the way.
    have hopen : engine ∉ (c.after found (before ++ since)).verified := by
      rw [after_append]
      refine not_verified_after (fun m' hm hasked => ?_) hbefore
      rw [Unlisted, home_after]
      exact hsince m' hm hasked
    rw [answerTo, take_of_engine hcall, lookUp_of_sound (known?_of_not_verified hopen),
      freshRead_after]
    intro directory hdirectory
    rw [home_after] at hdirectory
    refine sound_after rfl hdirectory fun m' hm hasked => ?_
    rcases List.mem_append.mp hm with hm | hm
    · exact .inr (htells directory hdirectory m' hm hasked)
    · exact .inl (hsince m' hm hasked)
  · intro run m engine hcall hnone
    rw [answerTo, take_of_engine hcall, lookUp_of_sound (known?_of_not_shelved hnone)
      (fun directory _ => sound_of_not_shelved hnone), freshRead_after]
  · intro before between m₁ m₂ engine now kept hopen hkept hchanged hfirst hunread hsecond hbetween
    have hunread' : (c.after found before).Unread found m₁.host engine now := by
      rw [Unread, home_after]
      exact hunread
    obtain ⟨⟨failure, hfailed⟩, hknown⟩ := lookUp_of_unread hopen hkept hchanged hunread'
    refine ⟨?_, answerTo_of_known hfirst hsecond hbetween hknown⟩
    rw [answerTo, take_of_engine hfirst, hfailed]
    exact ⟨failure, rfl⟩

/-! ## A list that comes and goes -/

theorem Tells.refl (host : Host) (directory : Path) : Tells host host directory := by
  have hsame {files₁ files₂ : List (Path × Int)} (h₁ : inventory host directory = .ok files₁)
      (h₂ : inventory host directory = .ok files₂) : files₁ = files₂ :=
    Except.ok.inj (h₁.symm.trans h₂)
  exact
    { digests := fun _ _ h₁ h₂ _ => congrArg listingText (hsame h₁ h₂)
      texts := fun _ _ h₁ h₂ _ => hsame h₁ h₂
      contents := fun _ _ _ _ => ⟨rfl, fun _ => rfl⟩ }

theorem Tells.of_ne {fs₁ fs₂ : FileSystem} {directory : Path}
    (h : digest (listing fs₁ directory) ≠ digest (listing fs₂ directory)) :
    Tells fs₁ fs₂ directory := by
  have hne {files₁ files₂ : List (Path × Int)} (h₁ : inventory fs₁ directory = .ok files₁)
      (h₂ : inventory fs₂ directory = .ok files₂) : digest files₁ ≠ digest files₂ := by
    rw [inventory_clear] at h₁ h₂
    cases h₁
    cases h₂
    exact h
  constructor
  · intro files₁ files₂ h₁ h₂ hdigest
    exact absurd hdigest (hne h₁ h₂)
  · intro files₁ files₂ h₁ h₂ htext
    exact absurd (congrArg (fun text : String => Sha256.hex text.toUTF8.toList) htext) (hne h₁ h₂)
  · intro files h₁ h₂
    exact absurd rfl (hne h₁ h₂)

/-- An engine that publishes nothing. -/
def shopFiles : FileSystem where
  entries := [(["e"], .directory), (["e", "shop"], .directory)]

/-- The same engine with a list of one public module, written at the given time. -/
def shopWith (constant : String) (modified : Int) : FileSystem where
  entries := shopFiles.entries ++
    [(["e", "shop", "_allowlist.rb"],
      .file ("module Shop::Api::Allowlist\nPUBLIC_MODULES = [" ++ constant ++ "]\nend").toUTF8
        modified)]

/-- The same engine with an order in its list. -/
def listedShop : FileSystem :=
  shopWith "Shop::Order" 1

/-- The same engine with a directory that is closed to the analysis: its listing is denied, and so is
the status of what is in it. -/
def closedShop : Host where
  files := listedShop
  status := fun p => if p.segments.length = 3 then some .denied else none
  listing := fun p => if p.segments.length = 2 then some .denied else none

/-- A catalog of the engine. -/
def shopCatalog : Catalog where
  enginesDirectory := ⟨0, ["e"]⟩
  apiPath := "\x7bengine\x7d"

theorem home_shop : shopCatalog.home (fun _ => none) "Shop" = .ok ⟨0, ["e", "shop"]⟩ := by
  decide +kernel

theorem tells_shop {fs₁ fs₂ : FileSystem} (h₁ : fs₁ ∈ [shopFiles, listedShop])
    (h₂ : fs₂ ∈ [shopFiles, listedShop]) : Tells fs₁ fs₂ ⟨0, ["e", "shop"]⟩ := by
  have hdigest : digest (listing shopFiles ⟨0, ["e", "shop"]⟩) ≠
      digest (listing listedShop ⟨0, ["e", "shop"]⟩) := by decide +kernel
  simp only [List.mem_cons, List.not_mem_nil, or_false] at h₁ h₂
  rcases h₁ with rfl | rfl <;> rcases h₂ with rfl | rfl
  · exact .refl _ _
  · exact .of_ne hdigest
  · exact .of_ne hdigest.symm
  · exact .refl _ _

theorem answers_shop :
    let found : String → Option String := fun _ => none
    let ask (host : Host) : Moment := ⟨host, .allowlist "Shop"⟩
    (shopCatalog.answerTo found [ask shopFiles, ⟨shopFiles, .revalidate⟩]
      (ask listedShop)).toOption = some (.names ["Shop::Order"]) ∧
    shopCatalog.answerTo found [ask listedShop, ⟨shopFiles, .revalidate⟩,
      ask closedShop] (ask (shopWith "Shop::Invoice" 2)) = .ok (.names ["Shop::Order"]) := by
  intro found ask
  have hruns := answers_of_runs ⟨0, ["e"]⟩ "\x7bengine\x7d" found
  constructor
  · have hfresh := hruns.2.1 [ask shopFiles, ⟨shopFiles, .revalidate⟩] []
      (ask listedShop) "Shop" (.inr ⟨[_], _, rfl⟩)
      (fun _ hm => absurd hm List.not_mem_nil) rfl
    refine (congrArg Except.toOption (hfresh ?_)).trans (by decide +kernel)
    intro directory hdirectory m hm hasked
    obtain rfl : ⟨0, ["e", "shop"]⟩ = directory := Except.ok.inj (home_shop.symm.trans hdirectory)
    simp only [List.mem_cons, List.not_mem_nil, or_false] at hm
    rcases hm with rfl | rfl
    · exact tells_shop List.mem_cons_self (List.mem_cons_of_mem _ List.mem_cons_self)
    · cases hasked
  · have hunread : shopCatalog.Unread found closedShop "Shop" (digest []) :=
      ⟨⟨0, ["e", "shop"]⟩, [], ⟨.denied, ⟨0, ["e", "shop", "_allowlist.rb"]⟩⟩, home_shop,
        by decide +kernel, rfl, by decide +kernel⟩
    exact (hruns.2.2.2.2 [ask listedShop, ⟨shopFiles, .revalidate⟩] []
      (ask closedShop) (ask (shopWith "Shop::Invoice" 2)) "Shop" (digest [])
      ⟨digest (listing listedShop ⟨0, ["e", "shop"]⟩), ⟨["Shop::Order"], []⟩⟩
      (by decide +kernel) (by decide +kernel) (by decide +kernel) rfl hunread rfl
      (fun _ hm => absurd hm List.not_mem_nil)).2

/-- After a failed reading the old list is given for the rest of the pass, although the files can be
read again and hold another one.  Without an old list an engine is marked as compared of which nothing
is kept. -/
theorem shop_stale :
    let found : String → Option String := fun _ => none
    let ask (host : Host) : Moment := ⟨host, .allowlist "Shop"⟩
    let earlier : List Moment :=
      [ask listedShop, ⟨listedShop, .revalidate⟩]
    (shopCatalog.answerTo found earlier (ask closedShop)).toOption = none ∧
    (shopCatalog.answerTo found (earlier ++ [ask closedShop])
      (ask (shopWith "Shop::Invoice" 2))).toOption = some (.names ["Shop::Order"]) ∧
    (shopCatalog.freshRead found (shopWith "Shop::Invoice" 2) "Shop").toOption =
      some ⟨["Shop::Invoice"], []⟩ ∧
    (shopCatalog.after found [ask closedShop]).verified = ["Shop"] ∧
    (shopCatalog.after found [ask closedShop]).shelved? "Shop" = none := by
  decide +kernel

end Catalog
end PublicApi

/-! ## The catalog of a session -/

namespace Session

theorem run_allEngines (host : Host) (s : Session) :
    ((allEngines host).run s).1 = s.engines.getD (s.protection.survey host).1 ∧
      ((allEngines host).run s).2.catalog = s.catalog := by
  unfold allEngines
  rw [StateT.run_bind, StateT.run_get, pure_bind]
  cases s.engines with
  | some engines => exact ⟨rfl, rfl⟩
  | none => exact ⟨rfl, rfl⟩

/-- Where nothing keeps the engines from being surveyed, nothing has to be required. -/
theorem requireEngines_of_clear {host : Host} {s : Session}
    (h : s.protection.obstacle? host = none) :
    (requireEngines host).run.run s = (.ok (), s) := by
  unfold requireEngines
  rw [run_get_bind, h]
  cases s.engines <;> rfl

theorem run_apiDirectory {host : Host} {s : Session} (h : s.protection.obstacle? host = none)
    (engine : String) :
    let found := fun engine => named? engine (s.engines.getD (s.protection.survey host).1)
    ∃ s', (apiDirectory host engine).run.run s =
      ((s.catalog.home found engine).mapError .template, s') ∧ s'.catalog = s.catalog := by
  intro found
  obtain ⟨hengines, hcatalog⟩ := run_allEngines host s
  refine ⟨((allEngines host).run s).2, ?_, hcatalog⟩
  unfold apiDirectory PublicApi.Catalog.home
  rw [run_bind_of_ok _ (requireEngines_of_clear h), run_steady_bind, run_get_bind, hengines, hcatalog]
  cases s.catalog.apiDirectory (PublicApi.Catalog.directoryName (found engine) engine) with
  | ok directory => rfl
  | error fault => rfl

/-- A session asks its catalog with the directories that it has found. -/
theorem run_artifacts {host : Host} {s : Session} (h : s.protection.obstacle? host = none)
    (engine : String) :
    let found := fun engine => named? engine (s.engines.getD (s.protection.survey host).1)
    ((artifacts host engine).run.run s).1 = (s.catalog.lookUp found host engine).1 ∧
      ((artifacts host engine).run.run s).2.catalog = (s.catalog.lookUp found host engine).2 := by
  intro found
  unfold artifacts
  rw [run_get_bind]
  cases hknown : s.catalog.known? engine with
  | some artifacts =>
    rw [PublicApi.Catalog.lookUp_of_known hknown]
    exact ⟨rfl, rfl⟩
  | none =>
    obtain ⟨s', hrun, hcatalog⟩ := run_apiDirectory h engine
    cases hhome : s.catalog.home found engine with
    | error fault =>
      rw [hhome] at hrun
      rw [PublicApi.Catalog.lookUp_of_fault hknown hhome]
      dsimp only
      rw [run_bind_of_error _ hrun]
      exact ⟨rfl, hcatalog⟩
    | ok directory =>
      rw [hhome] at hrun
      rw [PublicApi.Catalog.lookUp_of_home hknown hhome]
      dsimp only
      rw [run_bind_of_ok _ hrun, run_get_bind, hcatalog]
      cases (s.catalog.consult host engine directory).1 with
      | ok artifacts => exact ⟨rfl, rfl⟩
      | error failure => exact ⟨rfl, rfl⟩

end Session
end Bulkhead
