/-
A session that has inspected many files reports what a new one would.

From one file to the next a session keeps the engines it has found, the answers about models and the
published lists.  The first two stay right as long as the engines directory holds the same names and
the source of answers does not change its mind.  The lists are compared again before they are used;
so they stay right if the digest of an API directory tells its moments apart.  `history_eq_fresh`
says this for every sequence of inspections, with files that change between them.
-/
import Bulkhead.Proofs.Agreement
import Bulkhead.Proofs.CatalogRuns

namespace Bulkhead

/-- The reports of a session on one file after the other, each with the files as they are then. -/
def Inspection.history (s : Session) :
    List (FileSystem × SourceTree) → List (Except Failure (List Offense))
  | [] => []
  | m :: rest =>
    ((inspect m.1 m.2).run.run s).1 :: history ((inspect m.1 m.2).run.run s).2 rest

/-- What is kept of each engine is right at every moment at which its digest is. -/
def Recalls (p : Protection) (moments : List FileSystem) (c : PublicApi.Catalog) : Prop :=
  ∀ fs ∈ moments, ∀ engine directory, p.apiDirectory fs engine = .ok directory →
    c.Sound fs engine directory

/-- The moments have the same engines, and their API directories can be told apart. -/
structure Steadfast (p : Protection) (moments : List FileSystem) : Prop where
  engines : ∀ fs₁ ∈ moments, ∀ fs₂ ∈ moments, (p.survey fs₁).1 = (p.survey fs₂).1
  tells : ∀ fs₁ ∈ moments, ∀ fs₂ ∈ moments, ∀ engine ∈ p.protectedEngines (p.survey fs₁).1,
    ∀ directory, p.apiDirectory fs₁ engine = .ok directory →
      PublicApi.Catalog.Tells fs₁ fs₂ directory

section Moments

variable {p : Protection} {source : Persistence.Source} {moments : List FileSystem}
  {fs : FileSystem} {s : Session}

theorem apiDirectory_congr {fs₁ fs₂ : FileSystem} (h : (p.survey fs₁).1 = (p.survey fs₂).1)
    (engine : String) : p.apiDirectory fs₁ engine = p.apiDirectory fs₂ engine := by
  rw [Protection.apiDirectory, Protection.apiDirectory, h]

/-! ## Within a file -/

theorem home_of_agrees (h : Agrees p source fs s) (engine : String) :
    s.catalog.home (fun engine => named? engine (s.engines.getD (s.protection.survey fs).1))
      engine = p.apiDirectory fs engine := by
  have hengines : s.engines.getD (s.protection.survey fs).1 = (p.survey fs).1 := by
    cases hfound : s.engines with
    | some engines => exact (h.engines engines hfound).2
    | none => rw [Option.getD_none, h.protection]
  rw [PublicApi.Catalog.home, PublicApi.Catalog.apiDirectory, h.directory, h.apiPath, hengines]
  rfl

/-- What is read of a protected engine at one moment is right at all. -/
theorem recalls_lookUp {found : String → Option String} {engine : String} {c : PublicApi.Catalog}
    (hsteadfast : Steadfast p moments) (hfs : fs ∈ moments)
    (hengine : engine ∈ p.protectedEngines (p.survey fs).1)
    (hhome : c.home found engine = p.apiDirectory fs engine) (h : Recalls p moments c) :
    Recalls p moments (c.lookUp found fs engine).2 := by
  cases hknown : c.known? engine with
  | some artifacts =>
    rw [PublicApi.Catalog.lookUp_of_known hknown]
    exact h
  | none =>
    cases hdirectory : p.apiDirectory fs engine with
    | error fault =>
      rw [PublicApi.Catalog.lookUp_of_fault hknown (hhome.trans hdirectory)]
      exact h
    | ok directory =>
      have hconsults := PublicApi.Catalog.consults_consult fs directory hknown
      rw [PublicApi.Catalog.lookUp_of_home hknown (hhome.trans hdirectory)]
      intro fs' hfs' engine' directory' hdirectory'
      by_cases hsame : engine = engine'
      · subst hsame
        rw [apiDirectory_congr (hsteadfast.engines fs' hfs' fs hfs), hdirectory] at hdirectory'
        cases hdirectory'
        refine PublicApi.Catalog.sound_of_consults hconsults
          (hsteadfast.tells fs hfs fs' hfs' engine hengine directory hdirectory)
          (h fs' hfs' engine directory ?_)
        rw [apiDirectory_congr (hsteadfast.engines fs' hfs' fs hfs), hdirectory]
      · intro kept files hkept
        rw [hconsults.shelved?_of_ne hsame] at hkept
        exact h fs' hfs' engine' directory' hdirectory' kept files hkept

theorem Yields.with_catalog {α : Type} {I : Session → Prop} {K : PublicApi.Catalog → Prop}
    {x : Steady α} {a : α} (hx : Yields I x a) (hsame : ∀ s, (x.run s).2.catalog = s.catalog) :
    Yields (fun s => I s ∧ K s.catalog) x a := by
  rintro s ⟨hs, hcatalog⟩
  obtain ⟨hanswer, hs'⟩ := hx s hs
  exact ⟨hanswer, hs', by rwa [hsame s]⟩

theorem catalog_guarded (fs : FileSystem) (s : Session) :
    ((Session.guarded fs).run s).2.catalog = s.catalog := by
  unfold Session.guarded
  rw [StateT.run_bind, StateT.run_get, pure_bind]
  cases s.protectedEngines with
  | some engines => rfl
  | none => exact (Session.run_allEngines fs s).2

theorem catalog_emit (e : Audit.Event) (s : Session) :
    ((Session.emit e).run s).2.catalog = s.catalog := by
  obtain ⟨protection, catalog, source, engines, guarded, memo, trail, journal⟩ := s
  cases trail <;> rfl

/-- An inspection leaves only entries that are right at every moment. -/
theorem carries_recalls (hsteadfast : Steadfast p moments) (hfs : fs ∈ moments) :
    Carries (fun s => Agrees p source fs s ∧ Recalls p moments s.catalog) p source fs where
  protection := fun _ h => h.1.protection
  write := fun notes => (yields_write notes).with_catalog fun _ => rfl
  emit := fun e => (yields_emit e).with_catalog (catalog_emit e)
  reached := fun _ h => h.1.reached
  isModel := fun _ hreached => (yields_isModel hreached).with_catalog fun _ => rfl
  unsurveyed := fun hblocked => absurd (p.obstacle?_clear fs) hblocked
  guarded := fun hclear => (yields_guarded hclear).with_catalog (catalog_guarded fs)
  artifacts := by
    rintro hclear engine hengine s ⟨hs, hrecalls⟩
    obtain ⟨hanswer, hs'⟩ := settles_artifacts hclear engine s hs
    refine ⟨hanswer, fun artifacts hok => ⟨hs' artifacts hok, ?_⟩⟩
    rw [(Session.run_artifacts (s.protection.obstacle?_clear fs) engine).2]
    exact recalls_lookUp hsteadfast hfs hengine (home_of_agrees hs engine) hrecalls
  revalidate := by
    rintro s ⟨hs, hrecalls⟩
    obtain ⟨hanswer, hs'⟩ := yields_revalidate s hs
    exact ⟨hanswer, hs', hrecalls⟩

/-! ## From file to file -/

def Session.revalidated (s : Session) : Session :=
  { s with catalog := s.catalog.revalidate }

/-- An inspection revalidates first; so it does not matter if that has been done already. -/
theorem inspect_revalidated (fs : FileSystem) (t : SourceTree) (s : Session) :
    (Inspection.inspect fs t).run.run s.revalidated = (Inspection.inspect fs t).run.run s := rfl

/-- A session that agrees with one moment agrees with another once it has to compare again. -/
theorem agrees_revalidated {fs' : FileSystem} (h : Agrees p source fs s)
    (hengines : (p.survey fs').1 = (p.survey fs).1) (hfs' : fs' ∈ moments)
    (hrecalls : Recalls p moments s.catalog) : Agrees p source fs' s.revalidated where
  protection := h.protection
  asks := h.asks
  directory := h.directory
  apiPath := h.apiPath
  engines := by
    intro engines hfound
    rw [hengines]
    exact ⟨p.obstacle?_clear fs', (h.engines engines hfound).2⟩
  guarded := by
    intro engines hfound
    rw [hengines]
    exact ⟨p.obstacle?_clear fs', (h.guarded engines hfound).2⟩
  memo := h.memo
  reached := fun _ _ _ => rfl
  known := by
    intro engine artifacts hknown
    obtain ⟨hverified, -⟩ := PublicApi.Catalog.known?_eq_some.mp hknown
    cases hverified
  shelved := by
    intro engine kept directory files hkept hdirectory hlist hdigest
    have hread := hrecalls fs' hfs' engine directory hdirectory kept files hkept hlist hdigest
    rw [Protection.published, hdirectory]
    dsimp only
    rw [PublicApi.Catalog.lookAt, hlist, hread]
    rfl

/-- The induction is over the files still to come; what it carries is that the session, once it has
to compare again, agrees with every moment of the whole run. -/
theorem history_of_agrees (hsteadfast : Steadfast p moments) {run : List (FileSystem × SourceTree)}
    (hrun : ∀ m ∈ run, m.1 ∈ moments) (hformats : Template.Formats p.settings.apiPath)
    (hagrees : ∀ fs ∈ moments, Agrees p source fs s.revalidated)
    (hrecalls : Recalls p moments s.catalog) :
    Inspection.history s run = run.map fun m => (Rules.found p source m.1).inspect m.2 := by
  induction run generalizing s with
  | nil => rfl
  | cons m rest ih =>
    have hfs := hrun m List.mem_cons_self
    obtain ⟨hanswer, hkept⟩ :=
      settles_inspect (carries_recalls hsteadfast hfs) m.2 s.revalidated
        ⟨hagrees m.1 hfs, hrecalls⟩
    rw [Rules.outcome_found] at hanswer hkept
    rw [inspect_revalidated] at hanswer hkept
    obtain ⟨hagrees', hrecalls'⟩ := hkept _ (offenses_of_formats hformats ..)
    rw [Inspection.history, List.map_cons, hanswer]
    congr 1
    apply ih
    · intro m' hm
      exact hrun m' (List.mem_cons_of_mem m hm)
    · intro fs' hfs'
      exact agrees_revalidated hagrees' (hsteadfast.engines fs' hfs' m.1 hfs) hfs' hrecalls'
    · exact hrecalls'

end Moments

/-- Whatever happens to the files between two inspections, each reports what a new session would
report then: if the engines directory holds the same names all the time, and the digest of the API
directory of a protected engine tells any two moments apart. -/
theorem history_eq_fresh (settings : Settings) (directory : Option Path)
    (source : Persistence.Source) (trail : Option Audit.Trail)
    (run : List (FileSystem × SourceTree)) (hformats : Template.Formats settings.apiPath)
    (hnames : ∀ m₁ ∈ run, ∀ m₂ ∈ run, ∀ name,
      name ∈ (Protection.ofSettings settings directory).directoryNames m₁.1 ↔
        name ∈ (Protection.ofSettings settings directory).directoryNames m₂.1)
    (htells : let p := Protection.ofSettings settings directory
      ∀ m₁ ∈ run, ∀ m₂ ∈ run, ∀ engine ∈ p.protectedEngines (p.survey m₁.1).1,
        ∀ path, p.apiDirectory m₁.1 engine = .ok path →
          PublicApi.Catalog.Tells m₁.1 m₂.1 path) :
    ∃ reports : List (List Offense),
      Inspection.history (Session.start settings directory source trail) run = reports.map .ok ∧
      run.map (fun m => Inspection.fresh settings directory source trail m.1 m.2) =
        reports.map .ok := by
  have hsteadfast : Steadfast (Protection.ofSettings settings directory) (run.map Prod.fst) := by
    constructor
    · intro fs₁ hfs₁ fs₂ hfs₂
      obtain ⟨m₁, hm₁, rfl⟩ := List.mem_map.mp hfs₁
      obtain ⟨m₂, hm₂, rfl⟩ := List.mem_map.mp hfs₂
      exact Protection.survey_congr (hnames m₁ hm₁ m₂ hm₂)
    · intro fs₁ hfs₁ fs₂ hfs₂
      obtain ⟨m₁, hm₁, rfl⟩ := List.mem_map.mp hfs₁
      obtain ⟨m₂, hm₂, rfl⟩ := List.mem_map.mp hfs₂
      exact htells m₁ hm₁ m₂ hm₂
  have hhistory := history_of_agrees hsteadfast (fun m hm => List.mem_map_of_mem hm) hformats
    (fun fs _ => agrees_start settings directory source trail fs)
    (show Recalls _ (run.map Prod.fst) (Session.start settings directory source trail).catalog from
      nofun)
  have hfresh : (fun m : FileSystem × SourceTree =>
      (Rules.found (Protection.ofSettings settings directory) source m.1).inspect m.2) =
        fun m => Inspection.fresh settings directory source trail m.1 m.2 := by
    funext m
    rw [fresh_eq]
  have hreturns (m : FileSystem × SourceTree) :
      ∃ offenses, Inspection.fresh settings directory source trail m.1 m.2 = .ok offenses :=
    ⟨_, fresh_of_formats hformats directory source trail m.1 m.2⟩
  choose report hreport using hreturns
  refine ⟨run.map report, ?_, ?_⟩
  · rw [hhistory, hfresh, funext hreport, List.map_map]
    rfl
  · rw [funext hreport, List.map_map]
    rfl

def shopSettings : Settings where
  enginesPath := "e/"
  closed := by decide
  apiPath := "\x7bengine\x7d"

/-- A file outside the engines that names a constant of one. -/
def orderUse : SourceTree where
  path := "app/cart.rb"
  root := some (.node .const (some "Order") "Shop::Order" ⟨3, 2⟩
    [some (.node .const (some "Shop") "Shop" ⟨3, 2⟩ [none])])

/-- The use is reported before the list is published and after it is gone, and not in between. -/
theorem history_orderUse :
    let run := [(PublicApi.Catalog.shopFiles, orderUse),
      (PublicApi.Catalog.listedShop, orderUse),
      (PublicApi.Catalog.shopFiles, orderUse)]
    (Inspection.history
      (Session.start shopSettings none (Persistence.ofList ["Shop::Order"]) none) run).map
        (fun report => report.toOption.map List.length) = [some 1, some 0, some 1] := by
  intro run
  have hfiles (m : FileSystem × SourceTree) (hm : m ∈ run) :
      m.1 ∈ [PublicApi.Catalog.shopFiles, PublicApi.Catalog.listedShop] := by
    simp only [run, List.mem_cons, List.not_mem_nil, or_false] at hm
    rcases hm with rfl | rfl | rfl <;> simp
  have hnames (fs : FileSystem)
      (hfs : fs ∈ [PublicApi.Catalog.shopFiles, PublicApi.Catalog.listedShop]) :
      (Protection.ofSettings shopSettings none).directoryNames fs = ["shop"] := by
    simp only [List.mem_cons, List.not_mem_nil, or_false] at hfs
    rcases hfs with rfl | rfl <;> decide +kernel
  have hengines : Protection.byDirectory ["shop"] = [("Shop", "shop")] := by decide +kernel
  have hprotected : (Protection.ofSettings shopSettings none).protectedEngines
      [("Shop", "shop")] = ["Shop"] := by decide +kernel
  obtain ⟨reports, hhistory, hfresh⟩ := history_eq_fresh shopSettings none
    (Persistence.ofList ["Shop::Order"]) none run
    (Template.formats_of_fill "" (by decide +kernel))
    (fun m₁ hm₁ m₂ hm₂ name => by rw [hnames m₁.1 (hfiles m₁ hm₁), hnames m₂.1 (hfiles m₂ hm₂)])
    (fun m₁ hm₁ m₂ hm₂ engine hengine path hpath => by
      rw [Protection.survey_fst, hnames m₁.1 (hfiles m₁ hm₁), hengines, hprotected,
        List.mem_singleton] at hengine
      rw [Protection.apiDirectory, Protection.survey_fst, hnames m₁.1 (hfiles m₁ hm₁), hengines,
        hengine] at hpath
      have hshop : path = ⟨0, ["e", "shop"]⟩ :=
        Except.ok.inj (hpath.symm.trans (by decide +kernel))
      rw [hshop]
      exact PublicApi.Catalog.tells_shop (hfiles m₁ hm₁) (hfiles m₂ hm₂))
  rw [hhistory, ← hfresh]
  decide +kernel

end Bulkhead
