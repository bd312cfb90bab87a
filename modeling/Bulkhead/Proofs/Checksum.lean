/-
The checksum is a sufficient key for what an inspection reads.

An inspection reads published lists of protected engines only, and those stand in API directories
that the checksum covers: an engine has the directory that it was found in, also when its name
spells another one.  So if the digested texts are equal, both file systems have the same lists.  In
the other direction, nothing outside the API directories, and no content, enters the checksum.
`checksum_sufficient` states both.
-/
import Bulkhead.Proofs.ListingText
import Bulkhead.Proofs.LongSession

namespace Bulkhead

/-- The checksum that a session which has seen nothing yet gives. -/
def Inspection.freshChecksum (settings : Settings) (root : Option Path)
    (source : Persistence.Source) (trail : Option Audit.Trail) (host : Host) :
    Except Failure String :=
  ((Session.checksum host).run.run (Session.start settings root source trail)).1

namespace Protection

/-- The API directory that belongs to a directory of the engines directory. -/
def apiPlace (p : Protection) (name : String) : Except Template.Fault Path :=
  (Template.fill p.settings.apiPath name).map fun path => p.enginesDirectory.join (.ofString path)

theorem apiPlace_of_formats (p : Protection) (hformats : Template.Formats p.settings.apiPath)
    (name : String) : ∃ directory, p.apiPlace name = .ok directory := by
  obtain ⟨path, hpath⟩ := hformats name
  exact ⟨p.enginesDirectory.join (.ofString path), map_eq_ok.mpr ⟨path, hpath, rfl⟩⟩

/-- The files of all API directories. -/
def apiFiles (p : Protection) (fs : FileSystem) : List (Path × Int) :=
  ((p.directoryNames fs).mergeSort fun a b => decide (a ≤ b)).flatMap fun name =>
    (p.apiPlace name).toOption.elim [] (PublicApi.Catalog.listing fs)

variable {p : Protection} {fs fs₁ fs₂ : FileSystem}

theorem mem_apiFiles {file : Path × Int} :
    file ∈ p.apiFiles fs ↔ ∃ name ∈ p.directoryNames fs, ∃ path, p.apiPlace name = .ok path ∧
      file ∈ PublicApi.Catalog.listing fs path := by
  simp only [apiFiles, List.mem_flatMap, List.mem_mergeSort]
  refine exists_congr fun name => and_congr_right fun _ => ?_
  cases p.apiPlace name with
  | ok path => simp [Except.toOption]
  | error fault => simp [Except.toOption]

/-! ## What is digested -/

/-- The catalog of a session that has seen nothing yet. -/
def catalog (p : Protection) : PublicApi.Catalog where
  enginesDirectory := p.enginesDirectory
  apiPath := p.settings.apiPath

theorem wholeInventory_of_formats (hformats : Template.Formats p.settings.apiPath)
    (fs : FileSystem) (names : List String) :
    p.catalog.wholeInventory fs names = .ok (names.flatMap fun name =>
      (p.apiPlace name).toOption.elim [] (PublicApi.Catalog.listing fs)) := by
  induction names with
  | nil => rfl
  | cons name rest ih =>
    obtain ⟨directory, hplace⟩ := p.apiPlace_of_formats hformats name
    have hdirectory : p.catalog.apiDirectory name = .ok directory := hplace
    rw [PublicApi.Catalog.wholeInventory, hdirectory, List.flatMap_cons, hplace, ih]
    simp only [PublicApi.Catalog.inventory_clear]
    rfl

theorem engineNames_clear (p : Protection) (fs : FileSystem) :
    p.catalog.engineNames fs = .ok (p.directoryNames fs) := by
  have hplace : p.catalog.enginesDirectory = p.enginesDirectory := rfl
  rw [PublicApi.Catalog.engineNames, Host.directories_clear, directoryNames, hplace]
  cases hlist : fs.directories p.enginesDirectory with
  | ok names => rfl
  | error failure => exact if_pos (FileSystem.isSystem_of_directories hlist)

theorem wholeDigest_of_formats (hformats : Template.Formats p.settings.apiPath)
    (fs : FileSystem) :
    p.catalog.wholeDigest fs = .ok (PublicApi.Catalog.digest (p.apiFiles fs)) := by
  rw [PublicApi.Catalog.wholeDigest, engineNames_clear]
  show p.catalog.wholeInventory fs _ >>= _ = _
  rw [wholeInventory_of_formats hformats]
  rfl

theorem freshChecksum_of_formats {settings : Settings} (root : Option Path)
    (hformats : Template.Formats settings.apiPath) (source : Persistence.Source)
    (trail : Option Audit.Trail) (fs : FileSystem) :
    Inspection.freshChecksum settings root source trail fs =
      .ok (PublicApi.Catalog.digest ((ofSettings settings root).apiFiles fs)) := by
  have hcatalog : (Session.start settings root source trail).catalog =
      (ofSettings settings root).catalog := rfl
  rw [Inspection.freshChecksum, Session.checksum, Session.run_get_bind, hcatalog,
    wholeDigest_of_formats hformats]
  rfl

/-! ## What is read -/

theorem directoryName_of_found {name engine : String} (h : Naming.toConstant name = engine) :
    PublicApi.Catalog.directoryName (some name) engine = name := by
  rw [PublicApi.Catalog.directoryName]
  split
  · next hempty =>
    obtain rfl : name = "" := by simpa using hempty
    rw [← h]
    decide +kernel
  · rfl

/-- The API directory of a protected engine is one of those that are digested. -/
theorem apiDirectory_of_protected {host : Host} {engine : String}
    (h : engine ∈ p.protectedEngines (p.survey host).1) :
    ∃ names, host.directories p.enginesDirectory = .ok names ∧
      ∃ name ∈ names, p.apiDirectory host engine = p.apiPlace name := by
  rw [protectedEngines, mem_sortedSet, List.mem_filter, survey] at h
  rw [apiDirectory, survey]
  cases hlist : host.directories p.enginesDirectory with
  | error failure =>
    rw [hlist] at h
    cases h.1
  | ok names =>
    rw [hlist] at h
    obtain ⟨name, hname, hnamed, hconstant⟩ := directory_of_byDirectory h.1
    refine ⟨names, rfl, name, hname, ?_⟩
    dsimp only
    rw [hnamed, directoryName_of_found hconstant]
    rfl

/-- Where path and time of change are the same, so is the content; hence the same files in the API
directories mean the same artifacts. -/
theorem artifacts_of_apiFiles
    (hnames : ∀ name, name ∈ p.directoryNames fs₁ ↔ name ∈ p.directoryNames fs₂)
    (hfiles : p.apiFiles fs₁ = p.apiFiles fs₂)
    (hcontents : ∀ file ∈ p.apiFiles fs₁, file ∈ p.apiFiles fs₂ →
      fs₁.content file.1 = fs₂.content file.1)
    {engine : String} (hengine : engine ∈ p.protectedEngines (p.survey fs₁).1) :
    p.artifacts fs₁ engine = p.artifacts fs₂ engine := by
  have hsame : p.apiDirectory fs₁ engine = p.apiDirectory fs₂ engine := by
    rw [apiDirectory, apiDirectory, survey_congr hnames]
  obtain ⟨names, hlist, name, hmem, hplace⟩ := apiDirectory_of_protected hengine
  have hname : name ∈ p.directoryNames fs₁ := by
    rw [Host.directories_clear] at hlist
    rw [directoryNames, hlist]
    exact hmem
  rw [artifacts, artifacts, ← hsame]
  cases hdirectory : p.apiDirectory fs₁ engine with
  | error fault => rfl
  | ok directory =>
    have hpath : p.apiPlace name = .ok directory := hplace.symm.trans hdirectory
    have hlists : PublicApi.Catalog.SameContents fs₁ fs₂ directory := by
      refine PublicApi.Catalog.sameContents_of_listing fun kind modified hlisted => ?_
      have hfirst : (directory.child kind.fileName, modified) ∈ p.apiFiles fs₁ := by
        rcases hlisted with hlisted | hlisted
        · exact mem_apiFiles.mpr ⟨name, hname, directory, hpath, hlisted⟩
        · rw [hfiles]
          exact mem_apiFiles.mpr ⟨name, (hnames name).mp hname, directory, hpath, hlisted⟩
      exact hcontents _ hfirst (hfiles ▸ hfirst)
    exact PublicApi.Catalog.artifactsIn_congr hlists

end Protection

/-- A verdict that needs published lists is about a protected engine. -/
theorem Rules.engine_of_mem_references {r : Rules} {t : SourceTree} {current : Option String}
    {c : Reference} (h : c ∈ r.references t current)
    (hopen : Verdict.byPolicy r.protection c.toReach current = none) : c.engine ∈ r.engines := by
  obtain ⟨n, -, hn⟩ := List.mem_filterMap.mp h
  obtain ⟨found, hfound, rfl⟩ := Option.map_eq_some_iff.mp hn
  exact engine_of_crossingAt hfound hopen

theorem Reference.offense?_of_artifacts {p : Protection} {source : Persistence.Source}
    {fs₁ fs₂ : FileSystem} {path : String} {current : Option String} {c : Reference}
    (h : Verdict.byPolicy p c.toReach current = none →
      p.artifacts fs₁ c.engine = p.artifacts fs₂ c.engine) :
    c.offense? p source fs₁ path current = c.offense? p source fs₂ path current := by
  rw [offense?, offense?]
  cases hpolicy : Verdict.byPolicy p c.toReach current with
  | some v => rfl
  | none => rw [h hpolicy]

/-! ## What does not matter -/

namespace FileSystem

theorem nodup_list {fs : FileSystem} (h : fs.Distinct) {p : Path} {found : List (String × Entry)}
    (hfound : fs.list p = .ok found) : (found.map Prod.fst).Nodup := by
  rw [list] at hfound
  split at hfound
  · cases hfound
  · cases hfound
  · next place _ =>
    cases hfound
    rw [List.Nodup, List.pairwise_map]
    refine List.Pairwise.filterMap _ ?_ (List.pairwise_map.mp h)
    intro e e' hne named hnamed named' hnamed'
    split at hnamed
    · next name hbegins =>
      split at hnamed'
      · next name' hbegins' =>
        cases hnamed
        cases hnamed'
        rintro (rfl : name = name')
        apply hne
        rw [← List.isPrefixOf?_eq_some_iff_append_eq.mp hbegins,
          ← List.isPrefixOf?_eq_some_iff_append_eq.mp hbegins']
      · cases hnamed'
    · cases hnamed

theorem nodup_directories {fs : FileSystem} (h : fs.Distinct) {p : Path} {names : List String}
    (hnames : fs.directories p = .ok names) : names.Nodup := by
  rw [directories] at hnames
  cases hfound : fs.list p with
  | error failure =>
    rw [hfound] at hnames
    cases hnames
  | ok found =>
    rw [hfound] at hnames
    cases hnames
    exact (nodup_list h hfound).sublist (List.filter_sublist.map Prod.fst)

end FileSystem

namespace Protection

variable {p : Protection} {fs₁ fs₂ : FileSystem}

theorem nodup_directoryNames {fs : FileSystem} (h : fs.Distinct) : (p.directoryNames fs).Nodup := by
  rw [directoryNames]
  cases hnames : fs.directories p.enginesDirectory with
  | ok names => exact FileSystem.nodup_directories h hnames
  | error failure => exact List.nodup_nil

/-- The files of the API directories are listed alike if nothing below these directories is added,
removed or given another time of change. -/
theorem apiFiles_of_alike (h₁ : fs₁.Distinct) (h₂ : fs₂.Distinct)
    (hnames : ∀ name, name ∈ p.directoryNames fs₁ ↔ name ∈ p.directoryNames fs₂)
    (halike : ∀ name ∈ p.directoryNames fs₁, ∀ path, p.apiPlace name = .ok path →
      fs₁.AlikeBelow fs₂ path) : p.apiFiles fs₁ = p.apiFiles fs₂ := by
  have hsorted : (p.directoryNames fs₁).mergeSort (fun a b => decide (a ≤ b)) =
      (p.directoryNames fs₂).mergeSort fun a b => decide (a ≤ b) := by
    refine List.Perm.eq_of_pairwise (fun a b _ _ => String.le_antisymm) (pairwise_sorted _)
      (pairwise_sorted _) ?_
    have hperm : (p.directoryNames fs₁).Perm (p.directoryNames fs₂) :=
      (List.perm_ext_iff_of_nodup (nodup_directoryNames h₁) (nodup_directoryNames h₂)).mpr hnames
    exact (List.mergeSort_perm _ _).trans (hperm.trans (List.mergeSort_perm _ _).symm)
  rw [apiFiles, apiFiles, ← hsorted]
  apply List.flatMap_congr
  intro name hname
  cases hplace : p.apiPlace name with
  | error fault => rfl
  | ok path =>
    exact PublicApi.Catalog.listing_of_alike h₁ h₂
      (halike name (List.mem_mergeSort.mp hname) path hplace)

end Protection

/-- Two file systems whose engines directories hold the same names, with paths of one line and equal
contents wherever path and time of change are equal, lead to the same offenses if they have the same
checksum and the hash function does not collide on the two digested texts.  And the checksum is the
same for two file systems that are alike below the API directories, whatever their contents are and
whatever else is different. -/
theorem checksum_sufficient (settings : Settings) (root : Option Path)
    (hformats : Template.Formats settings.apiPath) :
    let p := Protection.ofSettings settings root
    (∀ fs₁ fs₂ : FileSystem,
      (∀ name, name ∈ p.directoryNames fs₁ ↔ name ∈ p.directoryNames fs₂) →
      (∀ file ∈ p.apiFiles fs₁ ++ p.apiFiles fs₂, file.1.Plain) →
      (∀ file ∈ p.apiFiles fs₁, file ∈ p.apiFiles fs₂ →
        fs₁.content file.1 = fs₂.content file.1) →
      (PublicApi.Catalog.digest (p.apiFiles fs₁) = PublicApi.Catalog.digest (p.apiFiles fs₂) →
        PublicApi.Catalog.listingText (p.apiFiles fs₁) =
          PublicApi.Catalog.listingText (p.apiFiles fs₂)) →
      ∀ (source : Persistence.Source) (trail : Option Audit.Trail),
        Inspection.freshChecksum settings root source trail fs₁ =
          Inspection.freshChecksum settings root source trail fs₂ →
        ∀ t, ∃ offenses, Inspection.fresh settings root source trail fs₁ t = .ok offenses ∧
          Inspection.fresh settings root source trail fs₂ t = .ok offenses) ∧
    (∀ fs₁ fs₂ : FileSystem, fs₁.Distinct → fs₂.Distinct →
      (∀ name, name ∈ p.directoryNames fs₁ ↔ name ∈ p.directoryNames fs₂) →
      (∀ name ∈ p.directoryNames fs₁, ∀ path, p.apiPlace name = .ok path →
        fs₁.AlikeBelow fs₂ path) →
      ∀ (source : Persistence.Source) (trail : Option Audit.Trail),
        Inspection.freshChecksum settings root source trail fs₁ =
          Inspection.freshChecksum settings root source trail fs₂) := by
  intro p
  constructor
  · intro fs₁ fs₂ hnames hplain hcontents hcollision source trail hchecksum t
    rw [Protection.freshChecksum_of_formats root hformats,
      Protection.freshChecksum_of_formats root hformats, Except.ok.injEq] at hchecksum
    have hfiles : p.apiFiles fs₁ = p.apiFiles fs₂ := by
      refine PublicApi.Catalog.listingText_inj ?_ ?_ (hcollision hchecksum)
      · intro file hfile
        exact hplain file (List.mem_append_left _ hfile)
      · intro file hfile
        exact hplain file (List.mem_append_right _ hfile)
    refine ⟨_, fresh_of_formats hformats root source trail fs₁ t, ?_⟩
    rw [fresh_of_formats hformats root source trail fs₂ t,
      ← Rules.references_of_names hnames source t]
    congr 1
    apply List.filterMap_congr
    intro c hc
    apply Reference.offense?_of_artifacts
    intro hopen
    refine (Protection.artifacts_of_apiFiles hnames hfiles hcontents ?_).symm
    exact Rules.engine_of_mem_references hc hopen
  · intro fs₁ fs₂ h₁ h₂ hnames halike source trail
    rw [Protection.freshChecksum_of_formats root hformats,
      Protection.freshChecksum_of_formats root hformats,
      Protection.apiFiles_of_alike h₁ h₂ hnames halike]

/-- The listed shop with a file that belongs to no engine. -/
def notedShop : FileSystem where
  entries := (["notes"], .file ("Shop::Order is public").toUTF8 5) ::
    PublicApi.Catalog.listedShop.entries

/-- The shop with another list, written at the time of the first. -/
def rewrittenShop : FileSystem where
  entries := PublicApi.Catalog.shopFiles.entries ++
    [(["e", "shop", "_allowlist.rb"],
      .file ("module Shop::Api::Allowlist\nPUBLIC_MODULES = []\nend").toUTF8 1)]

theorem alikeBelow_shop {fs : FileSystem} (h : fs ∈ [notedShop, rewrittenShop]) :
    PublicApi.Catalog.listedShop.AlikeBelow fs ⟨0, ["e", "shop"]⟩ := by
  have hresolve (fs : FileSystem)
      (h : fs ∈ [PublicApi.Catalog.listedShop, notedShop, rewrittenShop]) :
      fs.resolve ⟨0, ["e", "shop"]⟩ = .ok (["e", "shop"], .directory) := by
    simp only [List.mem_cons, List.not_mem_nil, or_false] at h
    rcases h with rfl | rfl | rfl <;> rfl
  have hlisted := hresolve _ List.mem_cons_self
  have hother := hresolve fs (List.mem_cons_of_mem _ h)
  refine ⟨fun place => by rw [hlisted, hother], fun place below modified hplace => ?_⟩
  rw [hlisted, Except.ok.injEq, Prod.mk.injEq] at hplace
  rw [← hplace.1]
  simp only [List.mem_cons, List.not_mem_nil, or_false] at h
  rcases h with rfl | rfl <;>
    simp [notedShop, rewrittenShop, PublicApi.Catalog.listedShop, PublicApi.Catalog.shopWith,
      PublicApi.Catalog.shopFiles]

theorem checksum_shop :
    let source := Persistence.ofList ["Shop::Order"]
    Inspection.freshChecksum shopSettings none source none PublicApi.Catalog.listedShop =
        Inspection.freshChecksum shopSettings none source none rewrittenShop ∧
      ∃ offenses,
        Inspection.fresh shopSettings none source none PublicApi.Catalog.listedShop orderUse =
          .ok offenses ∧
        Inspection.fresh shopSettings none source none notedShop orderUse = .ok offenses := by
  intro source
  have hnames (fs : FileSystem)
      (h : fs ∈ [PublicApi.Catalog.listedShop, notedShop, rewrittenShop]) :
      (Protection.ofSettings shopSettings none).directoryNames fs = ["shop"] := by
    simp only [List.mem_cons, List.not_mem_nil, or_false] at h
    rcases h with rfl | rfl | rfl <;> decide +kernel
  have hlisted := hnames PublicApi.Catalog.listedShop (by simp)
  obtain ⟨hkey, hunchanged⟩ := checksum_sufficient shopSettings none
    (Template.formats_of_fill "" (by decide +kernel))
  have hsame (fs : FileSystem) (h : fs ∈ [notedShop, rewrittenShop]) :
      Inspection.freshChecksum shopSettings none source none PublicApi.Catalog.listedShop =
        Inspection.freshChecksum shopSettings none source none fs := by
    have hother := hnames fs (List.mem_cons_of_mem _ h)
    refine hunchanged _ fs (by decide +kernel) ?_ ?_ ?_ source none
    · simp only [List.mem_cons, List.not_mem_nil, or_false] at h
      rcases h with rfl | rfl <;> decide +kernel
    · intro name
      rw [hlisted, hother]
    · intro name hname path hpath
      rw [hlisted, List.mem_singleton] at hname
      obtain rfl : path = ⟨0, ["e", "shop"]⟩ := by
        rw [hname] at hpath
        exact Except.ok.inj (hpath.symm.trans (by decide +kernel))
      exact alikeBelow_shop h
  refine ⟨hsame rewrittenShop (by simp), ?_⟩
  have hfiles : (Protection.ofSettings shopSettings none).apiFiles PublicApi.Catalog.listedShop =
      [(⟨0, ["e", "shop", "_allowlist.rb"]⟩, 1)] := by decide +kernel
  have hfiles' : (Protection.ofSettings shopSettings none).apiFiles notedShop =
      [(⟨0, ["e", "shop", "_allowlist.rb"]⟩, 1)] := by decide +kernel
  refine hkey _ notedShop ?_ ?_ ?_ ?_ source none (hsame notedShop (by simp)) orderUse
  · intro name
    rw [hlisted, hnames notedShop (by simp)]
  · intro file hfile
    rw [hfiles, hfiles'] at hfile
    obtain rfl : file = (⟨0, ["e", "shop", "_allowlist.rb"]⟩, 1) := by simpa using hfile
    exact ⟨by decide, by decide⟩
  · intro file hfile _
    rw [hfiles, List.mem_singleton] at hfile
    rw [hfile]
    rfl
  · intro _
    rw [hfiles, hfiles']

end Bulkhead
