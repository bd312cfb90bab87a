/-
What a reading of published lists depends on.

Where nothing stands in the way, an inventory and a reading never fail: they give `listing` and
`artifactsIn`.  A list that can be read stands in the listing of its API directory.  So two file
systems whose listings show the same lists, with the same contents, lead to the same artifacts,
whatever else is different in them.
-/
import Mathlib.Data.List.Basic
import Bulkhead.Protection
import Bulkhead.PublicApi.Catalog

namespace Bulkhead
namespace FileSystem

/-- The way to a file leads through its directory. -/
theorem walk_of_file {fs : FileSystem} {place segments found : List String} {name : String}
    {content : ByteArray} {modified : Int} (hname : name ≠ "..")
    (h : fs.walk place (segments ++ [name]) = .ok (found, .file content modified)) :
    ∃ top, fs.walk place segments = .ok (top, .directory) ∧
      fs.lookup (top ++ [name]) = some (.file content modified) := by
  induction segments generalizing place with
  | nil =>
    rw [List.nil_append, walk] at h
    rw [walk]
    cases hplace : fs.lookup place with
    | none =>
      rw [hplace] at h
      cases h
    | some entry =>
      rw [hplace] at h
      cases entry with
      | file _ _ => cases h
      | directory =>
        refine ⟨place, rfl, ?_⟩
        dsimp only at h
        rw [if_neg hname, walk] at h
        cases hfound : fs.lookup (place ++ [name]) with
        | none =>
          rw [hfound] at h
          cases h
        | some entry =>
          rw [hfound] at h
          cases h
          rfl
  | cons segment rest ih =>
    rw [List.cons_append, walk] at h
    rw [walk]
    cases hplace : fs.lookup place with
    | none =>
      rw [hplace] at h
      cases h
    | some entry =>
      rw [hplace] at h
      cases entry with
      | file _ _ => cases h
      | directory =>
        dsimp only at h ⊢
        split at h
        · next hup =>
          rw [if_pos hup]
          exact ih h
        · next hup =>
          rw [if_neg hup]
          exact ih h

theorem mem_entries_of_lookup {fs : FileSystem} {place : List String} {entry : Entry}
    (hplace : place ≠ []) (h : fs.lookup place = some entry) : (place, entry) ∈ fs.entries := by
  rw [lookup, if_neg (by simpa using hplace)] at h
  obtain ⟨found, hfound, rfl⟩ := Option.map_eq_some_iff.mp h
  have hkey := List.find?_some hfound
  rw [beq_iff_eq] at hkey
  rw [← hkey]
  exact List.mem_of_find?_eq_some hfound

theorem isFile_iff {fs : FileSystem} {p : Path} :
    fs.isFile p = true ↔
      ∃ place content modified, fs.resolve p = .ok (place, .file content modified) := by
  rw [isFile]
  split
  · next place content modified h => exact iff_of_true rfl ⟨place, content, modified, h⟩
  · next hnot =>
    refine iff_of_false Bool.false_ne_true ?_
    rintro ⟨place, content, modified, h⟩
    exact hnot place content modified h

theorem isFile_eq_isOk (fs : FileSystem) (p : Path) : fs.isFile p = (fs.content p).isOk := by
  rw [isFile, content]
  cases fs.resolve p with
  | error failure => rfl
  | ok found =>
    obtain ⟨place, entry⟩ := found
    cases entry <;> rfl

theorem mem_below {fs : FileSystem} {directory : Path} {segments : List String} {entry : Entry} :
    (segments, entry) ∈ fs.below directory ↔
      ∃ place, fs.resolve directory = .ok (place, .directory) ∧
        (place ++ segments, entry) ∈ fs.entries := by
  rw [below]
  split
  · next place hplace =>
    rw [List.mem_filterMap]
    constructor
    · rintro ⟨⟨found, entry'⟩, hmem, hbelow⟩
      obtain ⟨segments', hbegins, heq⟩ := Option.map_eq_some_iff.mp hbelow
      cases heq
      obtain rfl := List.isPrefixOf?_eq_some_iff_append_eq.mp hbegins
      exact ⟨place, hplace, hmem⟩
    · rintro ⟨place', hplace', hmem⟩
      cases hplace.symm.trans hplace'
      refine ⟨_, hmem, ?_⟩
      rw [List.isPrefixOf?_eq_some_iff_append_eq.mpr rfl]
      rfl
  · next hnot =>
    refine iff_of_false List.not_mem_nil ?_
    rintro ⟨place, hplace, -⟩
    exact hnot place hplace

theorem mem_filesBelow {fs : FileSystem} {directory : Path} {below : List String} {modified : Int} :
    (below, modified) ∈ fs.filesBelow directory ↔
      ∃ place content, fs.resolve directory = .ok (place, .directory) ∧
        (place ++ below, .file content modified) ∈ fs.entries := by
  rw [filesBelow, List.mem_filterMap]
  constructor
  · rintro ⟨⟨segments, entry⟩, hmem, hfile⟩
    cases entry with
    | directory => cases hfile
    | file content time =>
      cases hfile
      obtain ⟨place, hplace, hentry⟩ := mem_below.mp hmem
      exact ⟨place, content, hplace, hentry⟩
  · rintro ⟨place, content, hplace, hentry⟩
    exact ⟨(below, .file content modified), mem_below.mpr ⟨place, hplace, hentry⟩, rfl⟩

/-! ## Failures -/

theorem isSystem_of_walk {fs : FileSystem} {place segments : List String} {cause : Cause}
    (h : fs.walk place segments = .error cause) : cause.isSystem = true := by
  induction segments generalizing place with
  | nil =>
    rw [walk] at h
    split at h <;> cases h
    rfl
  | cons segment rest ih =>
    rw [walk] at h
    split at h
    · cases h
      rfl
    · cases h
      rfl
    · split at h
      · exact ih h
      · exact ih h

theorem isSystem_of_resolve {fs : FileSystem} {p : Path} {failure : Failure}
    (h : fs.resolve p = .error failure) : failure.cause.isSystem = true := by
  rw [resolve] at h
  split at h
  · cases h
  · next cause hwalk =>
    cases h
    exact isSystem_of_walk hwalk

theorem isSystem_of_directories {fs : FileSystem} {p : Path} {failure : Failure}
    (h : fs.directories p = .error failure) : failure.cause.isSystem = true := by
  rw [directories, list] at h
  cases hresolve : fs.resolve p with
  | error failure' =>
    rw [hresolve] at h
    cases h
    exact isSystem_of_resolve hresolve
  | ok found =>
    obtain ⟨place, entry⟩ := found
    rw [hresolve] at h
    cases entry with
    | directory => cases h
    | file content modified =>
      cases h
      rfl

/-- Only the system keeps the text of a file away, unless it is none. -/
theorem isSystem_of_readText {fs : FileSystem} {p : Path} {failure : Failure}
    (h : fs.readText p = .error (.unavailable failure)) : failure.cause.isSystem = true := by
  rw [readText, content] at h
  cases hresolve : fs.resolve p with
  | error failure' =>
    rw [hresolve] at h
    cases h
    exact isSystem_of_resolve hresolve
  | ok found =>
    obtain ⟨place, entry⟩ := found
    rw [hresolve] at h
    cases entry with
    | directory =>
      cases h
      rfl
    | file bytes modified =>
      dsimp only at h
      split at h <;> cases h

end FileSystem

/-- Nothing keeps the engines of a file system from being surveyed. -/
theorem Protection.obstacle?_clear (p : Protection) (fs : FileSystem) : p.obstacle? fs = none := by
  rw [obstacle?, Host.directories_clear]
  cases hlist : fs.directories p.enginesDirectory with
  | ok names => rfl
  | error failure =>
    dsimp only
    rw [if_pos (FileSystem.isSystem_of_directories hlist)]

namespace PublicApi

theorem Listing.fileName_ne (kind : Listing) : kind.fileName ≠ ".." := by
  cases kind <;> decide

namespace Catalog

/-- The files below a directory, in order, with their times of change. -/
def listing (fs : FileSystem) (directory : Path) : List (Path × Int) :=
  arrange directory (fs.filesBelow directory)

@[simp]
theorem inventory_clear (fs : FileSystem) (directory : Path) :
    inventory fs directory = .ok (listing fs directory) := by
  rw [inventory, Host.filesBelow_clear, List.filter_true]
  rfl

theorem mem_listing {fs : FileSystem} {directory : Path} {file : Path × Int} :
    file ∈ listing fs directory ↔
      ∃ below, (below, file.2) ∈ fs.filesBelow directory ∧ directory.join ⟨0, below⟩ = file.1 := by
  rw [listing, arrange, List.mem_mergeSort, List.mem_map]
  constructor
  · rintro ⟨⟨below, modified⟩, hbelow, rfl⟩
    exact ⟨below, hbelow, rfl⟩
  · rintro ⟨below, hbelow, hpath⟩
    exact ⟨(below, file.2), hbelow, Prod.ext hpath rfl⟩

/-- A file in a directory is listed, with its time of change. -/
theorem mem_listing_of_isFile {fs : FileSystem} {directory : Path} {name : String}
    (hname : name ≠ "..") (h : fs.isFile (directory.child name) = true) :
    ∃ modified, (directory.child name, modified) ∈ listing fs directory := by
  obtain ⟨place, content, modified, hresolve⟩ := FileSystem.isFile_iff.mp h
  rw [FileSystem.resolve] at hresolve
  split at hresolve
  case h_2 => cases hresolve
  case h_1 found hwalk =>
  cases hresolve
  obtain ⟨top, htop, hlookup⟩ := FileSystem.walk_of_file hname hwalk
  have hmem : (top ++ [name], Entry.file content modified) ∈ fs.entries :=
    FileSystem.mem_entries_of_lookup (by simp) hlookup
  have hstart : fs.start (directory.child name) = fs.start directory := rfl
  have hdirectory : fs.resolve directory = .ok (top, .directory) := by
    rw [FileSystem.resolve, ← hstart, htop]
  refine ⟨modified, mem_listing.mpr ⟨[name], ?_, rfl⟩⟩
  exact FileSystem.mem_filesBelow.mpr ⟨top, content, hdirectory, hmem⟩

/-! ## Readings -/

/-- The lists in a directory are there alike, and those that are there have the same text. -/
def SameContents (host₁ host₂ : Host) (directory : Path) : Prop :=
  ∀ kind : Listing,
    host₁.isFile (directory.child kind.fileName) = host₂.isFile (directory.child kind.fileName) ∧
    (host₁.isFile (directory.child kind.fileName) = .ok true →
      host₁.readText (directory.child kind.fileName) =
        host₂.readText (directory.child kind.fileName))

section Congr

variable {host₁ host₂ : Host} {directory : Path}

theorem readList_congr (h : SameContents host₁ host₂ directory) (kind : Listing) :
    readList host₁ directory kind = readList host₂ directory kind := by
  obtain ⟨hfile, htext⟩ := h kind
  rw [readList, readList, ← hfile]
  cases hfound : host₁.isFile (directory.child kind.fileName) with
  | error failure => rfl
  | ok found =>
    cases found with
    | false => rfl
    | true => rw [htext hfound]

theorem readArtifacts_congr (h : SameContents host₁ host₂ directory) (engine : String) :
    readArtifacts host₁ engine directory = readArtifacts host₂ engine directory := by
  rw [readArtifacts, readArtifacts, readPublic, readPublic, readList_congr h, readList_congr h,
    readList_congr h]

end Congr

theorem sameContents_of_content {fs₁ fs₂ : FileSystem} {directory : Path}
    (h : ∀ kind : Listing, (fs₁.content (directory.child kind.fileName)).toOption =
      (fs₂.content (directory.child kind.fileName)).toOption) :
    SameContents fs₁ fs₂ directory := by
  intro kind
  have hsame := h kind
  rw [Host.isFile_clear, Host.isFile_clear, Host.readText_clear, Host.readText_clear,
    FileSystem.isFile_eq_isOk, FileSystem.isFile_eq_isOk, FileSystem.readText, FileSystem.readText]
  generalize fs₁.content (directory.child kind.fileName) = content₁ at hsame ⊢
  generalize fs₂.content (directory.child kind.fileName) = content₂ at hsame ⊢
  cases content₁ with
  | ok bytes =>
    cases content₂ with
    | ok bytes' =>
      cases hsame
      exact ⟨rfl, fun _ => rfl⟩
    | error failure => cases hsame
  | error failure =>
    cases content₂ with
    | ok bytes => cases hsame
    | error failure' => exact ⟨rfl, fun hfile => by cases hfile⟩

/-- Lists have the same contents if those that either file system lists do. -/
theorem sameContents_of_listing {fs₁ fs₂ : FileSystem} {directory : Path}
    (h : ∀ (kind : Listing) (modified : Int),
      (directory.child kind.fileName, modified) ∈ listing fs₁ directory ∨
        (directory.child kind.fileName, modified) ∈ listing fs₂ directory →
      fs₁.content (directory.child kind.fileName) = fs₂.content (directory.child kind.fileName)) :
    SameContents fs₁ fs₂ directory := by
  refine sameContents_of_content fun kind => ?_
  have hlisted {fs : FileSystem} {bytes : ByteArray}
      (h : fs.content (directory.child kind.fileName) = .ok bytes) :
      ∃ modified, (directory.child kind.fileName, modified) ∈ listing fs directory := by
    refine mem_listing_of_isFile kind.fileName_ne ?_
    rw [FileSystem.isFile_eq_isOk, h]
    rfl
  cases hfirst : fs₁.content (directory.child kind.fileName) with
  | ok bytes =>
    obtain ⟨modified, hmem⟩ := hlisted hfirst
    rw [← h kind modified (.inl hmem), hfirst]
  | error failure =>
    cases hsecond : fs₂.content (directory.child kind.fileName) with
    | ok bytes =>
      obtain ⟨modified, hmem⟩ := hlisted hsecond
      rw [← hsecond, ← h kind modified (.inr hmem), hfirst]
    | error failure' => rfl

/-- The entries of one list in a directory. -/
def entriesIn (fs : FileSystem) (directory : Path) (kind : Listing) : List String :=
  (readList fs directory kind).1.toOption.getD []

theorem readList_clear (fs : FileSystem) (directory : Path) (kind : Listing) :
    (readList fs directory kind).1 = .ok (entriesIn fs directory kind) := by
  have hok : ∃ entries, (readList fs directory kind).1 = .ok entries := by
    rw [readList, Host.isFile_clear, Host.readText_clear]
    cases fs.isFile (directory.child kind.fileName) with
    | false => exact ⟨[], rfl⟩
    | true =>
      cases htext : fs.readText (directory.child kind.fileName) with
      | ok text => exact ⟨_, rfl⟩
      | error failure =>
        cases failure with
        | notText fault => exact ⟨[], rfl⟩
        | unavailable failure =>
          dsimp only
          rw [if_pos (FileSystem.isSystem_of_readText htext)]
          exact ⟨[], rfl⟩
  obtain ⟨entries, hentries⟩ := hok
  rw [entriesIn, hentries]
  rfl

/-- What an engine publishes in a directory. -/
def artifactsIn (fs : FileSystem) (directory : Path) : Artifacts where
  allowlist :=
    if (entriesIn fs directory .allowlist).isEmpty then entriesIn fs directory .whitelist
    else entriesIn fs directory .allowlist
  legacyDependents := entriesIn fs directory .legacyDependents

theorem readArtifacts_clear (fs : FileSystem) (engine : String) (directory : Path) :
    (readArtifacts fs engine directory).1 = .ok (artifactsIn fs directory) := by
  have hpublic : (readPublic fs directory).1 = .ok (artifactsIn fs directory).allowlist := by
    have hfirst := readList_clear fs directory .allowlist
    have hsecond := readList_clear fs directory .whitelist
    rw [readPublic, artifactsIn]
    split
    · next notes hread =>
      rw [hread] at hfirst
      rw [← Except.ok.inj hfirst]
      exact hsecond
    · next hfilled =>
      have hfirst_ne : entriesIn fs directory .allowlist ≠ [] := by
        intro hnil
        exact hfilled _ (Prod.ext (hfirst.trans (congrArg Except.ok hnil)) rfl)
      rw [if_neg (mt List.isEmpty_iff.mp hfirst_ne)]
      exact hfirst
  have hlegacy := readList_clear fs directory .legacyDependents
  rw [readArtifacts]
  split
  · next failure notes hread =>
    rw [hread] at hpublic
    cases hpublic
  · next allowlist notes hread =>
    rw [hread] at hpublic
    split
    · next failure more hread' =>
      rw [hread'] at hlegacy
      cases hlegacy
    · next legacy more hread' =>
      rw [hread'] at hlegacy
      rw [Except.ok.inj hpublic, Except.ok.inj hlegacy]
      rfl

theorem artifactsIn_congr {fs₁ fs₂ : FileSystem} {directory : Path}
    (h : SameContents fs₁ fs₂ directory) : artifactsIn fs₁ directory = artifactsIn fs₂ directory := by
  have hentries (kind : Listing) : entriesIn fs₁ directory kind = entriesIn fs₂ directory kind := by
    rw [entriesIn, entriesIn, readList_congr h]
  rw [artifactsIn, artifactsIn, hentries, hentries, hentries]

/-- What a look at the lists in a directory gives: its files are listed, and then they are read. -/
def lookAt (host : Host) (engine : String) (directory : Path) : Except Failure Artifacts :=
  match inventory host directory with
  | .error failure => .error (.files failure)
  | .ok _ => (readArtifacts host engine directory).1.mapError .files

@[simp]
theorem lookAt_clear (fs : FileSystem) (engine : String) (directory : Path) :
    lookAt fs engine directory = .ok (artifactsIn fs directory) := by
  rw [lookAt, inventory_clear, readArtifacts_clear]
  rfl

end Catalog
end PublicApi
end Bulkhead
