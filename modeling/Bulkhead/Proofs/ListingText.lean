/-
Listings of files and the texts that are digested for them.

A listing is written as one line for each file.  If no path holds a line feed, the text can be read
in one way only: lines end at the line feeds, the time of change follows the last colon of a line,
and the segments of a path stand between slashes.  A listing itself depends only on which files
stand below the directory, and when they were changed.
-/
import Mathlib
import Bulkhead.Proofs.CatalogRuns

namespace Bulkhead

/-- A list is cut at its first mark in one way only. -/
theorem cut_inj {α : Type} {mark : α} {a b c d : List α} (ha : mark ∉ a) (hc : mark ∉ c)
    (h : a ++ mark :: b = c ++ mark :: d) : a = c ∧ b = d := by
  induction a generalizing c with
  | nil =>
    cases c with
    | nil => exact ⟨rfl, (List.cons.inj h).2⟩
    | cons y c =>
      rw [List.nil_append, List.cons_append, List.cons.injEq] at h
      exact absurd (h.1 ▸ List.mem_cons_self) hc
  | cons x a ih =>
    cases c with
    | nil =>
      rw [List.nil_append, List.cons_append, List.cons.injEq] at h
      exact absurd (h.1 ▸ List.mem_cons_self) ha
    | cons y c =>
      rw [List.cons_append, List.cons_append, List.cons.injEq] at h
      obtain ⟨hrest, htail⟩ := ih (List.not_mem_of_not_mem_cons ha)
        (List.not_mem_of_not_mem_cons hc) h.2
      exact ⟨by rw [h.1, hrest], htail⟩

theorem mem_toString_int {n : Int} {c : Char} (h : c ∈ (toString n).toList) :
    c = '-' ∨ c.isDigit = true := by
  have hdigits (m : Nat) (h : c ∈ m.repr.toList) : c.isDigit = true := by
    rw [Nat.toList_repr] at h
    exact Nat.isDigit_of_mem_toDigits (by decide) (by decide) h
  cases n with
  | ofNat m => exact .inr (hdigits m h)
  | negSucc m =>
    have hsplit : c ∈ ("-" ++ m.succ.repr).toList := h
    rw [String.toList_append, List.mem_append] at hsplit
    rcases hsplit with hsign | hrest
    · exact .inl (List.mem_singleton.mp hsign)
    · exact .inr (hdigits _ hrest)

/-! ## Paths -/

namespace Path

/-- The segments are names of files, and no line feed stands in the path. -/
structure Plain (p : Path) : Prop where
  names : ∀ segment ∈ p.segments, segment ≠ "" ∧ segment ≠ "." ∧ '/' ∉ segment.toList
  oneLine : '\n' ∉ p.toString.toList

/-- The segments with slashes between them. -/
def body (p : Path) : List Char :=
  ['/'].intercalate (p.segments.map String.toList)

theorem toList_toString (p : Path) :
    p.toString.toList =
      if p.slashes = 0 ∧ p.segments = [] then ['.']
      else List.replicate p.slashes '/' ++ p.body := by
  have hbody : (String.intercalate "/" p.segments).toList = p.body := by
    rw [String.toList_intercalate]
    rfl
  rw [toString]
  by_cases hrelative : p.slashes = 0
  · by_cases hnil : p.segments = []
    · simp [hrelative, hnil]
    · simp [hrelative, hnil, hbody]
  · simp [hrelative, hbody]

/-- No slash stands at the beginning of the first name. -/
theorem takeWhile_body {p : Path} (hplain : p.Plain) : p.body.takeWhile (· == '/') = [] := by
  rw [body]
  cases hsegments : p.segments with
  | nil => rfl
  | cons segment rest =>
    obtain ⟨hempty, -, hslash⟩ := hplain.names segment (by simp [hsegments])
    cases hchars : segment.toList with
    | nil => exact absurd (String.toList_inj.mp (hchars.trans rfl)) hempty
    | cons c cs =>
      have hc : c ≠ '/' := by
        rintro rfl
        exact hslash (by simp [hchars])
      rw [List.map_cons, hchars]
      cases rest <;> simp [List.intercalate_cons_cons, hc]

theorem slashes_eq {p : Path} (hplain : p.Plain) :
    (p.toString.toList.takeWhile (· == '/')).length = p.slashes := by
  rw [toList_toString]
  split
  · next hdot =>
    rw [hdot.1]
    rfl
  · rw [List.takeWhile_append_of_pos (by simp), takeWhile_body hplain, List.append_nil,
      List.length_replicate]

/-- The names are read off between the slashes. -/
theorem filter_splitOn {p : Path} (hplain : p.Plain) :
    (p.toString.toList.splitOn '/').filter isSegment = p.segments.map String.toList := by
  have hbody : (p.body.splitOn '/').filter isSegment = p.segments.map String.toList := by
    by_cases hnil : p.segments = []
    · rw [body, hnil]
      rfl
    · rw [body, List.splitOn_intercalate]
      · rw [List.filter_eq_self]
        intro name hname
        obtain ⟨segment, hsegment, rfl⟩ := List.mem_map.mp hname
        obtain ⟨hempty, hdot, -⟩ := hplain.names segment hsegment
        have hempty' : segment.toList ≠ [] := fun h => hempty (String.toList_inj.mp (h.trans rfl))
        have hdot' : segment.toList ≠ ['.'] := fun h => hdot (String.toList_inj.mp (h.trans rfl))
        simp [isSegment, hempty', hdot']
      · intro name hname
        obtain ⟨segment, hsegment, rfl⟩ := List.mem_map.mp hname
        exact (hplain.names segment hsegment).2.2
      · simpa using hnil
  rw [toList_toString]
  split
  · next hdot =>
    rw [hdot.2]
    rfl
  · rw [← hbody]
    -- Each slash in front cuts off an empty piece.
    generalize p.slashes = count
    induction count with
    | zero => rfl
    | succ count ih =>
      rw [← ih, List.replicate_succ, List.cons_append, List.splitOn,
        List.splitOnP_cons_eq_if_modifyHead, if_pos (by simp), List.filter_cons_of_neg (by decide)]
      rfl

theorem eq_of_toString {p q : Path} (hplain : p.Plain) (hplain' : q.Plain)
    (h : p.toString = q.toString) : p = q := by
  have hslashes : p.slashes = q.slashes := by
    rw [← slashes_eq hplain, ← slashes_eq hplain', h]
  have hsegments : p.segments = q.segments := by
    have hnames := filter_splitOn hplain
    rw [h, filter_splitOn hplain'] at hnames
    have hinjective : Function.Injective String.toList := fun _ _ => String.toList_inj.mp
    exact (List.map_injective_iff.mpr hinjective hnames).symm
  obtain ⟨slashes, segments⟩ := p
  obtain ⟨slashes', segments'⟩ := q
  simp_all

/-! ## The order of paths -/

theorem segmentsLe_total (a b : List String) : segmentsLe a b = true ∨ segmentsLe b a = true := by
  induction a generalizing b with
  | nil => exact .inl rfl
  | cons x a ih =>
    cases b with
    | nil => exact .inr rfl
    | cons y b =>
      simp only [segmentsLe]
      by_cases hxy : x = y
      · simpa [hxy] using ih b
      · simpa [hxy, Ne.symm hxy] using String.le_total x y

theorem segmentsLe_antisymm {a b : List String} (hab : segmentsLe a b = true)
    (hba : segmentsLe b a = true) : a = b := by
  induction a generalizing b with
  | nil =>
    cases b with
    | nil => rfl
    | cons y b => cases hba
  | cons x a ih =>
    cases b with
    | nil => cases hab
    | cons y b =>
      simp only [segmentsLe] at hab hba
      by_cases hxy : x = y
      · rw [if_pos hxy] at hab
        rw [if_pos hxy.symm] at hba
        rw [hxy, ih hab hba]
      · rw [if_neg hxy, decide_eq_true_eq] at hab
        rw [if_neg (Ne.symm hxy), decide_eq_true_eq] at hba
        exact absurd (String.le_antisymm hab hba) hxy

theorem segmentsLe_trans {a b c : List String} (hab : segmentsLe a b = true)
    (hbc : segmentsLe b c = true) : segmentsLe a c = true := by
  induction a generalizing b c with
  | nil => rfl
  | cons x a ih =>
    cases b with
    | nil => cases hab
    | cons y b =>
      cases c with
      | nil => cases hbc
      | cons z c =>
        simp only [segmentsLe] at hab hbc ⊢
        by_cases hxy : x = y
        · rw [if_pos hxy] at hab
          by_cases hyz : y = z
          · rw [if_pos hyz] at hbc
            rw [if_pos (hxy.trans hyz)]
            exact ih hab hbc
          · rw [if_neg hyz] at hbc
            rw [hxy, if_neg hyz]
            exact hbc
        · rw [if_neg hxy, decide_eq_true_eq] at hab
          by_cases hyz : y = z
          · rw [← hyz, if_neg hxy, decide_eq_true_eq]
            exact hab
          · rw [if_neg hyz, decide_eq_true_eq] at hbc
            have hxz : x ≠ z := by
              intro hxz
              rw [hxz] at hab hxy
              exact hxy (String.le_antisymm hab hbc)
            rw [if_neg hxz, decide_eq_true_eq]
            exact String.le_trans hab hbc

end Path

/-! ## Files below a directory -/

namespace FileSystem

/-- There is one entry for each place. -/
def Distinct (fs : FileSystem) : Prop :=
  (fs.entries.map Prod.fst).Nodup

instance (fs : FileSystem) : Decidable fs.Distinct :=
  inferInstanceAs (Decidable (fs.entries.map Prod.fst).Nodup)

/-- A directory is the same in both file systems, and has the same files below it with the same
times of change.  Their contents may differ, and so may all that stands elsewhere. -/
structure AlikeBelow (fs₁ fs₂ : FileSystem) (directory : Path) : Prop where
  top : ∀ place, fs₁.resolve directory = .ok (place, .directory) ↔
    fs₂.resolve directory = .ok (place, .directory)
  files : ∀ place below modified, fs₁.resolve directory = .ok (place, .directory) →
    ((∃ content, (place ++ below, .file content modified) ∈ fs₁.entries) ↔
      ∃ content, (place ++ below, .file content modified) ∈ fs₂.entries)

theorem nodup_below {fs : FileSystem} (h : fs.Distinct) (directory : Path) :
    ((fs.below directory).map Prod.fst).Nodup := by
  rw [List.Nodup, List.pairwise_map, below]
  split
  · next place _ =>
    refine List.Pairwise.filterMap _ ?_ (List.pairwise_map.mp h)
    intro e e' hne found hfound found' hfound' hsame
    obtain ⟨segments, hbegins, rfl⟩ := Option.map_eq_some_iff.mp hfound
    obtain ⟨segments', hbegins', rfl⟩ := Option.map_eq_some_iff.mp hfound'
    obtain rfl : segments = segments' := hsame
    apply hne
    rw [← List.isPrefixOf?_eq_some_iff_append_eq.mp hbegins,
      ← List.isPrefixOf?_eq_some_iff_append_eq.mp hbegins']
  · exact List.Pairwise.nil

theorem nodup_filesBelow {fs : FileSystem} (h : fs.Distinct) (directory : Path) :
    ((fs.filesBelow directory).map Prod.fst).Nodup := by
  rw [List.Nodup, List.pairwise_map, filesBelow]
  refine List.Pairwise.filterMap _ ?_ (List.pairwise_map.mp (nodup_below h directory))
  rintro e e' hne file hfile file' hfile'
  obtain ⟨modified, -, rfl⟩ := Option.map_eq_some_iff.mp hfile
  obtain ⟨modified', -, rfl⟩ := Option.map_eq_some_iff.mp hfile'
  exact hne

theorem filesBelow_perm {fs₁ fs₂ : FileSystem} {directory : Path} (h₁ : fs₁.Distinct)
    (h₂ : fs₂.Distinct) (h : fs₁.AlikeBelow fs₂ directory) :
    (fs₁.filesBelow directory).Perm (fs₂.filesBelow directory) := by
  have hnodup {fs : FileSystem} (hfs : fs.Distinct) : (fs.filesBelow directory).Nodup :=
    (nodup_filesBelow hfs directory).of_map _
  rw [List.perm_ext_iff_of_nodup (hnodup h₁) (hnodup h₂)]
  rintro ⟨below, modified⟩
  rw [mem_filesBelow, mem_filesBelow]
  constructor
  · rintro ⟨place, content, hplace, hmem⟩
    obtain ⟨content', hmem'⟩ := (h.files place below modified hplace).mp ⟨content, hmem⟩
    exact ⟨place, content', (h.top place).mp hplace, hmem'⟩
  · rintro ⟨place, content, hplace, hmem⟩
    have hplace' := (h.top place).mpr hplace
    obtain ⟨content', hmem'⟩ := (h.files place below modified hplace').mpr ⟨content, hmem⟩
    exact ⟨place, content', hplace', hmem'⟩

end FileSystem

namespace PublicApi
namespace Catalog

/-! ## Listings -/

/-- The listing of a directory depends on the files below it and their times only. -/
theorem listing_of_alike {fs₁ fs₂ : FileSystem} {directory : Path} (h₁ : fs₁.Distinct)
    (h₂ : fs₂.Distinct) (h : fs₁.AlikeBelow fs₂ directory) :
    listing fs₁ directory = listing fs₂ directory := by
  have hperm := FileSystem.filesBelow_perm h₁ h₂ h
  have hsorted (fs : FileSystem) :
      (listing fs directory).Pairwise fun a b => a.1.le b.1 = true := by
    rw [listing, arrange]
    apply List.pairwise_mergeSort
    · intro a b c hab hbc
      exact Path.segmentsLe_trans hab hbc
    · intro a b
      rw [Bool.or_eq_true]
      exact Path.segmentsLe_total a.1.segments b.1.segments
  refine List.Perm.eq_of_pairwise ?_ (hsorted fs₁) (hsorted fs₂) ?_
  · intro a b ha hb hab hba
    obtain ⟨below, hbelow, hpath⟩ := mem_listing.mp ha
    obtain ⟨below', hbelow', hpath'⟩ := mem_listing.mp hb
    -- Both stand below the directory of one file system, where each place occurs once.
    have hsegments : a.1.segments = b.1.segments := Path.segmentsLe_antisymm hab hba
    rw [← hpath, ← hpath'] at hsegments
    obtain rfl : below = below' := List.append_cancel_left hsegments
    have hpair : (below, a.2) = (below, b.2) :=
      List.inj_on_of_nodup_map (FileSystem.nodup_filesBelow h₁ directory) hbelow
        (hperm.mem_iff.mpr hbelow') rfl
    exact Prod.ext (hpath.symm.trans hpath') (Prod.mk.inj hpair).2
  · exact (List.mergeSort_perm _ _).trans
      ((hperm.map _).trans (List.mergeSort_perm _ _).symm)

/-! ## Texts of listings -/

/-- The line of a file, without the line feed at its end. -/
def lineOf (file : Path × Int) : List Char :=
  file.1.toString.toList ++ ':' :: (toString file.2).toList

theorem toList_listingText (files : List (Path × Int)) :
    (listingText files).toList = files.flatMap fun file => lineOf file ++ ['\n'] := by
  simp only [listingText, lineOf, String.toList_join, List.flatMap_map, String.toList_append,
    List.append_assoc]
  rfl

theorem lineOf_oneLine {file : Path × Int} (h : file.1.Plain) : '\n' ∉ lineOf file := by
  rw [lineOf, List.mem_append, List.mem_cons]
  rintro (hpath | hcolon | htime)
  · exact h.oneLine hpath
  · exact absurd hcolon (by decide)
  · rcases mem_toString_int htime with hsign | hdigit
    · exact absurd hsign (by decide)
    · exact absurd hdigit (by decide)

theorem eq_of_lineOf {file file' : Path × Int} (hplain : file.1.Plain) (hplain' : file'.1.Plain)
    (h : lineOf file = lineOf file') : file = file' := by
  -- Paths may hold colons and times do not; so the line is read from its end.
  have hcolon (n : Int) : ':' ∉ (toString n).toList.reverse := by
    intro hmem
    rcases mem_toString_int (List.mem_reverse.mp hmem) with hsign | hdigit
    · exact absurd hsign (by decide)
    · exact absurd hdigit (by decide)
  have hreverse := congrArg List.reverse h
  simp only [lineOf, List.reverse_append, List.reverse_cons, List.append_assoc,
    List.singleton_append] at hreverse
  obtain ⟨htime, hpath⟩ := cut_inj (hcolon file.2) (hcolon file'.2) hreverse
  have hpath' : file.1 = file'.1 :=
    Path.eq_of_toString hplain hplain' (String.toList_inj.mp (List.reverse_injective hpath))
  have htime' : file.2 = file'.2 :=
    Int.repr_inj.mp (String.toList_inj.mp (List.reverse_injective htime))
  exact Prod.ext hpath' htime'

/-- Listings of plain paths that have the same text are the same. -/
theorem listingText_inj {files₁ files₂ : List (Path × Int)}
    (h₁ : ∀ file ∈ files₁, file.1.Plain) (h₂ : ∀ file ∈ files₂, file.1.Plain)
    (h : listingText files₁ = listingText files₂) : files₁ = files₂ := by
  have hlines := congrArg String.toList h
  rw [toList_listingText, toList_listingText] at hlines
  clear h
  induction files₁ generalizing files₂ with
  | nil =>
    cases files₂ with
    | nil => rfl
    | cons file' rest' => simp at hlines
  | cons file rest ih =>
    cases files₂ with
    | nil => simp at hlines
    | cons file' rest' =>
      have hplain := h₁ file List.mem_cons_self
      have hplain' := h₂ file' List.mem_cons_self
      simp only [List.flatMap_cons, List.append_assoc, List.singleton_append] at hlines
      obtain ⟨hline, hrest⟩ := cut_inj (lineOf_oneLine hplain) (lineOf_oneLine hplain') hlines
      rw [eq_of_lineOf hplain hplain' hline]
      congr 1
      apply ih _ _ hrest
      · intro file hfile
        exact h₁ file (List.mem_cons_of_mem _ hfile)
      · intro file hfile
        exact h₂ file (List.mem_cons_of_mem _ hfile)

/-- If no path holds a line feed, the text of a listing tells its files; then moments are told apart
if the hash function does not collide and files of the same times have the same contents. -/
theorem tells_of_plain {host₁ host₂ : Host} {directory : Path}
    (hplain₁ : ∀ files, inventory host₁ directory = .ok files → ∀ file ∈ files, file.1.Plain)
    (hplain₂ : ∀ files, inventory host₂ directory = .ok files → ∀ file ∈ files, file.1.Plain)
    (hdigests : ∀ files₁ files₂, inventory host₁ directory = .ok files₁ →
      inventory host₂ directory = .ok files₂ → digest files₁ = digest files₂ →
      listingText files₁ = listingText files₂)
    (hcontents : ∀ files, inventory host₁ directory = .ok files →
      inventory host₂ directory = .ok files → SameContents host₁ host₂ directory) :
    Tells host₁ host₂ directory where
  digests := hdigests
  texts := fun files₁ files₂ h₁ h₂ => listingText_inj (hplain₁ files₁ h₁) (hplain₂ files₂ h₂)
  contents := hcontents

end Catalog
end PublicApi
end Bulkhead
