/-
Which engine owns a file, and what that means for the references in it.

The owner is read off the path of the file: it is the directory after the place where the path of
the engines begins last.  A `Split` takes the path of a file apart there; there is at most one, and
the owner is named by its directory.  A reference to the owner is allowed by the first of all rules,
so no file is reported for the engine that owns it.  What stands before the path of the engines is
not looked at, be it whole segments or the beginning of a longer one.
-/
import Bulkhead.Proofs.JudgedReferences

namespace Bulkhead

/-! ## The last occurrence of a text -/

namespace Text

/-- After `front` the needle stands in the text, and it begins nowhere later. -/
structure LastAt (needle cs front rest : List Char) : Prop where
  parts : cs = front ++ (needle ++ rest)
  last : ∀ before after, cs = before ++ (needle ++ after) → before.length ≤ front.length

variable {needle cs : List Char}

theorem LastAt.unique {front front' rest rest' : List Char} (h : LastAt needle cs front rest)
    (h' : LastAt needle cs front' rest') : front = front' ∧ rest = rest' := by
  have hlength : front.length = front'.length :=
    Nat.le_antisymm (h'.last _ _ h.parts) (h.last _ _ h'.parts)
  obtain ⟨hfront, hneedle⟩ := List.append_inj (h.parts.symm.trans h'.parts) hlength
  exact ⟨hfront, List.append_cancel_left hneedle⟩

theorem afterLast_eq_none (h : afterLast needle cs = none) (before after : List Char) :
    cs ≠ before ++ (needle ++ after) := by
  have hhere {cs : List Char} (hnone : needle.isPrefixOf? cs = none) : cs ≠ needle ++ after := by
    rintro rfl
    rw [List.isPrefixOf?_eq_some_iff_append_eq.mpr rfl] at hnone
    cases hnone
  induction cs generalizing before with
  | nil =>
    intro hparts
    obtain ⟨-, htail⟩ := List.append_eq_nil_iff.mp hparts.symm
    exact hhere h htail.symm
  | cons c cs ih =>
    rw [afterLast] at h
    cases hbelow : afterLast needle cs with
    | some rest =>
      rw [hbelow] at h
      cases h
    | none =>
      rw [hbelow] at h
      cases before with
      | nil => exact hhere h
      | cons d before =>
        intro hparts
        exact ih hbelow before (List.cons.inj hparts).2

theorem lastAt_of_afterLast {rest : List Char} (h : afterLast needle cs = some rest) :
    ∃ front, LastAt needle cs front rest := by
  induction cs with
  | nil =>
    refine ⟨[], (List.isPrefixOf?_eq_some_iff_append_eq.mp h).symm, fun before after hparts => ?_⟩
    exact Nat.le_of_eq (congrArg List.length (List.append_eq_nil_iff.mp hparts.symm).1)
  | cons c cs ih =>
    rw [afterLast] at h
    cases hbelow : afterLast needle cs with
    | some rest' =>
      rw [hbelow] at h
      cases h
      obtain ⟨front, hparts, hlast⟩ := ih hbelow
      refine ⟨c :: front, congrArg (c :: ·) hparts, fun before after hparts' => ?_⟩
      cases before with
      | nil => exact Nat.zero_le _
      | cons d before => exact Nat.succ_le_succ (hlast _ _ (List.cons.inj hparts').2)
    | none =>
      -- The needle stands here and nowhere below.
      rw [hbelow] at h
      refine ⟨[], (List.isPrefixOf?_eq_some_iff_append_eq.mp h).symm, fun before after hparts => ?_⟩
      cases before with
      | nil => exact Nat.le_refl _
      | cons d before => exact absurd (List.cons.inj hparts).2 (afterLast_eq_none hbelow _ _)

theorem afterLast_of_lastAt {front rest : List Char} (h : LastAt needle cs front rest) :
    afterLast needle cs = some rest := by
  cases hafter : afterLast needle cs with
  | none => exact absurd h.parts (afterLast_eq_none hafter _ _)
  | some rest' =>
    obtain ⟨front', h'⟩ := lastAt_of_afterLast hafter
    rw [(h.unique h').2]

/-- Where the needle begins last does not depend on what stands before it. -/
theorem LastAt.move {front rest : List Char} (h : LastAt needle cs front rest)
    (front' : List Char) : LastAt needle (front' ++ (needle ++ rest)) front' rest where
  parts := rfl
  last before after hparts := by
    by_contra hlater
    have hfront : front' <+: before :=
      List.prefix_of_prefix_length_le ⟨_, rfl⟩ ⟨_, hparts.symm⟩ (by omega)
    obtain ⟨extra, rfl⟩ := hfront
    rw [List.append_assoc] at hparts
    have hcs : cs = (front ++ extra) ++ (needle ++ after) := by
      rw [h.parts, List.append_cancel_left hparts, List.append_assoc]
    have hlength := h.last _ _ hcs
    simp only [List.length_append] at hlater hlength
    omega

end Text

/-! ## Owners -/

namespace Protection

/-- The path of a file in the directory of an engine, taken apart where the path of the engines
begins last. -/
structure Split (p : Protection) (file : String) where
  front : String
  directory : String
  rest : String
  parts : file = front ++ p.settings.enginesPath ++ directory ++ rest
  named : directory ≠ ""
  segment : '/' ∉ directory.toList
  ends : rest = "" ∨ ∃ below, rest = "/" ++ below
  last : ∀ before after, file = before ++ p.settings.enginesPath ++ after →
    before.length ≤ front.length

variable {p : Protection} {file : String}

theorem takeWhile_segment {directory rest : List Char} (hsegment : '/' ∉ directory)
    (hends : ∀ c ∈ rest.head?, c = '/') :
    (directory ++ rest).takeWhile (· != '/') = directory := by
  have hstop : rest.takeWhile (· != '/') = [] := by
    cases rest with
    | nil => rfl
    | cons c rest => rw [hends c rfl]; rfl
  rw [List.takeWhile_append_of_pos, hstop, List.append_nil]
  intro c hc
  rw [bne_iff_ne]
  rintro rfl
  exact hsegment hc

namespace Split

theorem named_toList (split : p.Split file) : split.directory.toList ≠ [] :=
  fun hempty => split.named (String.toList_inj.mp hempty)

theorem head_rest (split : p.Split file) : ∀ c ∈ split.rest.toList.head?, c = '/' := by
  intro c hc
  rcases split.ends with hrest | ⟨below, hrest⟩
  · rw [hrest] at hc
    cases hc
  · rw [hrest, String.toList_append] at hc
    exact (Option.some.inj hc).symm

theorem lastAt (split : p.Split file) :
    Text.LastAt p.settings.enginesPath.toList file.toList split.front.toList
      (split.directory.toList ++ split.rest.toList) where
  parts := by
    have hparts := congrArg String.toList split.parts
    simpa only [String.toList_append, List.append_assoc] using hparts
  last before after hparts := by
    have hfile : file = String.ofList before ++ p.settings.enginesPath ++ String.ofList after := by
      rw [← String.toList_inj, hparts]
      simp only [String.toList_append, String.toList_ofList, List.append_assoc]
    have hlength := split.last _ _ hfile
    rwa [String.length_ofList, ← String.length_toList] at hlength

theorem takeWhile_directory (split : p.Split file) :
    (split.directory.toList ++ split.rest.toList).takeWhile (· != '/') = split.directory.toList :=
  takeWhile_segment split.segment split.head_rest

instance subsingleton (p : Protection) (file : String) : Subsingleton (p.Split file) where
  allEq split split' := by
    obtain ⟨hfront, htail⟩ := split.lastAt.unique split'.lastAt
    have hdirectory : split.directory.toList = split'.directory.toList := by
      rw [← split.takeWhile_directory, htail, split'.takeWhile_directory]
    rw [hdirectory] at htail
    have hrest := List.append_cancel_left htail
    rw [String.toList_inj] at hfront hdirectory hrest
    cases split
    cases split'
    cases hfront
    cases hdirectory
    cases hrest
    rfl

/-- The split at the last occurrence, if the name of a directory follows there. -/
theorem exists_of_lastAt {front tail : List Char}
    (h : Text.LastAt p.settings.enginesPath.toList file.toList front tail)
    (hnamed : tail.takeWhile (· != '/') ≠ []) :
    ∃ split : p.Split file, split.front = String.ofList front ∧
      split.directory = String.ofList (tail.takeWhile (· != '/')) := by
  refine ⟨{
    front := String.ofList front
    directory := String.ofList (tail.takeWhile (· != '/'))
    rest := String.ofList (tail.dropWhile (· != '/'))
    parts := ?_
    named := ?_
    segment := ?_
    ends := ?_
    last := ?_ }, rfl, rfl⟩
  · rw [← String.toList_inj, h.parts]
    simp only [String.toList_append, String.toList_ofList, List.append_assoc,
      List.takeWhile_append_dropWhile]
  · intro hempty
    rw [← String.toList_inj, String.toList_ofList] at hempty
    exact hnamed hempty
  · intro hslash
    rw [String.toList_ofList] at hslash
    exact absurd (List.all_eq_true.mp List.all_takeWhile _ hslash) (by decide)
  · cases hrest : tail.dropWhile (· != '/') with
    | nil => exact .inl rfl
    | cons c below =>
      have hc := List.head_dropWhile_not (· != '/') (l := tail) (by simp [hrest])
      refine .inr ⟨String.ofList below, ?_⟩
      simp only [hrest, List.head_cons, bne_eq_false_iff_eq] at hc
      rw [hc, ← String.toList_inj]
      simp [String.toList_append]
  · intro before after hfile
    rw [String.length_ofList]
    refine h.last before.toList after.toList ?_
    rw [hfile]
    simp only [String.toList_append, List.append_assoc]

end Split

theorem ownerOf_eq_some {engine : String} :
    p.ownerOf file = some engine ↔
      ∃ tail, Text.afterLast p.settings.enginesPath.toList file.toList = some tail ∧
        tail.takeWhile (· != '/') ≠ [] ∧
        Naming.toConstant (String.ofList (tail.takeWhile (· != '/'))) = engine := by
  rw [ownerOf]
  cases Text.afterLast p.settings.enginesPath.toList file.toList with
  | none => simp
  | some tail =>
    simp only [Option.some.injEq, exists_eq_left']
    cases tail.takeWhile (· != '/') with
    | nil => simp
    | cons c cs => simp

theorem ownerOf_of_split (split : p.Split file) :
    p.ownerOf file = some (Naming.toConstant split.directory) := by
  refine ownerOf_eq_some.mpr ⟨_, Text.afterLast_of_lastAt split.lastAt, ?_, ?_⟩
  · rw [split.takeWhile_directory]
    exact split.named_toList
  · rw [split.takeWhile_directory, String.ofList_toList]

theorem split_of_ownerOf {engine : String} (h : p.ownerOf file = some engine) :
    ∃ split : p.Split file, engine = Naming.toConstant split.directory := by
  obtain ⟨tail, hafter, hnamed, hengine⟩ := ownerOf_eq_some.mp h
  obtain ⟨front, hlast⟩ := Text.lastAt_of_afterLast hafter
  obtain ⟨split, -, hdirectory⟩ := Split.exists_of_lastAt hlast hnamed
  exact ⟨split, by rw [hdirectory, hengine]⟩

theorem Split.exists_moved (split : p.Split file) (front : String) :
    ∃ split' : p.Split (front ++ p.settings.enginesPath ++ split.directory ++ split.rest),
      split'.front = front ∧ split'.directory = split.directory := by
  have hlast := split.lastAt.move front.toList
  have htext : (front ++ p.settings.enginesPath ++ split.directory ++ split.rest).toList =
      front.toList ++ (p.settings.enginesPath.toList ++
        (split.directory.toList ++ split.rest.toList)) := by
    simp only [String.toList_append, List.append_assoc]
  rw [← htext] at hlast
  obtain ⟨split', hfront, hdirectory⟩ := exists_of_lastAt hlast (by
    rw [split.takeWhile_directory]
    exact split.named_toList)
  rw [split.takeWhile_directory, String.ofList_toList] at hdirectory
  exact ⟨split', by rw [hfront, String.ofList_toList], hdirectory⟩

end Protection

/-! ## References to the owner -/

theorem Verdict.byPolicy_of_owner {p : Protection} {reach : Reach} {current : Option String}
    (h : current = some reach.engine) : byPolicy p reach current = some ⟨.sameEngine, none⟩ := by
  rw [byPolicy, if_pos h]

theorem Inspection.engine_ne_owner {fs : FileSystem} {t : SourceTree} {s : Session}
    {offenses : List Offense} (h : ((inspect fs t).run.run s).1 = .ok offenses) {o : Offense}
    (ho : o ∈ offenses) : s.protection.ownerOf t.path ≠ some o.engine := by
  obtain ⟨-, -, hreport⟩ := run_inspect (show s.core = s.core.core from rfl) fs t
  rw [hreport _ fun _ _ h => h, Judgement.report] at h
  generalize hjudged : (judgements fs t).run s.core = judged at h
  cases hfailure : judged.1.2 with
  | some failure =>
    rw [hfailure] at h
    cases h
  | none =>
    rw [hfailure] at h
    cases h
    obtain ⟨j, hj, rfl⟩ := List.mem_map.mp ho
    obtain ⟨hmem, hreported⟩ := List.mem_filter.mp hj
    rw [← hjudged, judgements_eq] at hmem
    obtain ⟨s', -, hverdict⟩ := verdict_of_mem hmem
    intro howner
    rw [Session.judge_of_some (Verdict.byPolicy_of_owner howner)] at hverdict
    have hallowed : j.verdict.allowed = true := by
      rw [← Except.ok.inj hverdict]
      rfl
    rw [Judgement.isReported_of_allowed _ hallowed] at hreported
    cases hreported

/-- The path of a file can be split in one way at most, and the directory of the split names the
owner; without a split there is none.  In any session, a reference to the owner is allowed at once,
and no offense is one against the owner. -/
theorem owner_unreported :
    (∀ (p : Protection) (file : String),
      Subsingleton (p.Split file) ∧
      (∀ split : p.Split file, p.ownerOf file = some (Naming.toConstant split.directory)) ∧
      (IsEmpty (p.Split file) → p.ownerOf file = none)) ∧
    ∀ (s : Session) (fs : FileSystem) (t : SourceTree) (split : s.protection.Split t.path),
      (∀ reach : Reach, reach.engine = Naming.toConstant split.directory →
        (Session.judge fs reach (s.protection.ownerOf t.path) t.path).run.run s =
          (.ok ⟨.sameEngine, none⟩, s)) ∧
      ∀ offenses, ((Inspection.inspect fs t).run.run s).1 = .ok offenses →
        ∀ o ∈ offenses, o.engine ≠ Naming.toConstant split.directory := by
  refine ⟨fun p file => ⟨Protection.Split.subsingleton p file, Protection.ownerOf_of_split,
    fun hempty => ?_⟩, fun s fs t split => ?_⟩
  · cases howner : p.ownerOf file with
    | none => rfl
    | some engine =>
      obtain ⟨split, -⟩ := Protection.split_of_ownerOf howner
      exact hempty.elim split
  · have howner := Protection.ownerOf_of_split split
    refine ⟨fun reach hreach => ?_, fun offenses hoffenses o ho hengine => ?_⟩
    · rw [← hreach] at howner
      exact Session.judge_of_some (Verdict.byPolicy_of_owner howner)
    · exact Inspection.engine_ne_owner hoffenses ho (hengine ▸ howner)

/-- The path of the engines begins twice in the path of the file. -/
def ownUse : SourceTree :=
  { invoiceUse with path := "engines/shop/engines/billing/order.rb" }

theorem fresh_billing (t : SourceTree) :
    ∃ offenses, Inspection.fresh billingSettings none (Persistence.ofList ["Billing::Invoice"]) none
      billingFiles t = .ok offenses := by
  have hformats : Template.Formats billingSettings.apiPath := Template.formats_default
  exact ⟨_, fresh_of_formats hformats none _ none billingFiles t⟩

theorem unreported_ownUse :
    (Protection.ofSettings billingSettings none).ownerOf ownUse.path = some "Billing" ∧
    ∃ offenses, Inspection.fresh billingSettings none (Persistence.ofList ["Billing::Invoice"]) none
        billingFiles ownUse = .ok offenses ∧ ∀ o ∈ offenses, o.engine ≠ "Billing" := by
  have howner : (Protection.ofSettings billingSettings none).ownerOf ownUse.path =
      some "Billing" := by decide +kernel
  obtain ⟨split, hengine⟩ := Protection.split_of_ownerOf howner
  obtain ⟨offenses, hfresh⟩ := fresh_billing ownUse
  have hunreported := (owner_unreported.2
    (.start billingSettings none (Persistence.ofList ["Billing::Invoice"]) none) billingFiles ownUse
    split).2 offenses hfresh
  exact ⟨howner, offenses, hfresh, fun o ho hbilling => hunreported o ho (hbilling.trans hengine)⟩

/-! ## What stands before the path of the engines -/

/-- An owner is found at a split.  Whatever is put in front of the path of the engines there, the
owner stays the same, and with it the engine that the file is not reported for. -/
theorem owner_of_any_front (p : Protection) (file : String) :
    (∀ engine, p.ownerOf file = some engine →
      ∃ split : p.Split file, engine = Naming.toConstant split.directory) ∧
    ∀ (split : p.Split file) (front : String),
      let moved := front ++ p.settings.enginesPath ++ split.directory ++ split.rest
      (∃ split' : p.Split moved, split'.front = front ∧ split'.directory = split.directory) ∧
      p.ownerOf moved = some (Naming.toConstant split.directory) ∧
      ∀ (s : Session) (fs : FileSystem) (t : SourceTree) (offenses : List Offense),
        s.protection = p → t.path = moved →
        ((Inspection.inspect fs t).run.run s).1 = .ok offenses →
        ∀ o ∈ offenses, o.engine ≠ Naming.toConstant split.directory := by
  refine ⟨fun engine => Protection.split_of_ownerOf, fun split front => ?_⟩
  obtain ⟨split', hfront, hdirectory⟩ := split.exists_moved front
  have howner := Protection.ownerOf_of_split split'
  rw [hdirectory] at howner
  refine ⟨⟨split', hfront, hdirectory⟩, howner, ?_⟩
  rintro s fs t offenses rfl hpath hoffenses o ho hengine
  rw [← hpath, ← hengine] at howner
  exact Inspection.engine_ne_owner hoffenses ho howner

/-- The path of the engines begins inside a segment of the path of the file. -/
def rankUse : SourceTree :=
  { invoiceUse with path := "lib/search_engines/billing/rank.rb" }

theorem unreported_rankUse :
    ∃ offenses, Inspection.fresh billingSettings none (Persistence.ofList ["Billing::Invoice"]) none
      billingFiles rankUse = .ok offenses ∧ ∀ o ∈ offenses, o.engine ≠ "Billing" := by
  have howner : (Protection.ofSettings billingSettings none).ownerOf rankUse.path =
      some "Billing" := by decide +kernel
  obtain ⟨hsplits, hfronts⟩ :=
    owner_of_any_front (Protection.ofSettings billingSettings none) rankUse.path
  obtain ⟨split, hengine⟩ := hsplits "Billing" howner
  obtain ⟨offenses, hfresh⟩ := fresh_billing rankUse
  have hunreported := (hfronts split split.front).2.2
    (.start billingSettings none (Persistence.ofList ["Billing::Invoice"]) none) billingFiles
    rankUse offenses rfl split.parts hfresh
  exact ⟨offenses, hfresh, fun o ho hbilling => hunreported o ho (hbilling.trans hengine)⟩

/-- The front is empty or ends with a slash, so that a segment of the path starts after it. -/
def StartsSegment (front : String) : Prop :=
  ∀ c ∈ front.toList.getLast?, c = '/'

/-- A file of the main application.  The path of the engines occurs in its path as the end of a
longer segment only, and the file has an owner. -/
theorem search_engines_owned :
    let p := Protection.ofSettings billingSettings none
    p.settings.enginesPath.toList.head? ≠ some '/' ∧
    (∀ before after, rankUse.path = before ++ p.settings.enginesPath ++ after →
      ¬StartsSegment before) ∧
    p.ownerOf rankUse.path = some "Billing" := by
  refine ⟨by decide, fun before after hparts hstarts => ?_, by decide +kernel⟩
  have hplaces : ∀ n < 35, "engines/".toList.isPrefixOf (rankUse.path.toList.drop n) = true →
      (rankUse.path.toList.take n).getLast? = some '_' := by
    decide +kernel
  have htext := congrArg String.toList hparts
  rw [String.toList_append, String.toList_append, List.append_assoc] at htext
  have hbound : before.toList.length < 35 := by
    have hlength : rankUse.path.toList.length = 34 := by decide
    rw [htext, List.length_append] at hlength
    omega
  have hlast := hplaces before.toList.length hbound
  rw [htext, List.drop_left, List.take_left] at hlast
  have hunderscore := hlast <| List.isPrefixOf_iff_prefix.mpr ⟨_, rfl⟩
  exact absurd (hstarts '_' hunderscore) (by decide)

end Bulkhead
