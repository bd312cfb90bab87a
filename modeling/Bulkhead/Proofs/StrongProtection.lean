/-
Strong protection cannot be lifted by what engines publish.

Two file systems whose engines directories hold the same names lead to the same references.  Where
one side of a reference is strongly protected, the verdict is found before any published list is
asked for; so the lists cannot make a difference.  `same_of_strong` states this for two whole runs.
-/
import Bulkhead.Proofs.Agreement
import Bulkhead.Proofs.Policy

namespace Bulkhead

/-! ## Verdicts before published lists -/

theorem Verdict.byPolicy_of_strong {p : Protection} {reach : Reach} {current : Option String}
    (hstrong : StronglyProtected p reach current) :
    ∃ v, byPolicy p reach current = some v := by
  cases hpolicy : byPolicy p reach current with
  | some v => exact ⟨v, rfl⟩
  | none => exact absurd hstrong (byPolicy_eq_none.mp hpolicy).2.2

/-- With one side strongly protected, any session gives a verdict, whatever it has kept: only an
override lets a reach into another engine through. -/
theorem Session.judge_of_strong {s : Session} {reach : Reach} {current : Option String}
    (hstrong : StronglyProtected s.protection reach current) (hother : current ≠ some reach.engine)
    (fs : FileSystem) (file : String) :
    ∃ v, ((judge fs reach current file).run.run s).1 = .ok v ∧
      (v.allowed = true ↔ Overridden s.protection reach current) := by
  obtain ⟨v, hpolicy⟩ := Verdict.byPolicy_of_strong hstrong
  have hjudge : Settles (fun s' => s'.protection = s.protection)
      (judge fs reach current file) (.ok v) := by
    refine .of_get fun s' hs => ?_
    rw [hs, hpolicy]
    exact .of_pure _
  refine ⟨v, (hjudge s rfl).1, ?_⟩
  rw [Verdict.allowed_of_byPolicy hpolicy, or_iff_right hother]

namespace Reference

variable {p : Protection} {source : Persistence.Source} {path : String} {current : Option String}
  {c : Reference}

theorem offense?_of_strong (fs₁ fs₂ : FileSystem)
    (hstrong : StronglyProtected p c.toReach current) :
    c.offense? p source fs₁ path current = c.offense? p source fs₂ path current := by
  obtain ⟨v, hpolicy⟩ := Verdict.byPolicy_of_strong hstrong
  rw [offense?, offense?, hpolicy]
  rfl

theorem engine_of_offense? {fs : FileSystem} {o : Offense}
    (h : c.offense? p source fs path current = some o) : o.engine = c.engine := by
  rw [offense?] at h
  split at h
  · cases h
  · cases h
    rfl

/-- Of the offenses against one engine, those of a reference to another are left out. -/
theorem filter_offense?_of_ne {fs : FileSystem} {engine : String} (hne : c.engine ≠ engine) :
    (c.offense? p source fs path current).filter (fun o => o.engine == engine) = none := by
  rw [Option.filter_eq_none_iff]
  intro o ho
  rw [engine_of_offense? ho, beq_iff_eq]
  exact hne

end Reference

/-! ## Two runs -/

/-- For two file systems with the same engines: a file of a strongly protected engine has the same
offenses in both, every file has the same offenses against a strongly protected engine in both, and
in either case only an override lets a reach into another engine through. -/
theorem same_of_strong (settings : Settings) (directory : Option Path)
    (source : Persistence.Source) (trail : Option Audit.Trail) (t : SourceTree)
    {fs₁ fs₂ : FileSystem} (hformats : Template.Formats settings.apiPath)
    (hnames : ∀ name, name ∈ (Protection.ofSettings settings directory).directoryNames fs₁ ↔
      name ∈ (Protection.ofSettings settings directory).directoryNames fs₂) :
    let p := Protection.ofSettings settings directory
    (p.isStrong (p.ownerOf t.path) = true →
      ∃ offenses, Inspection.fresh settings directory source trail fs₁ t = .ok offenses ∧
        Inspection.fresh settings directory source trail fs₂ t = .ok offenses) ∧
    (∀ engine, p.isStrong (some engine) = true →
      ∃ offenses₁ offenses₂,
        Inspection.fresh settings directory source trail fs₁ t = .ok offenses₁ ∧
        Inspection.fresh settings directory source trail fs₂ t = .ok offenses₂ ∧
        offenses₁.filter (fun o => o.engine == engine) =
          offenses₂.filter (fun o => o.engine == engine)) ∧
    (∀ (s : Session) (fs : FileSystem) (reach : Reach) (current : Option String) (file : String),
      s.protection = p → p.isStrong current = true ∨ p.isStrong (some reach.engine) = true →
      current ≠ some reach.engine →
      ∃ v, ((Session.judge fs reach current file).run.run s).1 = .ok v ∧
        (v.allowed = true ↔ reach.engine ∈ (p.overridesFor current).getD [] ∨
          ∃ name ∈ reach.lineage, name ∈ (p.overridesFor current).getD [])) := by
  intro p
  have hreferences := Rules.references_of_names hnames source t (p.ownerOf t.path)
  have hfresh (fs : FileSystem) : Inspection.fresh settings directory source trail fs t =
      .ok (((Rules.found p source fs).references t (p.ownerOf t.path)).filterMap
        (Reference.offense? p source fs t.path (p.ownerOf t.path))) :=
    fresh_of_formats hformats directory source trail fs t
  refine ⟨fun hcurrent => ?_, fun engine haccessed => ?_, ?_⟩
  · refine ⟨_, hfresh fs₁, ?_⟩
    have hoffense (c : Reference) : c.offense? p source fs₁ t.path (p.ownerOf t.path) =
        c.offense? p source fs₂ t.path (p.ownerOf t.path) :=
      c.offense?_of_strong fs₁ fs₂ (.inl hcurrent)
    rw [hfresh fs₂, ← hreferences, funext hoffense]
  · refine ⟨_, _, hfresh fs₁, hfresh fs₂, ?_⟩
    rw [← hreferences, List.filter_filterMap, List.filter_filterMap]
    congr 1
    funext c
    by_cases hengine : c.engine = engine
    · rw [c.offense?_of_strong fs₁ fs₂ (.inr (hengine ▸ haccessed))]
    · rw [Reference.filter_offense?_of_ne hengine, Reference.filter_offense?_of_ne hengine]
  · intro s fs reach current file hprotection hstrong hother
    have hstrong' : StronglyProtected s.protection reach current := hprotection ▸ hstrong
    obtain ⟨v, hjudge, hallowed⟩ := Session.judge_of_strong hstrong' hother fs file
    refine ⟨v, hjudge, ?_⟩
    rw [hallowed, hprotection, Overridden]
    simp only [List.mem_cons, exists_eq_or_imp]

/-- The same project with a list of public modules. -/
def listedFiles : FileSystem where
  entries := billingFiles.entries ++
    [(["engines", "billing", "app"], .directory),
      (["engines", "billing", "app", "api"], .directory),
      (["engines", "billing", "app", "api", "billing"], .directory),
      (["engines", "billing", "app", "api", "billing", "api"], .directory),
      (["engines", "billing", "app", "api", "billing", "api", "_allowlist.rb"],
        .file ("module Billing::Api::Allowlist\nPUBLIC_MODULES = [Billing::Invoice]\nend").toUTF8 0)]

theorem same_invoiceUse :
    ∃ offenses₁ offenses₂,
      Inspection.fresh billingSettings none (Persistence.ofList ["Billing::Invoice"]) none
        billingFiles invoiceUse = .ok offenses₁ ∧
      Inspection.fresh billingSettings none (Persistence.ofList ["Billing::Invoice"]) none
        listedFiles invoiceUse = .ok offenses₂ ∧
      offenses₁.filter (fun o => o.engine == "Billing") =
        offenses₂.filter (fun o => o.engine == "Billing") := by
  have hnames : (Protection.ofSettings billingSettings none).directoryNames billingFiles =
      (Protection.ofSettings billingSettings none).directoryNames listedFiles := by
    decide +kernel
  exact (same_of_strong billingSettings none _ none invoiceUse Template.formats_default
    (by rw [hnames]; exact fun _ => Iff.rfl)).2.1 "Billing" (by decide +kernel)

end Bulkhead
