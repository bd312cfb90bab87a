/-
The spelling of engines in the settings does not matter.

Names of engines are spelled as constants when the settings are read, and once more when the
protection is made from the settings.  Spelling as a constant leaves a name that `IsConstant`
describes, and such a name keeps its spelling; so the second time changes nothing.  Two documents
that call the same engines by different names are therefore read as the same settings, which is what
`spelling_immaterial` draws its conclusions from.
-/
import Bulkhead.Proofs.AcceptedSettings
import Bulkhead.Proofs.Agreement
import Bulkhead.Proofs.ListingLayout

namespace Bulkhead

/-! ## Characters -/

namespace Text

/-- The character is none of the marks that start a word of a name. -/
def Plain (c : Char) : Prop :=
  c ≠ '_' ∧ c ≠ '/'

instance : DecidablePred Plain := fun c =>
  inferInstanceAs (Decidable (c ≠ '_' ∧ c ≠ '/'))

theorem le_of_mem_caseRuns : ∀ run ∈ caseRuns, 96 ≤ run.first + run.offset := by
  decide +kernel

theorem toNat_ofNat {n : Nat} (h : 96 ≤ n) :
    (Char.ofNat n).toNat = 0 ∨ 96 ≤ (Char.ofNat n).toNat := by
  by_cases hvalid : n.isValidChar
  · right
    rw [Char.ofNat, dif_pos hvalid]
    exact h
  · left
    rw [Char.ofNat, dif_neg hvalid]
    rfl

/-- A lowercase form is the character itself or lies above the marks of ASCII. -/
theorem mem_lowerChar {c d : Char} (h : d ∈ lowerChar c) :
    d = c ∨ d.toNat = 0 ∨ 96 ≤ d.toNat := by
  rw [lowerChar] at h
  split at h
  · next hascii =>
    rw [List.mem_singleton] at h
    rw [h]
    exact forall_ascii (P := fun c => c.toLower = c ∨ c.toLower.toNat = 0 ∨ 96 ≤ c.toLower.toNat)
      (by decide +kernel) hascii
  · split at h
    · rw [List.mem_pair] at h
      rcases h with rfl | rfl
      · exact .inr (.inr (by decide))
      · exact .inr (toNat_ofNat (by decide))
    · split at h
      · rw [List.mem_singleton] at h
        rw [h]
        exact .inr (toNat_ofNat (by decide))
      · split at h
        · next run hrun =>
          rw [List.mem_singleton] at h
          have hfirst : run.first ≤ c.toNat := by
            have hcontains := List.find?_some hrun
            simp only [CaseRun.contains, Bool.and_eq_true, decide_eq_true_eq] at hcontains
            exact hcontains.1.1
          have hoffset := le_of_mem_caseRuns run (List.mem_of_find?_eq_some hrun)
          rw [h]
          exact .inr (toNat_ofNat (by omega))
        · exact .inl (List.mem_singleton.mp h)

/-- Only a mark has a mark as its lowercase form. -/
theorem plain_lowerChar {c d : Char} (hc : Plain c) (h : d ∈ lowerChar c) : Plain d := by
  rcases mem_lowerChar h with rfl | hcode
  · exact hc
  · constructor
    · rintro rfl
      have : '_'.toNat = 95 := by decide
      omega
    · rintro rfl
      have : '/'.toNat = 47 := by decide
      omega

end Text

/-! ## Constants -/

namespace Naming

/-- The spelling of a constant: it has no marks and does not start with a small letter. -/
structure IsConstant (cs : List Char) : Prop where
  plain : ∀ c ∈ cs, Text.Plain c
  raised : ∀ c, cs.head? = some c → isLowerLetter c = false

theorem toNat_lt_of_isLowerLetter {c : Char} (h : isLowerLetter c = true) : c.toNat < 128 := by
  simp only [isLowerLetter, Bool.and_eq_true, decide_eq_true_eq] at h
  have : 'z'.toNat = 122 := by decide
  omega

theorem not_isLowerLetter_upperChar (c : Char) : isLowerLetter (upperChar c) = false := by
  rw [upperChar]
  split
  · next hlower =>
    exact Text.forall_ascii (P := fun c => isLowerLetter c = true →
      isLowerLetter (Char.ofNat (c.toNat - 32)) = false) (by decide +kernel)
      (toNat_lt_of_isLowerLetter hlower) hlower
  · next hlower =>
    split
    · decide
    · split
      · decide
      · exact Bool.eq_false_iff.mpr hlower

theorem upperChar_cases (c : Char) : upperChar c = c ∨ isUpperLetter (upperChar c) = true := by
  rw [upperChar]
  split
  · next hlower =>
    exact .inr (Text.forall_ascii (P := fun c => isLowerLetter c = true →
      isUpperLetter (Char.ofNat (c.toNat - 32)) = true) (by decide +kernel)
      (toNat_lt_of_isLowerLetter hlower) hlower)
  · split
    · exact .inr (by decide)
    · split
      · exact .inr (by decide)
      · exact .inl rfl

theorem plain_upperChar {c : Char} (h : Text.Plain c) : Text.Plain (upperChar c) := by
  rcases upperChar_cases c with hsame | hupper
  · rwa [hsame]
  · constructor
    · intro hmark
      rw [hmark] at hupper
      exact absurd hupper (by decide)
    · intro hmark
      rw [hmark] at hupper
      exact absurd hupper (by decide)

theorem plain_joinWords {c : Char} (place : Place) {cs : List Char} (h : c ∈ joinWords place cs) :
    Text.Plain c := by
  fun_induction joinWords place cs with
  | case1 => cases h
  | case2 place cs ih => exact ih h
  | case3 place cs _ ih =>
    simp only [List.mem_cons] at h
    rcases h with rfl | rfl | h
    · decide
    · decide
    · exact ih h
  | case4 d cs hlow hslash _ ih =>
    rcases List.mem_cons.mp h with rfl | h
    · exact ⟨hlow, hslash⟩
    · exact ih h
  | case5 d cs hlow hslash _ ih =>
    rcases List.mem_cons.mp h with rfl | h
    · exact plain_upperChar ⟨hlow, hslash⟩
    · exact ih h
  | case6 d cs hlow hslash _ ih =>
    rcases List.mem_append.mp h with h | h
    · exact Text.plain_lowerChar ⟨hlow, hslash⟩ h
    · exact ih h
  | case7 place d cs hlow hslash _ ih =>
    rcases List.mem_cons.mp h with rfl | h
    · exact ⟨hlow, hslash⟩
    · exact ih h

/-- Where a word starts, its first character is raised. -/
theorem raised_atWord {c : Char} {cs : List Char} (h : (joinWords .atWord cs).head? = some c) :
    isLowerLetter c = false := by
  induction cs with
  | nil => cases h
  | cons d cs ih =>
    rw [joinWords] at h
    split at h
    · exact ih h
    · split at h
      · cases h
        decide
      · split at h
        · cases h
          exact not_isLowerLetter_upperChar d
        · next hname =>
          cases h
          simp only [isNameChar, Bool.or_eq_true, not_or] at hname
          exact Bool.eq_false_iff.mpr hname.1.1.1

/-- Outside of words the first character stays what it is. -/
theorem raised_outside {c d : Char} {cs : List Char} (hd : isLowerLetter d = false)
    (h : (joinWords .outside (d :: cs)).head? = some c) : isLowerLetter c = false := by
  rw [joinWords] at h
  split at h
  · exact raised_atWord h
  · split at h
    · cases h
      decide
    · split at h
      · cases h
        exact hd
      · cases h
        exact hd

theorem isConstant_constantChars (cs : List Char) : IsConstant (constantChars cs) where
  plain := fun _ => plain_joinWords .outside
  raised := by
    intro c h
    cases cs with
    | nil => cases h
    | cons d cs =>
      refine raised_outside ?_ h
      split
      · exact not_isLowerLetter_upperChar d
      · next hlower => exact Bool.eq_false_iff.mpr hlower

theorem joinWords_of_plain {cs : List Char} (h : ∀ c ∈ cs, Text.Plain c) :
    joinWords .outside cs = cs := by
  induction cs with
  | nil => rfl
  | cons c cs ih =>
    obtain ⟨hlow, hslash⟩ := h c List.mem_cons_self
    have hrest := ih fun d hd => h d (List.mem_cons_of_mem c hd)
    rw [joinWords, if_neg hlow, if_neg hslash]
    split
    · exact congrArg (c :: ·) hrest
    · exact congrArg (c :: ·) hrest

theorem constantChars_of_isConstant {cs : List Char} (h : IsConstant cs) :
    constantChars cs = cs := by
  have hfirst : raiseFirst cs = cs := by
    cases cs with
    | nil => rfl
    | cons c cs =>
      rw [raiseFirst, h.raised c rfl]
      rfl
  rw [constantChars, hfirst, joinWords_of_plain h.plain]

/-- What is spelled as a constant keeps its spelling. -/
theorem toConstant_toConstant (name : String) : toConstant (toConstant name) = toConstant name := by
  rw [toConstant, toConstant, String.toList_ofList,
    constantChars_of_isConstant (isConstant_constantChars name.toList)]

end Naming

/-! ## Documents that spell engines differently -/

/-- Fields under the same names in the same order, with values that are related. -/
def Fields.Alike (R : Scalar → Value → Value → Prop) (fields₁ fields₂ : Fields) : Prop :=
  List.Forall₂ (fun a b => a.1 = b.1 ∧ R a.1 a.2 b.2) fields₁ fields₂

theorem Fields.get?_of_alike {R : Scalar → Value → Value → Prop} {fields₁ fields₂ : Fields}
    (h : Alike R fields₁ fields₂) (name : String) :
    (get? name fields₁ = none ∧ get? name fields₂ = none) ∨
      ∃ v₁ v₂, get? name fields₁ = some v₁ ∧ get? name fields₂ = some v₂ ∧
        R (.text name) v₁ v₂ := by
  induction h with
  | nil => exact .inl ⟨rfl, rfl⟩
  | @cons a b fields₁ fields₂ hab _ ih =>
    obtain ⟨key, v₁⟩ := a
    obtain ⟨key', v₂⟩ := b
    obtain ⟨rfl, hvalues⟩ : key = key' ∧ R key v₁ v₂ := hab
    rw [get?, get?]
    by_cases hkey : key = .text name
    · rw [if_pos hkey, if_pos hkey]
      exact .inr ⟨v₁, v₂, rfl, rfl, hkey ▸ hvalues⟩
    · rw [if_neg hkey, if_neg hkey]
      exact ih

namespace Settings

/-- Two lists of names stand for the same engines. -/
def SameEngines (names₁ names₂ : List String) : Prop :=
  ∀ engine, engine ∈ names₁.map Naming.toConstant ↔ engine ∈ names₂.map Naming.toConstant

/-- Values of a field of an override: the same, or two names of one engine. -/
inductive EngineRespelled (key : Scalar) : Value → Value → Prop
  | same (v : Value) : EngineRespelled key v v
  | engine {name₁ name₂ : String} (hkey : key = .text "Engine")
      (h : Naming.toConstant name₁ = Naming.toConstant name₂) :
      EngineRespelled key (.text name₁) (.text name₂)

/-- Overrides that differ in the name of their engine only. -/
inductive OverrideRespelled : Value → Value → Prop
  | object {fields₁ fields₂ : Fields} (h : Fields.Alike EngineRespelled fields₁ fields₂) :
      OverrideRespelled (.object fields₁) (.object fields₂)

/-- Values of a field of the settings: the same, but for the spelling of engines and, in the two
lists of engines, for order and repetition. -/
inductive FieldRespelled (key : Scalar) : Value → Value → Prop
  | same (v : Value) : FieldRespelled key v v
  | engines {names₁ names₂ : List String}
      (hkey : key = .text "UnprotectedEngines" ∨ key = .text "StronglyProtectedEngines")
      (h : SameEngines names₁ names₂) : FieldRespelled key (.texts names₁) (.texts names₂)
  | overrides {entries₁ entries₂ : List Value} (hkey : key = .text "EngineSpecificOverrides")
      (h : List.Forall₂ OverrideRespelled entries₁ entries₂) :
      FieldRespelled key (.list entries₁) (.list entries₂)

/-- Settings that differ in the spelling of engines only. -/
inductive Respelled : Value → Value → Prop
  | object {fields₁ fields₂ : Fields} (h : Fields.Alike FieldRespelled fields₁ fields₂) :
      Respelled (.object fields₁) (.object fields₂)

theorem textsOf_texts (names : List String) : textsOf (.texts names) = names := by
  rw [Value.texts, textsOf, List.map_map]
  exact List.map_id names

theorem constants_congr {names₁ names₂ : List String} (h : SameEngines names₁ names₂) :
    constants names₁ = constants names₂ :=
  sortedSet_congr h

theorem mem_constants {engine : String} {names : List String} :
    engine ∈ constants names ↔ engine ∈ names.map Naming.toConstant :=
  mem_sortedSet

theorem constants_constants (names : List String) :
    constants (constants names) = constants names := by
  refine sortedSet_congr fun engine => ?_
  simp only [List.mem_map, mem_constants]
  constructor
  · rintro ⟨_, ⟨name, hname, rfl⟩, rfl⟩
    exact ⟨name, hname, (Naming.toConstant_toConstant name).symm⟩
  · rintro ⟨name, hname, rfl⟩
    exact ⟨_, ⟨name, hname, rfl⟩, Naming.toConstant_toConstant name⟩

/-! ## What is read from them -/

theorem override_of_respelled {v₁ v₂ : Value} (h : OverrideRespelled v₁ v₂) :
    Naming.toConstant (((v₁.field? "Engine").map textOf).getD "") =
        Naming.toConstant (((v₂.field? "Engine").map textOf).getD "") ∧
      textsIn v₁ "AllowedModules" = textsIn v₂ "AllowedModules" := by
  obtain ⟨hfields⟩ := h
  simp only [textsIn, Value.field?]
  constructor
  · rcases Fields.get?_of_alike hfields "Engine" with ⟨h₁, h₂⟩ | ⟨v₁, v₂, h₁, h₂, hvalues⟩
    · rw [h₁, h₂]
    · rw [h₁, h₂]
      cases hvalues with
      | same => rfl
      | engine _ hname => exact hname
  · rcases Fields.get?_of_alike hfields "AllowedModules" with
      ⟨h₁, h₂⟩ | ⟨v₁, v₂, h₁, h₂, hvalues⟩
    · rw [h₁, h₂]
    · rw [h₁, h₂]
      cases hvalues with
      | same => rfl
      | engine hkey => exact absurd hkey (by decide)

theorem readOverrides_of_respelled {entries₁ entries₂ : List Value}
    (h : List.Forall₂ OverrideRespelled entries₁ entries₂) :
    readOverrides (.list entries₁) = readOverrides (.list entries₂) := by
  rw [readOverrides, readOverrides]
  congr 1
  induction h with
  | nil => rfl
  | cons hfirst _ ih =>
    obtain ⟨hengine, hmodules⟩ := override_of_respelled hfirst
    rw [List.map_cons, List.map_cons, ih, hengine, hmodules]

section Respelling

variable {v₁ v₂ : Value} (h : Respelled v₁ v₂)

include h

theorem field?_of_respelled (name : String) :
    (v₁.field? name = none ∧ v₂.field? name = none) ∨
      ∃ w₁ w₂, v₁.field? name = some w₁ ∧ v₂.field? name = some w₂ ∧
        FieldRespelled (.text name) w₁ w₂ := by
  obtain ⟨hfields⟩ := h
  exact Fields.get?_of_alike hfields name

/-- A field that holds no engines is the same. -/
theorem field?_eq_of_respelled {name : String}
    (hname : name ∉
      ["UnprotectedEngines", "StronglyProtectedEngines", "EngineSpecificOverrides"]) :
    v₁.field? name = v₂.field? name := by
  rcases field?_of_respelled h name with ⟨h₁, h₂⟩ | ⟨w₁, w₂, h₁, h₂, hvalues⟩
  · rw [h₁, h₂]
  · rw [h₁, h₂]
    cases hvalues with
    | same => rfl
    | engines hkey => simp_all
    | overrides hkey => simp_all

theorem constants_of_respelled {name : String} (hname : name ≠ "EngineSpecificOverrides") :
    constants (textsIn v₁ name) = constants (textsIn v₂ name) := by
  rw [textsIn, textsIn]
  rcases field?_of_respelled h name with ⟨h₁, h₂⟩ | ⟨w₁, w₂, h₁, h₂, hvalues⟩
  · rw [h₁, h₂]
  · rw [h₁, h₂]
    cases hvalues with
    | same => rfl
    | engines _ hengines =>
      simp only [Option.map_some, Option.getD_some, textsOf_texts]
      exact constants_congr hengines
    | overrides hkey => exact absurd (Scalar.text.inj hkey) hname

theorem overrides_of_respelled :
    readOverrides ((v₁.field? "EngineSpecificOverrides").getD .null) =
      readOverrides ((v₂.field? "EngineSpecificOverrides").getD .null) := by
  rcases field?_of_respelled h "EngineSpecificOverrides" with
    ⟨h₁, h₂⟩ | ⟨w₁, w₂, h₁, h₂, hvalues⟩
  · rw [h₁, h₂]
  · rw [h₁, h₂]
    cases hvalues with
    | same => rfl
    | engines hkey => exact absurd hkey (by decide)
    | overrides _ hentries => exact readOverrides_of_respelled hentries

theorem eq_of_respelled {s₁ s₂ : Settings} (h₁ : ReadFrom v₁ s₁) (h₂ : ReadFrom v₂ s₂) :
    s₁ = s₂ := by
  have hmodel : s₁.model = s₂.model := by
    have hread := h₁.model
    rw [field?_eq_of_respelled h (by decide), h₂.model] at hread
    exact (Option.some.inj hread).symm
  have hengines : s₁.enginesPath = s₂.enginesPath := by
    rw [h₁.enginesPath, h₂.enginesPath, field?_eq_of_respelled h (by decide)]
  have hunprotected : s₁.unprotected = s₂.unprotected := by
    rw [h₁.unprotected, h₂.unprotected, constants_of_respelled h (by decide)]
  have hstrong : s₁.stronglyProtected = s₂.stronglyProtected := by
    rw [h₁.stronglyProtected, h₂.stronglyProtected, constants_of_respelled h (by decide)]
  have hoverrides : s₁.overrides = s₂.overrides := by
    rw [h₁.overrides, h₂.overrides, overrides_of_respelled h]
  have hapi : s₁.apiPath = s₂.apiPath := by
    rw [h₁.apiPath, h₂.apiPath, field?_eq_of_respelled h (by decide)]
  cases s₁
  cases s₂
  simp_all

end Respelling

/-- Accepted overrides have one entry for each engine, spelled as a constant. -/
theorem keys_overrides {v : Value} {settings : Settings} (h : ReadFrom v settings) :
    (settings.overrides.map Prod.fst).Nodup ∧
      ∀ o ∈ settings.overrides, Naming.toConstant o.1 = o.1 := by
  rw [h.overrides]
  cases (v.field? "EngineSpecificOverrides").getD .null with
  | list entries =>
    refine ⟨nodup_keys_ofPairs _, fun o ho => ?_⟩
    obtain ⟨entry, -, rfl⟩ := List.mem_map.mp (mem_ofPairs ho)
    exact Naming.toConstant_toConstant _
  | scalar s => exact ⟨List.nodup_nil, nofun⟩
  | object fields => exact ⟨List.nodup_nil, nofun⟩

end Settings

/-! ## The protection that is made from them -/

/-- The names of accepted settings are taken over as they are. -/
theorem Protection.names_of_readFrom {v : Value} {settings : Settings}
    (h : Settings.ReadFrom v settings) (root : Option Path) :
    (ofSettings settings root).unprotected = settings.unprotected ∧
      (ofSettings settings root).strong = settings.stronglyProtected ∧
      (ofSettings settings root).overrides = settings.overrides := by
  refine ⟨?_, ?_, ?_⟩
  · show Settings.constants settings.unprotected = _
    rw [h.unprotected, Settings.constants_constants]
  · show Settings.constants settings.stronglyProtected = _
    rw [h.stronglyProtected, Settings.constants_constants]
  · obtain ⟨hnodup, hkeys⟩ := Settings.keys_overrides h
    have hsame : settings.overrides.map (fun o => (Naming.toConstant o.1, o.2)) =
        settings.overrides := by
      refine (List.map_congr_left fun o ho => ?_).trans (List.map_id _)
      rw [hkeys o ho]
      rfl
    show ofPairs (settings.overrides.map fun o => (Naming.toConstant o.1, o.2)) = _
    rw [hsame, ofPairs_of_nodup hnodup]

/-- Accepted documents that differ in the spelling of engines only, and in order and repetition in
the two lists of engines, protect the same engines in the same way and lead to the same reports.
What was spelled as a constant when the settings were read is not changed again. -/
theorem spelling_immaterial {document₁ document₂ : Value} {s₁ s₂ : Settings}
    (h₁ : Settings.ofValue document₁ = .ok s₁) (h₂ : Settings.ofValue document₂ = .ok s₂)
    (h : Settings.Respelled (Settings.section? document₁) (Settings.section? document₂))
    (root : Option Path) (fs : FileSystem) :
    let p₁ := Protection.ofSettings s₁ root
    let p₂ := Protection.ofSettings s₂ root
    p₁.protectedEngines (p₁.survey fs).1 = p₂.protectedEngines (p₂.survey fs).1 ∧
      (∀ engine, p₁.isStrong engine = p₂.isStrong engine) ∧
      (∀ engine, p₁.overridesFor engine = p₂.overridesFor engine) ∧
      (∀ source trail t, Inspection.fresh s₁ root source trail fs t =
        Inspection.fresh s₂ root source trail fs t) ∧
      p₁.unprotected = s₁.unprotected ∧ p₁.strong = s₁.stronglyProtected ∧
      p₁.overrides = s₁.overrides := by
  intro p₁ p₂
  have hread := Settings.readFrom_of_ofValue h₁
  obtain rfl := Settings.eq_of_respelled h hread (Settings.readFrom_of_ofValue h₂)
  exact ⟨rfl, fun _ => rfl, fun _ => rfl, fun _ _ _ => rfl,
    Protection.names_of_readFrom hread root⟩

/-- Settings in a section of their own, with engines named by their directories. -/
def settingsByDirectory : Value :=
  .record
    [("EngineApiBoundary", .record
      [("EnginesPath", .text "engines"),
        ("UnprotectedEngines", .texts ["legacy_core", "shop"]),
        ("EngineSpecificOverrides", .list
          [.record [("Engine", .text "billing_core"), ("AllowedModules", .texts ["Shop::Order"])]])])]

/-- The same settings with engines named by their constants, one of them twice. -/
def settingsByConstant : Value :=
  .record
    [("EnginesPath", .text "engines"),
      ("UnprotectedEngines", .texts ["Shop", "LegacyCore", "legacy_core"]),
      ("EngineSpecificOverrides", .list
        [.record [("Engine", .text "BillingCore"), ("AllowedModules", .texts ["Shop::Order"])]])]

theorem respelled_byConstant :
    Settings.Respelled (Settings.section? settingsByDirectory)
      (Settings.section? settingsByConstant) := by
  have hfirst : ["legacy_core", "shop"].map Naming.toConstant = ["LegacyCore", "Shop"] := by
    decide +kernel
  have hsecond : ["Shop", "LegacyCore", "legacy_core"].map Naming.toConstant =
      ["Shop", "LegacyCore", "LegacyCore"] := by decide +kernel
  refine .object (.cons ⟨rfl, .same _⟩ (.cons ⟨rfl, .engines (.inl rfl) ?_⟩
    (.cons ⟨rfl, .overrides rfl (.cons (.object (.cons ⟨rfl, .engine rfl ?_⟩
      (.cons ⟨rfl, .same _⟩ .nil))) .nil)⟩ .nil)))
  · intro engine
    rw [hfirst, hsecond]
    simp only [List.mem_cons, List.not_mem_nil, or_false, or_self]
    exact or_comm
  · decide +kernel

theorem overrides_byConstant :
    ∃ s₁ s₂, Settings.ofValue settingsByDirectory = .ok s₁ ∧
      Settings.ofValue settingsByConstant = .ok s₂ ∧
      ∀ engine, (Protection.ofSettings s₁ none).overridesFor engine =
        (Protection.ofSettings s₂ none).overridesFor engine := by
  obtain ⟨s₁, h₁⟩ : ∃ s, Settings.ofValue settingsByDirectory = .ok s := ⟨_, rfl⟩
  obtain ⟨s₂, h₂⟩ : ∃ s, Settings.ofValue settingsByConstant = .ok s := ⟨_, rfl⟩
  exact ⟨s₁, s₂, h₁, h₂, (spelling_immaterial h₁ h₂ respelled_byConstant none {}).2.2.1⟩

end Bulkhead
