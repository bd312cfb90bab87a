/-
The settings that are accepted, and what they are read as.

A `Sheet` holds what a document can say about the settings, field by field, before any of it is
normalised; `StandsIn` says that a value says just that.  The checks of the shape find no fault in a
value exactly if some sheet stands in it, and the settings are then what `Gives` makes of the sheet.
Each check has one lemma that turns "no fault" into the relation of its field; the shape is put
together from them as it is put together from the checks.
-/
import Mathlib.Data.List.Induction
import Bulkhead.Proofs.DoubleRange
import Bulkhead.Proofs.Spelling

namespace Bulkhead

namespace Number

def Double.IsFinite (x : Double) : Prop :=
  ∃ negative mantissa exponent, x = .finite negative mantissa exponent

def Double.IsPositive : Double → Prop
  | .finite negative mantissa _ => negative = false ∧ 0 < mantissa
  | .infinite negative => negative = false
  | .nan => False

end Number

theorem Text.occursIn_iff {part cs : List Char} : occursIn part cs = true ↔ part <:+: cs := by
  induction cs with
  | nil => simp [occursIn]
  | cons c cs ih =>
    rw [occursIn, Bool.or_eq_true, List.isPrefixOf_iff_prefix, ih, List.infix_cons_iff]

namespace Settings

open Number

/-! ## Sheets -/

/-- What a document says about persistence models.  Everything may be left out. -/
structure ModelSheet where
  kind : Option String := none
  command : Option (List String) := none
  persistenceBase : Option String := none
  timeout : Option Seconds := none
  workingDirectory : Option String := none
  models : Option (List String) := none

/-- What a document says. -/
structure Sheet where
  enginesPath : String
  unprotected : List String
  stronglyProtected : List String
  overrides : List (String × List String)
  apiPath : Option String
  model : Option ModelSheet

/-- The field is left out, or its value stands for something. -/
inductive Given {α : Type} (v : Value) (name : String) (R : Value → α → Prop) : Option α → Prop
  | absent (h : v.field? name = none) : Given v name R none
  | present {w : Value} {a : α} (h : v.field? name = some w) (ha : R w a) : Given v name R (some a)

/-- The field is a list of values that stand for something, or is left out, or is null. -/
inductive ListAt {α : Type} (v : Value) (name : String) (R : Value → α → Prop) : List α → Prop
  | absent (h : v.field? name = none) : ListAt v name R []
  | null (h : v.field? name = some .null) : ListAt v name R []
  | present {items : List Value} {as : List α} (h : v.field? name = some (.list items))
      (hitems : List.Forall₂ R items as) : ListAt v name R as

def IsText (w : Value) (s : String) : Prop :=
  w = .text s

def IsName (w : Value) (s : String) : Prop :=
  w = .text s ∧ s ≠ ""

/-- A list of values that stand for something. -/
def IsListOf {α : Type} (R : Value → α → Prop) (w : Value) (as : List α) : Prop :=
  ∃ items, w = .list items ∧ List.Forall₂ R items as

structure IsOverride (w : Value) (o : String × List String) : Prop where
  object : ∃ fields, w = .object fields
  engine : ∃ name, w.field? "Engine" = some name ∧ IsName name o.1
  modules : ListAt w "AllowedModules" IsName o.2

inductive IsTime : Value → Seconds → Prop
  | whole {n : Int} (h : 0 < n) : IsTime (.int n) (.whole n)
  | real {x : Double} (h : x.IsPositive) : IsTime (.real x) (.real x)

def modelKeys : List String :=
  ["Kind", "Command", "PersistenceBase", "TimeoutSeconds", "WorkingDirectory", "Models"]

/-- The fields of the value say what is on the sheet. -/
structure ModelSheet.StandsIn (m : ModelSheet) (w : Value) : Prop where
  kind : Given w "Kind" (fun w s => IsText w s ∧ (s = "runner" ∨ s = "static")) m.kind
  command : Given w "Command" (fun w parts => IsListOf IsText w parts ∧ parts ≠ []) m.command
  persistenceBase : Given w "PersistenceBase" IsName m.persistenceBase
  timeout : Given w "TimeoutSeconds" IsTime m.timeout
  workingDirectory : Given w "WorkingDirectory" IsText m.workingDirectory
  models : Given w "Models" (IsListOf IsName) m.models

/-- An object without other fields. -/
structure IsModel (w : Value) (m : ModelSheet) : Prop where
  object : ∃ fields, w = .object fields ∧ ∀ field ∈ fields, ∃ key ∈ modelKeys, field.1 = .text key
  standsIn : m.StandsIn w

/-- The value says what is on the sheet. -/
structure Sheet.StandsIn (sheet : Sheet) (v : Value) : Prop where
  object : ∃ fields, v = .object fields
  enginesPath : ∃ path, v.field? "EnginesPath" = some path ∧ IsName path sheet.enginesPath
  unprotected : ListAt v "UnprotectedEngines" IsName sheet.unprotected
  stronglyProtected : ListAt v "StronglyProtectedEngines" IsName sheet.stronglyProtected
  overrides : ListAt v "EngineSpecificOverrides" IsOverride sheet.overrides
  apiPath : Given v "ApiPath"
    (fun w s => IsText w s ∧ "\x7bengine\x7d".toList <:+: s.toList) sheet.apiPath
  model : Given v "ModelOracle" IsModel sheet.model

/-! ## What is made of a sheet -/

/-- The list holds the given names, each of them once. -/
structure IsSetOf (names made : List String) : Prop where
  mem_iff : ∀ name, name ∈ made ↔ name ∈ names
  nodup : made.Nodup

/-- The modules in the last override for an engine, whatever way its name is spelled. -/
def lastFor (engine : String) (overrides : List (String × List String)) : Option (List String) :=
  (overrides.reverse.find? fun o => Naming.toConstant o.1 == engine).map Prod.snd

/-- A time that is given as an integer becomes the nearest number of binary64. -/
inductive Lasts : Option Seconds → Seconds → Prop
  | absent : Lasts none (.real (Double.nearest false 60 1))
  | whole {n : Int} {x : Double} (h : Double.ofInt? n = some x) : Lasts (some (.whole n)) (.real x)
  | real {x : Double} : Lasts (some (.real x)) (.real x)

structure ModelSheet.Gives (m : ModelSheet) (model : ModelSettings) : Prop where
  kind : model.kind = m.kind.getD "runner"
  command : model.command =
    m.command.getD ["bin/rails", "runner", "puts \x7bname\x7d.ancestors"]
  persistenceBase : model.persistenceBase = m.persistenceBase.getD "ActiveRecord::Base"
  timeout : Lasts m.timeout model.timeout
  workingDirectory : model.workingDirectory = m.workingDirectory
  models : IsSetOf (m.models.getD []) model.models

/-- The settings are what the sheet says, with engines spelled as constants, one entry for each
engine that has overrides, a slash at the end of the path and what is left out filled in. -/
structure Sheet.Gives (sheet : Sheet) (settings : Settings) : Prop where
  enginesPath : settings.enginesPath =
    if sheet.enginesPath.toList.getLast? = some '/' then sheet.enginesPath
    else sheet.enginesPath ++ "/"
  unprotected : IsSetOf (sheet.unprotected.map Naming.toConstant) settings.unprotected
  stronglyProtected :
    IsSetOf (sheet.stronglyProtected.map Naming.toConstant) settings.stronglyProtected
  overrides : ∀ engine, named? engine settings.overrides = lastFor engine sheet.overrides
  overridden : (settings.overrides.map Prod.fst).Nodup
  apiPath : settings.apiPath = sheet.apiPath.getD "\x7bengine\x7d/app/api/\x7bengine\x7d/api"
  model : (sheet.model.getD {}).Gives settings.model

/-! ## Checks that find nothing -/

namespace Check

variable {α : Type} {v w : Value} {name : String} {check : Check} {R : Value → α → Prop}

theorem every_nil : every [] v = none :=
  rfl

theorem every_cons {checks : List Check} :
    every (check :: checks) v = none ↔ check v = none ∧ every checks v = none := by
  rw [every_eq_none, every_eq_none, List.forall_mem_cons]

theorem anyOf_pair {first second : Check} :
    anyOf [first, second] v = none ↔ first v = none ∨ second v = none := by
  cases hfirst : first v <;> cases hsecond : second v <;> simp [anyOf, fail, hfirst, hsecond]

theorem isText_eq_none : isText w = none ↔ ∃ s, IsText w s := by
  rcases w with (s | items | fields)
  · cases s <;> simp [isText, fail, IsText, Value.text]
  · simp [isText, fail, IsText, Value.text]
  · simp [isText, fail, IsText, Value.text]

theorem isObject_eq_none : isObject w = none ↔ ∃ fields, w = .object fields := by
  cases w <;> simp [isObject, fail]

theorem isNull_eq_none : isNull w = none ↔ w = .null := by
  rcases w with (s | items | fields)
  · cases s <;> simp [isNull, fail, Value.null]
  · simp [isNull, fail, Value.null]
  · simp [isNull, fail, Value.null]

theorem name_eq_none : every [isText, notEmpty] w = none ↔ ∃ s, IsName w s := by
  simp only [every_cons, every_nil, and_true, isText_eq_none]
  constructor
  · rintro ⟨⟨s, rfl⟩, hfilled⟩
    refine ⟨s, rfl, ?_⟩
    rintro rfl
    cases hfilled
  · rintro ⟨s, rfl, hfilled⟩
    have hname : s.isEmpty = false := by simpa using hfilled
    refine ⟨⟨s, rfl⟩, ?_⟩
    show (if s.isEmpty then _ else _) = none
    rw [hname]
    rfl

/-- A field that may be left out. -/
theorem field_eq_none_iff
    (h : ∀ w, v.field? name = some w → (check w = none ↔ ∃ a, R w a)) :
    field name check v = none ↔ ∃ o, Given v name R o := by
  rw [field_eq_none]
  constructor
  · intro hcheck
    cases hfield : v.field? name with
    | none => exact ⟨none, .absent hfield⟩
    | some w =>
      obtain ⟨a, ha⟩ := (h w hfield).mp (hcheck w hfield)
      exact ⟨some a, .present hfield ha⟩
  · rintro ⟨o, ho⟩ w hw
    cases ho with
    | absent hnone => rw [hnone] at hw; cases hw
    | present hfield ha =>
      cases hfield.symm.trans hw
      exact (h w hw).mpr ⟨_, ha⟩

theorem has_eq_none (hobject : ∃ fields, v = .object fields) :
    has name v = none ↔ ∃ w, v.field? name = some w := by
  obtain ⟨fields, rfl⟩ := hobject
  rw [has, Value.field?]
  cases Fields.get? name fields <;> simp [fail]

/-- A name that must be there. -/
theorem has_name_eq_none (hobject : ∃ fields, v = .object fields) :
    has name v = none ∧ field name (every [isText, notEmpty]) v = none ↔
      ∃ s w, v.field? name = some w ∧ IsName w s := by
  rw [has_eq_none hobject, field_eq_none]
  constructor
  · rintro ⟨⟨w, hw⟩, hcheck⟩
    obtain ⟨s, hs⟩ := name_eq_none.mp (hcheck w hw)
    exact ⟨s, w, hw, hs⟩
  · rintro ⟨s, w, hw, hs⟩
    refine ⟨⟨w, hw⟩, fun w' hw' => ?_⟩
    cases hw.symm.trans hw'
    exact name_eq_none.mpr ⟨s, hs⟩

theorem itemsFrom_eq_none {index : Nat} {items : List Value} :
    itemsFrom check index items = none ↔ ∀ item ∈ items, check item = none := by
  induction items generalizing index with
  | nil => simp [itemsFrom]
  | cons item rest ih =>
    rw [itemsFrom, List.forall_mem_cons]
    cases check item with
    | none => simp [ih]
    | some fault => simp

theorem exists_forall₂_iff {items : List Value} :
    (∃ as, List.Forall₂ R items as) ↔ ∀ item ∈ items, ∃ a, R item a := by
  induction items with
  | nil => simp
  | cons item rest ih =>
    rw [List.forall_mem_cons, ← ih]
    constructor
    · rintro ⟨as, has⟩
      cases has with
      | cons ha hrest => exact ⟨⟨_, ha⟩, _, hrest⟩
    · rintro ⟨⟨a, ha⟩, as, has⟩
      exact ⟨a :: as, .cons ha has⟩

/-- A list, item by item. -/
theorem items_eq_none (h : ∀ w, check w = none ↔ ∃ a, R w a) :
    isList w = none ∧ items check w = none ↔ ∃ as, IsListOf R w as := by
  rw [isList_eq_none]
  constructor
  · rintro ⟨⟨items, rfl⟩, hitems⟩
    have hall : ∀ item ∈ items, check item = none := itemsFrom_eq_none.mp hitems
    obtain ⟨as, has⟩ := exists_forall₂_iff.mpr fun item hitem => (h item).mp (hall item hitem)
    exact ⟨as, items, rfl, has⟩
  · rintro ⟨as, items, rfl, has⟩
    refine ⟨⟨items, rfl⟩, itemsFrom_eq_none.mpr fun item hitem => (h item).mpr ?_⟩
    exact exists_forall₂_iff.mp ⟨as, has⟩ item hitem

/-- A list that may be left out or null. -/
theorem listAt_iff
    (h : ∀ w, check w = none ↔ w = .null ∨ ∃ as, IsListOf R w as) :
    field name check v = none ↔ ∃ as, ListAt v name R as := by
  rw [field_eq_none]
  constructor
  · intro hcheck
    cases hfield : v.field? name with
    | none => exact ⟨[], .absent hfield⟩
    | some w =>
      rcases (h w).mp (hcheck w hfield) with rfl | ⟨as, items, rfl, has⟩
      · exact ⟨[], .null hfield⟩
      · exact ⟨as, .present hfield has⟩
  · rintro ⟨as, has⟩ w hw
    rw [h]
    cases has with
    | absent hfield => cases hfield.symm.trans hw
    | null hfield =>
      cases hfield.symm.trans hw
      exact .inl rfl
    | present hfield hitems =>
      cases hfield.symm.trans hw
      exact .inr ⟨_, _, rfl, hitems⟩

theorem oneOf_eq_none {choices : List String} :
    oneOf choices w = none ↔ ∃ s, IsText w s ∧ s ∈ choices := by
  rcases w with (s | items | fields)
  · cases s <;> simp [oneOf, fail, IsText, Value.text]
  · simp [oneOf, fail, IsText, Value.text]
  · simp [oneOf, fail, IsText, Value.text]

theorem holds_eq_none {part pattern : String} :
    every [isText, holds part pattern] w = none ↔
      ∃ s, IsText w s ∧ part.toList <:+: s.toList := by
  have htext (s : String) :
      holds part pattern (.text s) = none ↔ part.toList <:+: s.toList := by
    rw [← Text.occursIn_iff]
    show (if Text.occursIn part.toList s.toList then none else _) = none ↔ _
    cases Text.occursIn part.toList s.toList <;> simp [fail]
  simp only [every_cons, every_nil, and_true, isText_eq_none]
  constructor
  · rintro ⟨⟨s, rfl⟩, hholds⟩
    exact ⟨s, rfl, (htext s).mp hholds⟩
  · rintro ⟨s, rfl, hpart⟩
    exact ⟨⟨s, rfl⟩, (htext s).mpr hpart⟩

theorem aboveZero_int {n : Int} : aboveZero (.int n) = none ↔ 0 < n := by
  show (if n ≤ 0 then fail _ else none) = none ↔ 0 < n
  by_cases hn : n ≤ 0
  · simp [fail, hn]
  · simp [hn, Int.not_le.mp hn]

/-- What is not a number is not at most zero either, so it would pass. -/
theorem aboveZero_real {x : Double} (hfinite : x.IsFinite) :
    aboveZero (.real x) = none ↔ x.IsPositive := by
  obtain ⟨negative, mantissa, exponent, rfl⟩ := hfinite
  show (if negative || mantissa == 0 then fail _ else none) = none ↔ negative = false ∧ 0 < mantissa
  cases negative with
  | true => simp [fail]
  | false =>
    by_cases hzero : mantissa = 0
    · simp [fail, hzero]
    · simp [hzero, Nat.pos_of_ne_zero hzero]

theorem time_eq_none (hfinite : ∀ x, w = .real x → x.IsFinite) :
    every [isNumber, aboveZero] w = none ↔ ∃ t, IsTime w t := by
  simp only [every_cons, every_nil, and_true]
  constructor
  · rintro ⟨hnumber, habove⟩
    rcases w with (s | items | fields)
    · cases s with
      | int n => exact ⟨.whole n, .whole (aboveZero_int.mp habove)⟩
      | real x => exact ⟨.real x, .real ((aboveZero_real (hfinite x rfl)).mp habove)⟩
      | _ => cases hnumber
    · cases hnumber
    · cases hnumber
  · rintro ⟨t, ht⟩
    cases ht with
    | whole hpos => exact ⟨rfl, aboveZero_int.mpr hpos⟩
    | real hpos => exact ⟨rfl, (aboveZero_real (hfinite _ rfl)).mpr hpos⟩

theorem only_eq_none {names : List String} {fields : Fields} :
    only names (.object fields) = none ↔
      ∀ field ∈ fields, ∃ key ∈ names, field.1 = .text key := by
  have hsorted (keys : List Scalar) (le : Scalar → Scalar → Bool) :
      (keys.mergeSort le).isEmpty = keys.isEmpty := by
    rw [Bool.eq_iff_iff, List.isEmpty_iff, List.isEmpty_iff]
    exact ⟨fun h => ((List.mergeSort_perm keys le).symm.trans (.of_eq h)).eq_nil,
      fun h => ((List.mergeSort_perm keys le).trans (.of_eq h)).eq_nil⟩
  have hextra : ((fields.map Prod.fst).filter fun key =>
      !(names.map Scalar.text).contains key).isEmpty ↔
        ∀ field ∈ fields, ∃ key ∈ names, field.1 = .text key := by
    rw [List.isEmpty_iff, List.filter_eq_nil_iff, List.forall_mem_map]
    refine forall₂_congr fun field _ => ?_
    rw [Bool.not_eq_true', Bool.not_eq_false, List.contains_iff_mem, List.mem_map]
    exact exists_congr fun key => and_congr_right' eq_comm
  rw [← hextra]
  simp only [only, hsorted]
  cases List.isEmpty _ <;> simp [fail]

end Check

/-! ## The shape -/

open Check

variable {v w : Value}

theorem nameList_eq_none : nameList w = none ↔ ∃ names, IsListOf IsName w names := by
  simp only [nameList, every_cons, every_nil, and_true]
  exact items_eq_none fun _ => name_eq_none

theorem nameListOrNull_eq_none :
    nameListOrNull w = none ↔ w = .null ∨ ∃ names, IsListOf IsName w names := by
  rw [nameListOrNull, anyOf_pair, nameList_eq_none, isNull_eq_none, or_comm]

theorem overrideShape_eq_none : overrideShape w = none ↔ ∃ o, IsOverride w o := by
  simp only [overrideShape, every_cons, every_nil, and_true]
  rw [isObject_eq_none, listAt_iff fun _ => nameListOrNull_eq_none]
  constructor
  · rintro ⟨hobject, hhas, hengine, modules, hmodules⟩
    obtain ⟨engine, name, hname⟩ :=
      (has_name_eq_none hobject).mp ⟨hhas, hengine⟩
    exact ⟨(engine, modules), hobject, ⟨name, hname⟩, hmodules⟩
  · rintro ⟨⟨engine, modules⟩, hobject, ⟨name, hname⟩, hmodules⟩
    obtain ⟨hhas, hengine⟩ :=
      (has_name_eq_none hobject).mpr ⟨engine, name, hname⟩
    exact ⟨hobject, hhas, hengine, modules, hmodules⟩

theorem overrides_eq_none :
    anyOf [isNull, every [isList, items overrideShape]] w = none ↔
      w = .null ∨ ∃ overrides, IsListOf IsOverride w overrides := by
  simp only [anyOf_pair, isNull_eq_none, every_cons, every_nil, and_true]
  rw [items_eq_none fun _ => overrideShape_eq_none]

theorem command_eq_none :
    every [isList, notEmpty, items isText] w = none ↔
      ∃ parts, IsListOf IsText w parts ∧ parts ≠ [] := by
  simp only [every_cons, every_nil, and_true]
  constructor
  · rintro ⟨hlist, hfilled, hitems⟩
    obtain ⟨parts, items, rfl, hparts⟩ :=
      (items_eq_none fun _ => isText_eq_none).mp ⟨hlist, hitems⟩
    refine ⟨parts, ⟨items, rfl, hparts⟩, ?_⟩
    rintro rfl
    cases hparts
    cases hfilled
  · rintro ⟨parts, ⟨items, rfl, hparts⟩, hne⟩
    obtain ⟨hlist, hitems⟩ :=
      (items_eq_none fun _ => isText_eq_none).mpr ⟨parts, items, rfl, hparts⟩
    refine ⟨hlist, ?_, hitems⟩
    cases hparts with
    | nil => exact absurd rfl hne
    | cons => rfl

/-- A number is a number of binary64, or an integer in the range of these. -/
structure IsBinary64 (w : Value) : Prop where
  whole : ∀ n, w = .int n → Double.InRange n
  real : ∀ x, w = .real x → x.IsFinite

theorem modelShape_eq_none
    (hrange : ∀ time, w.field? "TimeoutSeconds" = some time → IsBinary64 time) :
    modelShape w = none ↔ ∃ m, IsModel w m := by
  have hkind (w : Value) : oneOf ["runner", "static"] w = none ↔
      ∃ s, IsText w s ∧ (s = "runner" ∨ s = "static") := by
    simp [oneOf_eq_none]
  simp only [modelShape, every_cons, every_nil, and_true]
  rw [isObject_eq_none, field_eq_none_iff fun w _ => hkind w,
    field_eq_none_iff fun _ _ => command_eq_none, field_eq_none_iff fun _ _ => name_eq_none,
    field_eq_none_iff fun time htime => time_eq_none (hrange time htime).real,
    field_eq_none_iff fun _ _ => isText_eq_none, field_eq_none_iff fun _ _ => nameList_eq_none]
  constructor
  · rintro ⟨⟨fields, rfl⟩, ⟨kind, hkind⟩, ⟨command, hcommand⟩, ⟨base, hbase⟩, ⟨timeout, htimeout⟩,
      ⟨directory, hdirectory⟩, ⟨models, hmodels⟩, honly⟩
    exact ⟨⟨kind, command, base, timeout, directory, models⟩, ⟨fields, rfl, only_eq_none.mp honly⟩,
      hkind, hcommand, hbase, htimeout, hdirectory, hmodels⟩
  · rintro ⟨m, ⟨fields, rfl, hknown⟩, hkind, hcommand, hbase, htimeout, hdirectory, hmodels⟩
    exact ⟨⟨fields, rfl⟩, ⟨_, hkind⟩, ⟨_, hcommand⟩, ⟨_, hbase⟩, ⟨_, htimeout⟩, ⟨_, hdirectory⟩,
      ⟨_, hmodels⟩, only_eq_none.mpr hknown⟩

/-- The time in the settings, where it is given as a number, is in the range of binary64. -/
def TimeInRange (v : Value) : Prop :=
  ∀ model time, v.field? "ModelOracle" = some model →
    model.field? "TimeoutSeconds" = some time → IsBinary64 time

theorem shape_eq_none (hrange : TimeInRange v) :
    shape v = none ↔ ∃ sheet : Sheet, sheet.StandsIn v := by
  simp only [shape, every_cons, every_nil, and_true]
  rw [isObject_eq_none, listAt_iff fun _ => nameListOrNull_eq_none,
    listAt_iff fun _ => nameListOrNull_eq_none, listAt_iff fun _ => overrides_eq_none,
    field_eq_none_iff fun _ _ => holds_eq_none,
    field_eq_none_iff fun model hmodel => modelShape_eq_none fun time => hrange model time hmodel]
  constructor
  · rintro ⟨hobject, hhas, hpath, ⟨unprotected, hunprotected⟩, ⟨strong, hstrong⟩,
      ⟨overrides, hoverrides⟩, ⟨api, hapi⟩, model, hmodel⟩
    obtain ⟨path, w, hw⟩ := (has_name_eq_none hobject).mp ⟨hhas, hpath⟩
    exact ⟨⟨path, unprotected, strong, overrides, api, model⟩, hobject, ⟨w, hw⟩, hunprotected,
      hstrong, hoverrides, hapi, hmodel⟩
  · rintro ⟨sheet, hobject, ⟨w, hw⟩, hunprotected, hstrong, hoverrides, hapi, hmodel⟩
    obtain ⟨hhas, hpath⟩ := (has_name_eq_none hobject).mpr ⟨sheet.enginesPath, w, hw⟩
    exact ⟨hobject, hhas, hpath, ⟨_, hunprotected⟩, ⟨_, hstrong⟩, ⟨_, hoverrides⟩, ⟨_, hapi⟩,
      _, hmodel⟩

/-! ## Reading -/

theorem isSetOf_sortedSet (names : List String) : IsSetOf names (sortedSet names) :=
  ⟨fun _ => mem_sortedSet, (eraseDups_sublist _).2⟩

/-- Of the values that have the same name the last one is kept. -/
theorem named?_ofPairs {α : Type} (key : String) (pairs : List (String × α)) :
    named? key (ofPairs pairs) =
      (pairs.reverse.find? fun pair => pair.1 == key).map Prod.snd := by
  induction pairs using List.reverseRecOn with
  | nil => rfl
  | append_singleton pairs last ih =>
    rw [ofPairs, List.foldl_append, List.foldl_cons, List.foldl_nil, named?_putNamed,
      List.reverse_append, List.reverse_singleton, List.singleton_append, List.find?_cons]
    by_cases hkey : last.1 = key
    · rw [if_pos hkey, beq_iff_eq.mpr hkey]
      rfl
    · rw [if_neg hkey, beq_eq_false_iff_ne.mpr hkey]
      exact ih

section Reading

variable {α β : Type} {name : String} {R : Value → α → Prop}

theorem map_of_forall₂ {items : List Value} {as : List α} {read : Value → β} {f : α → β}
    (h : List.Forall₂ R items as) (hread : ∀ w a, R w a → read w = f a) :
    items.map read = as.map f := by
  induction h with
  | nil => rfl
  | cons ha _ ih => rw [List.map_cons, List.map_cons, hread _ _ ha, ih]

theorem Given.map_eq {o : Option α} {read : Value → α} (h : Given v name R o)
    (hread : ∀ w a, R w a → read w = a) : (v.field? name).map read = o := by
  cases h with
  | absent hfield => rw [hfield, Option.map_none]
  | present hfield ha => rw [hfield, Option.map_some, hread _ _ ha]

end Reading

theorem textOf_of_isText {s : String} (h : IsText w s) : textOf w = s :=
  congrArg textOf h

theorem textOf_of_isName {s : String} (h : IsName w s) : textOf w = s :=
  textOf_of_isText h.1

theorem textsOf_of_isListOf {R : Value → String → Prop} {names : List String}
    (h : IsListOf R w names) (hread : ∀ w s, R w s → textOf w = s) : textsOf w = names := by
  obtain ⟨items, rfl, hitems⟩ := h
  exact (map_of_forall₂ hitems hread).trans (List.map_id' names)

theorem textsIn_of_listAt {name : String} {names : List String} (h : ListAt v name IsName names) :
    textsIn v name = names := by
  rw [textsIn]
  cases h with
  | absent hfield => rw [hfield]; rfl
  | null hfield => rw [hfield]; rfl
  | present hfield hitems =>
    rw [hfield, Option.map_some, Option.getD_some]
    exact textsOf_of_isListOf ⟨_, rfl, hitems⟩ fun _ _ => textOf_of_isName

theorem readOverrides_of_listAt {overrides : List (String × List String)}
    (h : ListAt v "EngineSpecificOverrides" IsOverride overrides) :
    readOverrides ((v.field? "EngineSpecificOverrides").getD .null) =
      ofPairs (overrides.map fun o => (Naming.toConstant o.1, o.2)) := by
  cases h with
  | absent hfield => rw [hfield]; rfl
  | null hfield => rw [hfield]; rfl
  | present hfield hitems =>
    rw [hfield, Option.getD_some, readOverrides]
    congr 1
    refine map_of_forall₂ hitems fun w o ho => ?_
    obtain ⟨name, hname, hengine⟩ := ho.engine
    rw [hname, Option.map_some, Option.getD_some, textOf_of_isName hengine,
      textsIn_of_listAt ho.modules]

theorem named?_readOverrides {overrides : List (String × List String)} (engine : String) :
    named? engine (ofPairs (overrides.map fun o => (Naming.toConstant o.1, o.2))) =
      lastFor engine overrides := by
  rw [named?_ofPairs, ← List.map_reverse, List.find?_map, lastFor, Option.map_map]
  rfl

theorem readTimeout_of_given {timeout : Option Seconds}
    (h : Given w "TimeoutSeconds" IsTime timeout)
    (hrange : ∀ time, w.field? "TimeoutSeconds" = some time → IsBinary64 time) :
    ∃ read, readTimeout w = some read ∧ Lasts timeout read := by
  rw [readTimeout]
  cases h with
  | absent hfield =>
    rw [hfield]
    exact ⟨_, rfl, .absent⟩
  | present hfield htime =>
    have hbinary := hrange _ hfield
    rw [hfield]
    cases htime with
    | whole =>
      obtain ⟨x, hx⟩ := Double.ofInt?_of_inRange (hbinary.whole _ rfl)
      exact ⟨.real x, congrArg (Option.map Seconds.real) hx, .whole hx⟩
    | real => exact ⟨_, rfl, .real⟩

theorem readModel_of_standsIn {m : ModelSheet} (h : m.StandsIn w)
    (hrange : ∀ time, w.field? "TimeoutSeconds" = some time → IsBinary64 time) :
    ∃ model, readModel w = some model ∧ m.Gives model := by
  obtain ⟨timeout, hread, hlasts⟩ := readTimeout_of_given h.timeout hrange
  have hmodels : textsIn w "Models" = m.models.getD [] := by
    rw [textsIn, h.models.map_eq fun _ _ hw => textsOf_of_isListOf hw fun _ _ => textOf_of_isName]
  refine ⟨_, congrArg (Option.map _) hread, ?_, ?_, ?_, hlasts, ?_, ?_⟩
  · rw [h.kind.map_eq fun _ _ hw => textOf_of_isText hw.1]
  · rw [h.command.map_eq fun _ _ hw => textsOf_of_isListOf hw.1 fun _ _ => textOf_of_isText]
  · rw [h.persistenceBase.map_eq fun _ _ => textOf_of_isName]
  · exact h.workingDirectory.map_eq fun _ _ => textOf_of_isText
  · rw [hmodels]
    exact isSetOf_sortedSet _

/-- Nothing is said about models where the object for them is left out. -/
theorem standsIn_null : ModelSheet.StandsIn {} .null where
  kind := .absent rfl
  command := .absent rfl
  persistenceBase := .absent rfl
  timeout := .absent rfl
  workingDirectory := .absent rfl
  models := .absent rfl

theorem readModel_of_given {model : Option ModelSheet} (h : Given v "ModelOracle" IsModel model)
    (hrange : TimeInRange v) :
    ∃ read, readModel ((v.field? "ModelOracle").getD .null) = some read ∧
      (model.getD {}).Gives read := by
  cases h with
  | absent hfield =>
    rw [hfield]
    exact readModel_of_standsIn standsIn_null fun time htime => by cases htime
  | present hfield hmodel =>
    rw [hfield]
    exact readModel_of_standsIn hmodel.standsIn fun time => hrange _ time hfield

theorem gives_of_readFrom {settings : Settings} {sheet : Sheet} (h : ReadFrom v settings)
    (hsheet : sheet.StandsIn v) (hrange : TimeInRange v) : sheet.Gives settings where
  enginesPath := by
    obtain ⟨path, hpath, hname⟩ := hsheet.enginesPath
    rw [h.enginesPath, hpath, Option.map_some, Option.getD_some, textOf_of_isName hname, closePath]
    simp only [beq_iff_eq]
  unprotected := by
    rw [h.unprotected, textsIn_of_listAt hsheet.unprotected]
    exact isSetOf_sortedSet _
  stronglyProtected := by
    rw [h.stronglyProtected, textsIn_of_listAt hsheet.stronglyProtected]
    exact isSetOf_sortedSet _
  overrides engine := by
    rw [h.overrides, readOverrides_of_listAt hsheet.overrides, named?_readOverrides]
  overridden := by
    rw [h.overrides, readOverrides_of_listAt hsheet.overrides]
    exact nodup_keys_ofPairs _
  apiPath := by
    rw [h.apiPath, hsheet.apiPath.map_eq fun _ _ hw => textOf_of_isText hw.1, defaultApiPath]
  model := by
    obtain ⟨read, hread, hgives⟩ := readModel_of_given hsheet.model hrange
    cases hread.symm.trans h.model
    exact hgives

/-! ## Settings that are documented -/

theorem ofValue_of_standsIn {document : Value} {sheet : Sheet}
    (hrange : TimeInRange (section? document)) (hsheet : sheet.StandsIn (section? document)) :
    ∃ settings, ofValue document = .ok settings := by
  have hshape := (shape_eq_none hrange).mpr ⟨sheet, hsheet⟩
  obtain ⟨fields, hobject⟩ := hsheet.object
  obtain ⟨read, hread, -⟩ := readModel_of_given hsheet.model hrange
  simp only [ofValue, hshape, hread]
  split
  · exact ⟨_, rfl⟩
  · next hnot => exact absurd hobject (hnot fields)

/-- What is refused is no object or has a fault of shape: where the shape is right, so is the
time. -/
theorem failure_of_ofValue {document : Value} {failure : Failure}
    (hrange : TimeInRange (section? document)) (h : ofValue document = .error failure) :
    (∃ typeName, failure = .notMapping none typeName) ∨ ∃ fault, failure = .invalid none fault := by
  cases hshape : shape (section? document) with
  | none =>
    obtain ⟨sheet, hsheet⟩ := (shape_eq_none hrange).mp hshape
    obtain ⟨settings, hok⟩ := ofValue_of_standsIn hrange hsheet
    cases hok.symm.trans h
  | some fault =>
    simp only [ofValue, hshape] at h
    split at h
    · cases h
      exact .inr ⟨_, rfl⟩
    · cases h
      exact .inl ⟨_, rfl⟩

/-- The settings are accepted exactly if a sheet stands in them, and are then what it gives; all
else is refused because of its shape. -/
theorem settings_documented {document : Value} (hrange : TimeInRange (section? document)) :
    ((∃ settings, ofValue document = .ok settings) ↔
        ∃ sheet : Sheet, sheet.StandsIn (section? document)) ∧
      (∀ settings (sheet : Sheet), ofValue document = .ok settings →
        sheet.StandsIn (section? document) → sheet.Gives settings) ∧
      ∀ failure, ofValue document = .error failure →
        (∃ typeName, failure = .notMapping none typeName) ∨
          ∃ fault, failure = .invalid none fault := by
  refine ⟨⟨?_, ?_⟩, ?_, fun _ => failure_of_ofValue hrange⟩
  · rintro ⟨settings, hok⟩
    exact (shape_eq_none hrange).mp (readFrom_of_ofValue hok).shape
  · rintro ⟨sheet, hsheet⟩
    exact ofValue_of_standsIn hrange hsheet
  · intro settings sheet hok hsheet
    exact gives_of_readFrom (readFrom_of_ofValue hok) hsheet hrange

/-- A document that has overrides for one engine under two spellings. -/
def twiceOverridden : Value :=
  .record
    [("EngineApiBoundary", .record
      [("EnginesPath", .text "engines"),
       ("UnprotectedEngines", .null),
       ("StronglyProtectedEngines", .texts ["ledger"]),
       ("EngineSpecificOverrides", .list
         [.record [("Engine", .text "billing_core"), ("AllowedModules", .texts ["Shop::Cart"])],
          .record [("Engine", .text "BillingCore"), ("AllowedModules", .texts ["Shop::Order"])]]),
       ("ModelOracle", .record [("Kind", .text "static"), ("TimeoutSeconds", .int 30)])])]

def twiceOverriddenSheet : Sheet where
  enginesPath := "engines"
  unprotected := []
  stronglyProtected := ["ledger"]
  overrides := [("billing_core", ["Shop::Cart"]), ("BillingCore", ["Shop::Order"])]
  apiPath := none
  model := some { kind := some "static", timeout := some (.whole 30) }

theorem standsIn_twiceOverridden :
    twiceOverriddenSheet.StandsIn (section? twiceOverridden) where
  object := ⟨_, rfl⟩
  enginesPath := ⟨_, rfl, rfl, by decide⟩
  unprotected := .null rfl
  stronglyProtected := .present rfl (.cons ⟨rfl, by decide⟩ .nil)
  overrides := .present rfl
    (.cons ⟨⟨_, rfl⟩, ⟨_, rfl, rfl, by decide⟩, .present rfl (.cons ⟨rfl, by decide⟩ .nil)⟩
      (.cons ⟨⟨_, rfl⟩, ⟨_, rfl, rfl, by decide⟩, .present rfl (.cons ⟨rfl, by decide⟩ .nil)⟩ .nil))
  apiPath := .absent rfl
  model := .present rfl
    { object := ⟨_, rfl, by simp [modelKeys]⟩
      standsIn :=
        { kind := .present rfl ⟨rfl, .inr rfl⟩
          command := .absent rfl
          persistenceBase := .absent rfl
          timeout := .present rfl (.whole (by decide))
          workingDirectory := .absent rfl
          models := .absent rfl } }

theorem timeInRange_twiceOverridden : TimeInRange (section? twiceOverridden) := by
  intro model time hmodel htime
  cases hmodel
  cases htime
  refine ⟨fun n hn => ?_, fun x hx => ?_⟩
  · cases hn
    show 30 < Double.roundingLimit 970
    decide +kernel
  · cases hx

theorem documented_twiceOverridden :
    TimeInRange (section? twiceOverridden) ∧
      ∃ settings, ofValue twiceOverridden = .ok settings ∧
        named? "BillingCore" settings.overrides = some ["Shop::Order"] := by
  obtain ⟨haccepted, hgives, -⟩ := settings_documented timeInRange_twiceOverridden
  obtain ⟨settings, hok⟩ := haccepted.mpr ⟨_, standsIn_twiceOverridden⟩
  refine ⟨timeInRange_twiceOverridden, settings, hok, ?_⟩
  rw [(hgives settings _ hok standsIn_twiceOverridden).overrides]
  decide +kernel

end Settings
end Bulkhead
