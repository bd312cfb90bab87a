/-
What is known of settings that were accepted.

`ReadFrom` says where each part of accepted settings comes from: from the object that holds them,
once its shape has been checked.
-/
import Bulkhead.Settings.Basic

namespace Bulkhead
namespace Settings

/-- The settings are what stands in an object of the right shape. -/
structure ReadFrom (v : Value) (settings : Settings) : Prop where
  shape : shape v = none
  model : readModel ((v.field? "ModelOracle").getD .null) = some settings.model
  enginesPath : settings.enginesPath = closePath (((v.field? "EnginesPath").map textOf).getD "")
  unprotected : settings.unprotected = constants (textsIn v "UnprotectedEngines")
  stronglyProtected : settings.stronglyProtected = constants (textsIn v "StronglyProtectedEngines")
  overrides : settings.overrides =
    readOverrides ((v.field? "EngineSpecificOverrides").getD .null)
  apiPath : settings.apiPath = ((v.field? "ApiPath").map textOf).getD defaultApiPath

theorem readFrom_of_ofValue {document : Value} {settings : Settings}
    (h : ofValue document = .ok settings) : ReadFrom (section? document) settings := by
  simp only [ofValue] at h
  split at h
  · split at h
    · cases h
    · next hshape =>
      split at h
      · cases h
      · next model hmodel =>
        cases h
        exact ⟨hshape, hmodel, rfl, rfl, rfl, rfl, rfl⟩
  · cases h

/-! ## Checks that found nothing -/

namespace Check

theorem every_eq_none {checks : List Check} {v : Value} :
    every checks v = none ↔ ∀ check ∈ checks, check v = none := by
  rw [every, List.findSome?_eq_none_iff]

theorem field_eq_none {name : String} {check : Check} {v : Value} :
    field name check v = none ↔ ∀ inner, v.field? name = some inner → check inner = none := by
  rw [field]
  cases v.field? name with
  | none => simp
  | some inner => simp

theorem isList_eq_none {v : Value} : isList v = none ↔ ∃ items, v = .list items := by
  cases v <;> simp [isList, fail]

end Check

/-- A command is never empty: one that is given has a part, and the one that is taken otherwise has
three. -/
theorem command_of_readFrom {v : Value} {settings : Settings} (h : ReadFrom v settings) :
    settings.model.command ≠ [] := by
  have hmodel := h.model
  rw [readModel] at hmodel
  obtain ⟨timeout, -, hmodel⟩ := Option.map_eq_some_iff.mp hmodel
  rw [← hmodel]
  cases hfield : v.field? "ModelOracle" with
  | none => exact List.cons_ne_nil _ _
  | some model =>
    have hshape : modelShape model = none :=
      Check.field_eq_none.mp (Check.every_eq_none.mp h.shape _ (by simp)) model hfield
    rw [Option.getD_some]
    cases hcommand : model.field? "Command" with
    | none => exact List.cons_ne_nil _ _
    | some command =>
      have hgiven : Check.every [Check.isList, Check.notEmpty, Check.items Check.isText] command =
          none :=
        Check.field_eq_none.mp (Check.every_eq_none.mp hshape _ (by simp)) command hcommand
      have hparts := Check.every_eq_none.mp hgiven
      obtain ⟨items, rfl⟩ := Check.isList_eq_none.mp (hparts Check.isList (by simp))
      have hfilled := hparts Check.notEmpty (by simp)
      cases items with
      | nil => cases hfilled
      | cons item rest => exact List.cons_ne_nil _ _

end Settings
end Bulkhead
