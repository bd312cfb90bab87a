/-
Is a reach into an engine allowed?

The rules are tried in a fixed order: the same engine; an override; strong protection of either
side; and then what the engine publishes.
-/
import Bulkhead.Crossing
import Bulkhead.PublicApi.Catalog

namespace Bulkhead

inductive Reason where
  | sameEngine
  | override
  | stronglyProtectedCurrent
  | stronglyProtectedAccessed
  | legacyDependent
  | throughApi
  | allowlisted
  | noApiAccess
deriving DecidableEq, Repr

namespace Reason

def name : Reason → String
  | .sameEngine => "same_engine"
  | .override => "override"
  | .stronglyProtectedCurrent => "strongly_protected_current"
  | .stronglyProtectedAccessed => "strongly_protected_accessed"
  | .legacyDependent => "legacy_dependent"
  | .throughApi => "through_api"
  | .allowlisted => "allowlisted"
  | .noApiAccess => "no_api_access"

def allows : Reason → Bool
  | .sameEngine | .override | .legacyDependent | .throughApi | .allowlisted => true
  | .stronglyProtectedCurrent | .stronglyProtectedAccessed | .noApiAccess => false

end Reason

/-- The rule that decided, and the entry or name that it found. -/
structure Verdict where
  reason : Reason
  matched : Option String := none
deriving DecidableEq, Repr

namespace Verdict

def allowed (v : Verdict) : Bool :=
  v.reason.allows

/-- The name in the overrides of the current engine that lifts all other rules. -/
def overriding? (p : Protection) (r : Reach) (current : Option String) : Option String :=
  let modules := (p.overridesFor current).getD []
  (r.engine :: r.lineage).find? modules.contains

/-- The verdict that does not need what the engine publishes. -/
def byPolicy (p : Protection) (r : Reach) (current : Option String) : Option Verdict :=
  if current = some r.engine then some ⟨.sameEngine, none⟩
  else
    match overriding? p r current with
    | some name => some ⟨.override, some name⟩
    | none =>
      if p.isStrong current then some ⟨.stronglyProtectedCurrent, none⟩
      else if p.isStrong (some r.engine) then some ⟨.stronglyProtectedAccessed, none⟩
      else none

/-- The entry of the legacy dependents that the path of the file holds. -/
def legacyEntry? (a : PublicApi.Artifacts) (file : String) : Option String :=
  a.legacyDependents.find? fun entry =>
    !entry.isEmpty && Text.occursIn entry.toList file.toList

/-- The verdict by what the engine publishes. -/
def byArtifacts (a : PublicApi.Artifacts) (r : Reach) (file : String) : Verdict :=
  match legacyEntry? a file with
  | some entry => ⟨.legacyDependent, some entry⟩
  | none =>
    if r.throughApi then ⟨.throughApi, none⟩
    else
      match r.lineage.find? a.allowlist.contains with
      | some name => ⟨.allowlisted, some name⟩
      | none => ⟨.noApiAccess, none⟩

end Verdict
end Bulkhead
