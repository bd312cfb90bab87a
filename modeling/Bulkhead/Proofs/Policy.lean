/-
The policy as conditions.

Which engines are protected depends only on the names of the directories there are and on the names
that are taken out.  Whether a reach is allowed is one of three conditions: it stays in its engine,
an override lifts the rules for it, or neither side is strongly protected and the engine lists it.
-/
import Mathlib.Data.List.Dedup
import Bulkhead.Verdict

namespace Bulkhead

/-! ## Protected engines -/

theorem mem_sortedSet {name : String} {names : List String} :
    name ∈ sortedSet names ↔ name ∈ names := by
  rw [sortedSet, List.mem_eraseDups, List.mem_mergeSort]

theorem mem_keys_putNamed {α : Type} {key name : String} {value : α} {made : List (String × α)} :
    key ∈ (putNamed name value made).map Prod.fst ↔ key = name ∨ key ∈ made.map Prod.fst := by
  induction made with
  | nil => simp [putNamed]
  | cons pair rest ih =>
    obtain ⟨first, old⟩ := pair
    rw [putNamed]
    by_cases hfirst : first = name
    · rw [if_pos hfirst]
      simp [hfirst]
    · rw [if_neg hfirst, List.map_cons, List.mem_cons, ih, List.map_cons, List.mem_cons]
      exact or_left_comm

theorem mem_keys_ofPairs {α : Type} {key : String} {pairs : List (String × α)} :
    key ∈ (ofPairs pairs).map Prod.fst ↔ key ∈ pairs.map Prod.fst := by
  have hfold (made : List (String × α)) :
      key ∈ (pairs.foldl (fun made pair => putNamed pair.1 pair.2 made) made).map Prod.fst ↔
        key ∈ made.map Prod.fst ∨ key ∈ pairs.map Prod.fst := by
    induction pairs generalizing made with
    | nil => simp
    | cons pair rest ih =>
      rw [List.foldl_cons, ih, mem_keys_putNamed, List.map_cons, List.mem_cons, or_assoc]
      exact or_left_comm
  rw [ofPairs, hfold []]
  simp

theorem mem_putNamed {α : Type} {pair : String × α} {name : String} {value : α}
    {made : List (String × α)} (h : pair ∈ putNamed name value made) :
    pair = (name, value) ∨ pair ∈ made := by
  induction made with
  | nil => exact .inl (List.mem_singleton.mp h)
  | cons first rest ih =>
    obtain ⟨key, old⟩ := first
    rw [putNamed] at h
    by_cases hkey : key = name
    · rw [if_pos hkey, hkey, List.mem_cons] at h
      exact h.imp_right (List.mem_cons_of_mem _)
    · rw [if_neg hkey, List.mem_cons] at h
      rcases h with h | h
      · exact .inr (h ▸ List.mem_cons_self)
      · exact (ih h).imp_right (List.mem_cons_of_mem _)

theorem mem_ofPairs {α : Type} {pair : String × α} {pairs : List (String × α)}
    (h : pair ∈ ofPairs pairs) : pair ∈ pairs := by
  have hfold (pairs made : List (String × α))
      (h : pair ∈ pairs.foldl (fun made pair => putNamed pair.1 pair.2 made) made) :
      pair ∈ made ∨ pair ∈ pairs := by
    induction pairs generalizing made with
    | nil => exact .inl h
    | cons first rest ih =>
      rcases ih _ h with h | h
      · exact (mem_putNamed h).elim (fun h => .inr (h ▸ List.mem_cons_self)) .inl
      · exact .inr (List.mem_cons_of_mem _ h)
  exact (hfold pairs [] h).resolve_left List.not_mem_nil

theorem named?_of_mem {α : Type} {name : String} {made : List (String × α)}
    (h : name ∈ made.map Prod.fst) :
    ∃ value, named? name made = some value ∧ (name, value) ∈ made := by
  induction made with
  | nil => cases h
  | cons pair rest ih =>
    obtain ⟨key, value⟩ := pair
    rw [named?]
    by_cases hkey : key = name
    · rw [if_pos hkey]
      exact ⟨value, rfl, hkey ▸ List.mem_cons_self⟩
    · rw [if_neg hkey]
      rw [List.map_cons, List.mem_cons] at h
      obtain ⟨value', hvalue, hmem⟩ := ih (h.resolve_left (Ne.symm hkey))
      exact ⟨value', hvalue, List.mem_cons_of_mem _ hmem⟩

theorem mem_of_named? {α : Type} {name : String} {value : α} {made : List (String × α)}
    (h : named? name made = some value) : (name, value) ∈ made := by
  induction made with
  | nil => cases h
  | cons pair rest ih =>
    obtain ⟨key, first⟩ := pair
    rw [named?] at h
    by_cases hkey : key = name
    · rw [if_pos hkey] at h
      rw [← hkey, Option.some.inj h]
      exact List.mem_cons_self
    · rw [if_neg hkey] at h
      exact List.mem_cons_of_mem _ (ih h)

theorem named?_putNamed {α : Type} (key name : String) (value : α) (made : List (String × α)) :
    named? name (putNamed key value made) =
      if key = name then some value else named? name made := by
  induction made with
  | nil => rfl
  | cons first rest ih =>
    obtain ⟨key', old⟩ := first
    rw [putNamed]
    by_cases hkey : key' = key
    · subst hkey
      rw [if_pos rfl, named?, named?]
      split <;> rfl
    · rw [if_neg hkey, named?, ih, named?]
      by_cases hname : key' = name
      · rw [if_pos hname, if_neg (hname ▸ Ne.symm hkey), if_pos hname]
      · rw [if_neg hname, if_neg hname]

theorem pairwise_sorted (names : List String) :
    (names.mergeSort fun a b => decide (a ≤ b)).Pairwise (· ≤ ·) := by
  have hpairs : (names.mergeSort fun a b => decide (a ≤ b)).Pairwise
      fun a b => decide (a ≤ b) = true := by
    apply List.pairwise_mergeSort
    · intro a b c hab hbc
      exact decide_eq_true (String.le_trans (of_decide_eq_true hab) (of_decide_eq_true hbc))
    · intro a b
      simpa using String.le_total a b
  exact hpairs.imp of_decide_eq_true

/-- Without its repetitions a list is a part of itself in which nothing stands twice. -/
theorem eraseDups_sublist (l : List String) : l.eraseDups.Sublist l ∧ l.eraseDups.Nodup := by
  induction hlength : l.length using Nat.strongRecOn generalizing l with
  | ind length ih =>
    cases l with
    | nil => exact ⟨List.Sublist.refl _, List.nodup_nil⟩
    | cons a rest =>
      have hshorter : (rest.filter fun b => !b == a).length < length := by
        rw [← hlength, List.length_cons]
        exact Nat.lt_succ_of_le (List.length_filter_le _ _)
      obtain ⟨hsublist, hnodup⟩ := ih _ hshorter _ rfl
      rw [List.eraseDups_cons]
      refine ⟨(hsublist.trans List.filter_sublist).cons_cons a, List.nodup_cons.mpr ⟨?_, hnodup⟩⟩
      rw [List.mem_eraseDups, List.mem_filter]
      simp

/-- A set of names has one list. -/
theorem sortedSet_congr {names₁ names₂ : List String}
    (h : ∀ name, name ∈ names₁ ↔ name ∈ names₂) : sortedSet names₁ = sortedSet names₂ := by
  refine List.Perm.eq_of_pairwise (fun a b _ _ => String.le_antisymm)
    ((pairwise_sorted names₁).sublist (eraseDups_sublist _).1)
    ((pairwise_sorted names₂).sublist (eraseDups_sublist _).1) ?_
  refine (List.perm_ext_iff_of_nodup (eraseDups_sublist _).2 (eraseDups_sublist _).2).mpr ?_
  exact fun name => mem_sortedSet.trans ((h name).trans mem_sortedSet.symm)

theorem putNamed_of_new {α : Type} {name : String} {made : List (String × α)}
    (h : name ∉ made.map Prod.fst) (value : α) :
    putNamed name value made = made ++ [(name, value)] := by
  induction made with
  | nil => rfl
  | cons pair rest ih =>
    obtain ⟨key, old⟩ := pair
    rw [List.map_cons, List.mem_cons, not_or] at h
    rw [putNamed, if_neg (Ne.symm h.1), ih h.2, List.cons_append]

theorem nodup_keys_putNamed {α : Type} {name : String} {value : α} {made : List (String × α)}
    (h : (made.map Prod.fst).Nodup) : ((putNamed name value made).map Prod.fst).Nodup := by
  induction made with
  | nil => simp [putNamed]
  | cons pair rest ih =>
    obtain ⟨key, old⟩ := pair
    rw [List.map_cons, List.nodup_cons] at h
    rw [putNamed]
    by_cases hkey : key = name
    · rw [if_pos hkey]
      exact List.nodup_cons.mpr h
    · rw [if_neg hkey, List.map_cons, List.nodup_cons, mem_keys_putNamed, not_or]
      exact ⟨⟨hkey, h.1⟩, ih h.2⟩

theorem nodup_keys_ofPairs {α : Type} (pairs : List (String × α)) :
    ((ofPairs pairs).map Prod.fst).Nodup := by
  have hfold (made : List (String × α)) (h : (made.map Prod.fst).Nodup) :
      ((pairs.foldl (fun made pair => putNamed pair.1 pair.2 made) made).map Prod.fst).Nodup := by
    induction pairs generalizing made with
    | nil => exact h
    | cons pair rest ih => exact ih _ (nodup_keys_putNamed h)
  exact hfold [] List.nodup_nil

/-- Nothing is replaced where no name stands twice. -/
theorem ofPairs_of_nodup {α : Type} {pairs : List (String × α)}
    (h : (pairs.map Prod.fst).Nodup) : ofPairs pairs = pairs := by
  have hfold (pairs made : List (String × α)) (h : ((made ++ pairs).map Prod.fst).Nodup) :
      pairs.foldl (fun made pair => putNamed pair.1 pair.2 made) made = made ++ pairs := by
    induction pairs generalizing made with
    | nil => exact (List.append_nil made).symm
    | cons pair rest ih =>
      have hnew : pair.1 ∉ made.map Prod.fst := by
        intro hmem
        rw [List.map_append, List.nodup_append] at h
        exact h.2.2 pair.1 hmem pair.1 List.mem_cons_self rfl
      rw [List.append_cons] at h ⊢
      rw [List.foldl_cons, putNamed_of_new hnew, ih _ h]
  exact hfold pairs [] h

/-- The later of two values of a name counts. -/
theorem putNamed_putNamed {α : Type} (name : String) (former value : α)
    (made : List (String × α)) :
    putNamed name value (putNamed name former made) = putNamed name value made := by
  induction made with
  | nil => simp [putNamed]
  | cons pair rest ih =>
    obtain ⟨first, old⟩ := pair
    by_cases hfirst : first = name
    · simp [putNamed, hfirst]
    · simp [putNamed, hfirst, ih]

/-- In an ordered list repeated names stand side by side; so they do not matter. -/
theorem ofPairs_dedup {α : Type} (f : String → String × α) {names : List String}
    (hsorted : names.Pairwise (· ≤ ·)) : ofPairs (names.dedup.map f) = ofPairs (names.map f) := by
  have hfold (made : List (String × α)) :
      (names.dedup.map f).foldl (fun made pair => putNamed pair.1 pair.2 made) made =
        (names.map f).foldl (fun made pair => putNamed pair.1 pair.2 made) made := by
    induction names generalizing made with
    | nil => rfl
    | cons a rest ih =>
      obtain ⟨hfirst, hrest⟩ := List.pairwise_cons.mp hsorted
      by_cases ha : a ∈ rest
      · rw [List.dedup_cons_of_mem ha, ih hrest]
        cases rest with
        | nil => cases ha
        | cons b tail =>
          have hb : b ≤ a := by
            rcases List.mem_cons.mp ha with rfl | ha
            · exact String.le_refl _
            · exact (List.pairwise_cons.mp hrest).1 a ha
          obtain rfl : a = b := String.le_antisymm (hfirst b List.mem_cons_self) hb
          simp only [List.map_cons, List.foldl_cons, putNamed_putNamed]
      · rw [List.dedup_cons_of_notMem ha, List.map_cons, List.map_cons, List.foldl_cons,
          List.foldl_cons, ih hrest]
  exact hfold []

namespace Protection

theorem byDirectory_congr {names₁ names₂ : List String}
    (h : ∀ name, name ∈ names₁ ↔ name ∈ names₂) : byDirectory names₁ = byDirectory names₂ := by
  have hdedup : (names₁.mergeSort fun a b => decide (a ≤ b)).dedup =
      (names₂.mergeSort fun a b => decide (a ≤ b)).dedup := by
    refine List.Perm.eq_of_pairwise (fun a b _ _ => String.le_antisymm)
      ((pairwise_sorted names₁).sublist (List.dedup_sublist _))
      ((pairwise_sorted names₂).sublist (List.dedup_sublist _)) ?_
    rw [List.perm_ext_iff_of_nodup (List.nodup_dedup _) (List.nodup_dedup _)]
    intro name
    rw [List.mem_dedup, List.mem_dedup, List.mem_mergeSort, List.mem_mergeSort, h]
  rw [byDirectory, byDirectory, ← ofPairs_dedup _ (pairwise_sorted names₁), hdedup,
    ofPairs_dedup _ (pairwise_sorted names₂)]

/-- Which engine owns a file depends on the path of the engines only. -/
theorem ownerOf_congr {p q : Protection} (h : p.settings.enginesPath = q.settings.enginesPath)
    (file : String) : p.ownerOf file = q.ownerOf file := by
  rw [ownerOf, ownerOf, h]

/-- The names of the directories that the engines directory holds; none if it cannot be listed. -/
def directoryNames (p : Protection) (fs : FileSystem) : List String :=
  (fs.directories p.enginesDirectory).toOption.getD []

theorem survey_fst (p : Protection) (fs : FileSystem) :
    (p.survey fs).1 = byDirectory (p.directoryNames fs) := by
  rw [survey, Host.directories_clear, directoryNames]
  cases fs.directories p.enginesDirectory with
  | ok names => rfl
  | error failure => simp [Except.toOption, byDirectory, ofPairs]

/-- The engines depend on the names in the engines directory only. -/
theorem survey_congr {p : Protection} {fs₁ fs₂ : FileSystem}
    (h : ∀ name, name ∈ p.directoryNames fs₁ ↔ name ∈ p.directoryNames fs₂) :
    (p.survey fs₁).1 = (p.survey fs₂).1 := by
  rw [survey_fst, survey_fst, byDirectory_congr h]

theorem mem_survey {p : Protection} {fs : FileSystem} {engine : String} :
    engine ∈ (p.survey fs).1.map Prod.fst ↔
      ∃ name ∈ p.directoryNames fs, Naming.toConstant name = engine := by
  rw [survey_fst, byDirectory, mem_keys_ofPairs, List.map_map, List.mem_map]
  simp only [List.mem_mergeSort, Function.comp]

/-- An engine has the directory that it was found in. -/
theorem directory_of_byDirectory {names : List String} {engine : String}
    (h : engine ∈ (byDirectory names).map Prod.fst) :
    ∃ name ∈ names, named? engine (byDirectory names) = some name ∧
      Naming.toConstant name = engine := by
  obtain ⟨name, hnamed, hmem⟩ := named?_of_mem h
  obtain ⟨name', hname', hpair⟩ := List.mem_map.mp (mem_ofPairs hmem)
  obtain ⟨hengine, rfl⟩ := Prod.mk.inj hpair
  exact ⟨name', List.mem_mergeSort.mp hname', hnamed, hengine⟩

theorem directory_of_engine {p : Protection} {fs : FileSystem} {engine : String}
    (h : engine ∈ (p.survey fs).1.map Prod.fst) :
    ∃ name ∈ p.directoryNames fs, named? engine (p.survey fs).1 = some name ∧
      Naming.toConstant name = engine := by
  rw [survey_fst] at h ⊢
  exact directory_of_byDirectory h

theorem mem_protectedEngines {p : Protection} {fs : FileSystem} {engine : String} :
    engine ∈ p.protectedEngines (p.survey fs).1 ↔
      (∃ name ∈ p.directoryNames fs, Naming.toConstant name = engine) ∧
        engine ∉ p.unprotected := by
  rw [protectedEngines, mem_sortedSet, List.mem_filter, mem_survey]
  simp

end Protection

/-! ## Verdicts -/

/-- The overrides of the current engine name what is reached. -/
def Overridden (p : Protection) (r : Reach) (current : Option String) : Prop :=
  ∃ name ∈ r.engine :: r.lineage, name ∈ (p.overridesFor current).getD []

/-- One of the two sides is strongly protected. -/
def StronglyProtected (p : Protection) (r : Reach) (current : Option String) : Prop :=
  p.isStrong current = true ∨ p.isStrong (some r.engine) = true

/-- What the engine publishes lets the reach through. -/
def Listed (a : PublicApi.Artifacts) (r : Reach) (file : String) : Prop :=
  (∃ entry ∈ a.legacyDependents,
      (!entry.isEmpty && Text.occursIn entry.toList file.toList) = true) ∨
    r.throughApi = true ∨ ∃ name ∈ r.lineage, name ∈ a.allowlist

namespace Verdict

theorem overriding?_isSome {p : Protection} {r : Reach} {current : Option String} :
    (overriding? p r current).isSome = true ↔ Overridden p r current := by
  rw [overriding?, List.find?_isSome, Overridden]
  simp only [List.contains_iff_mem]

/-- The verdict that needs no published lists lets through what stays in its engine and what is
overridden. -/
theorem allowed_of_byPolicy {p : Protection} {r : Reach} {current : Option String} {v : Verdict}
    (h : byPolicy p r current = some v) :
    v.allowed = true ↔ current = some r.engine ∨ Overridden p r current := by
  rw [← overriding?_isSome]
  rw [byPolicy] at h
  by_cases hsame : current = some r.engine
  · rw [if_pos hsame] at h
    cases h
    simp [hsame, allowed, Reason.allows]
  · rw [if_neg hsame] at h
    cases hname : overriding? p r current with
    | some name =>
      rw [hname] at h
      cases h
      simp [allowed, Reason.allows]
    | none =>
      rw [hname] at h
      simp only at h
      split at h
      · cases h
        simp [hsame, allowed, Reason.allows]
      · split at h
        · cases h
          simp [hsame, allowed, Reason.allows]
        · cases h

/-- The published lists are needed only if nothing else decides. -/
theorem byPolicy_eq_none {p : Protection} {r : Reach} {current : Option String} :
    byPolicy p r current = none ↔
      current ≠ some r.engine ∧ ¬Overridden p r current ∧ ¬StronglyProtected p r current := by
  rw [← overriding?_isSome, StronglyProtected, byPolicy]
  by_cases hsame : current = some r.engine
  · simp [hsame]
  · rw [if_neg hsame]
    cases overriding? p r current with
    | some name => simp
    | none =>
      cases hcurrent : p.isStrong current <;> cases haccessed : p.isStrong (some r.engine) <;>
        simp [hsame]

theorem decided_of_byPolicy {p : Protection} {r : Reach} {current : Option String} {v : Verdict}
    (h : byPolicy p r current = some v) :
    current = some r.engine ∨ Overridden p r current ∨ StronglyProtected p r current := by
  refine Classical.byContradiction fun hnot => ?_
  obtain ⟨hother, hnot⟩ := not_or.mp hnot
  rw [byPolicy_eq_none.mpr ⟨hother, not_or.mp hnot⟩] at h
  cases h

theorem allowed_byArtifacts {a : PublicApi.Artifacts} {r : Reach} {file : String} :
    (byArtifacts a r file).allowed = true ↔ Listed a r file := by
  have hlegacy : ( legacyEntry? a file).isSome = true ↔
      ∃ entry ∈ a.legacyDependents,
        (!entry.isEmpty && Text.occursIn entry.toList file.toList) = true := by
    rw [ legacyEntry?, List.find?_isSome]
  have hallow : (r.lineage.find? a.allowlist.contains).isSome = true ↔
      ∃ name ∈ r.lineage, name ∈ a.allowlist := by
    rw [List.find?_isSome]
    simp only [List.contains_iff_mem]
  rw [Listed, ← hlegacy, ← hallow, byArtifacts]
  cases legacyEntry? a file with
  | some entry => simp [allowed, Reason.allows]
  | none =>
    cases r.throughApi with
    | true => simp [allowed, Reason.allows]
    | false =>
      cases r.lineage.find? a.allowlist.contains with
      | some name => simp [allowed, Reason.allows]
      | none => simp [allowed, Reason.allows]

end Verdict
end Bulkhead
