/-
What a session keeps: answers about models, and published lists with their digests.

For each store there is one lemma for each operation that says what is found in it afterwards.
-/
import Bulkhead.Session

namespace Bulkhead
namespace Persistence
namespace Memo

/-- All answers are those of the source. -/
def Agrees (m : Memo) (source : Source) : Prop :=
  ∀ name answer, m.answer? name = some answer → answer = (source name).isModel

theorem ask_of_known {m : Memo} {name : String} {answer : Bool} (source : Source)
    (h : m.answer? name = some answer) : m.ask source name = (answer, m, []) := by
  unfold ask
  rw [h]

theorem ask_of_new {m : Memo} {name : String} (source : Source) (h : m.answer? name = none) :
    (m.ask source name).1 = (source name).isModel ∧
      (m.ask source name).2.1.answers = m.answers ++ [(name, (source name).isModel)] := by
  unfold ask
  rw [h]
  exact ⟨rfl, rfl⟩

theorem answer?_of_append {m : Memo} {name : String} {answer : Bool} (made : Memo)
    (h : made.answers = m.answers ++ [(name, answer)]) (name' : String) :
    made.answer? name' =
      (m.answer? name').or (if name = name' then some answer else none) := by
  unfold answer?
  rw [h, List.find?_append]
  cases m.answers.find? fun a => a.1 == name' with
  | some found => rfl
  | none => by_cases hname : name = name' <;> simp [hname]

theorem answer?_ask_of_ne {m : Memo} {source : Source} {name name' : String} (hne : name ≠ name') :
    (m.ask source name).2.1.answer? name' = m.answer? name' := by
  cases hknown : m.answer? name with
  | some answer => rw [ask_of_known source hknown]
  | none =>
    rw [answer?_of_append _ (ask_of_new source hknown).2, if_neg hne, Option.or_none]

/-- The answer is that of the source, whether it is new or kept. -/
theorem ask_agrees {m : Memo} {source : Source} (h : m.Agrees source) (name : String) :
    (m.ask source name).1 = (source name).isModel ∧ (m.ask source name).2.1.Agrees source := by
  cases hknown : m.answer? name with
  | some answer =>
    rw [ask_of_known source hknown]
    exact ⟨h name answer hknown, h⟩
  | none =>
    obtain ⟨hanswer, hmade⟩ := ask_of_new source hknown
    refine ⟨hanswer, fun name' answer hfound => ?_⟩
    rw [answer?_of_append _ hmade] at hfound
    cases hold : m.answer? name' with
    | some answer' =>
      rw [hold] at hfound
      cases hfound
      exact h name' _ hold
    | none =>
      rw [hold, Option.none_or] at hfound
      split at hfound
      · next hname =>
        cases hfound
        rw [hname]
      · cases hfound

end Memo
end Persistence

namespace PublicApi
namespace Catalog

theorem shelved?_shelve (c : Catalog) (engine : String) (entry : Shelved) (engine' : String) :
    (c.shelve engine entry).shelved? engine' =
      if engine = engine' then some entry else c.shelved? engine' := by
  unfold shelve shelved?
  rw [List.find?_cons]
  by_cases hengine : engine = engine'
  · simp [hengine]
  · have hother : (fun s : String × Shelved =>
        decide ((s.1 != engine) = true ∧ (s.1 == engine') = true)) = fun s => s.1 == engine' := by
      funext s
      by_cases hs : s.1 = engine'
      · simp [hs, Ne.symm hengine]
      · simp [hs]
    rw [if_neg hengine, beq_false_of_ne hengine, List.find?_filter, hother]

theorem shelved?_verify (c : Catalog) (engine engine' : String) :
    (c.verify engine).shelved? engine' = c.shelved? engine' := rfl

theorem known?_eq_some {c : Catalog} {engine : String} {artifacts : Artifacts} :
    c.known? engine = some artifacts ↔
      engine ∈ c.verified ∧ ∃ kept, c.shelved? engine = some kept ∧ kept.artifacts = artifacts := by
  unfold known?
  by_cases hverified : engine ∈ c.verified
  · simp [hverified, Option.map_eq_some_iff]
  · simp [hverified]

/-- What a catalog answers about an engine that it has to go to the files for, and what it keeps.
The engine is marked as compared once its files are listed, whether or not they can then be read. -/
inductive Consults (c : Catalog) (host : Host) (engine : String) (directory : Path) :
    Except FileSystem.Failure Artifacts → Catalog → Prop where
  | unlisted {failure : FileSystem.Failure} (hlist : inventory host directory = .error failure) :
    Consults c host engine directory (.error failure) c
  | kept {files : List (Path × Int)} {kept : Shelved} (hlist : inventory host directory = .ok files)
    (hkept : c.shelved? engine = some kept) (hdigest : kept.digest = digest files) :
    Consults c host engine directory (.ok kept.artifacts) (c.verify engine)
  | unread {files : List (Path × Int)} {failure : FileSystem.Failure}
    (hlist : inventory host directory = .ok files)
    (hchanged : ∀ kept, c.shelved? engine = some kept → kept.digest ≠ digest files)
    (hread : (readArtifacts host engine directory).1 = .error failure) :
    Consults c host engine directory (.error failure) (c.verify engine)
  | read {files : List (Path × Int)} {artifacts : Artifacts}
    (hlist : inventory host directory = .ok files)
    (hchanged : ∀ kept, c.shelved? engine = some kept → kept.digest ≠ digest files)
    (hread : (readArtifacts host engine directory).1 = .ok artifacts) :
    Consults c host engine directory (.ok artifacts)
      ((c.verify engine).shelve engine ⟨digest files, artifacts⟩)

theorem consults_consult {c : Catalog} (host : Host) {engine : String} (directory : Path)
    (h : c.known? engine = none) :
    Consults c host engine directory (c.consult host engine directory).1
      (c.consult host engine directory).2.1 := by
  unfold consult
  rw [h]
  cases hlist : inventory host directory with
  | error failure => exact .unlisted hlist
  | ok files =>
    dsimp only
    split
    · next kept hfound =>
      obtain ⟨hkept, hdigest⟩ := Option.filter_eq_some_iff.mp hfound
      exact .kept hlist hkept (of_decide_eq_true hdigest)
    · next hnone =>
      have hchanged : ∀ kept, c.shelved? engine = some kept → kept.digest ≠ digest files := by
        intro kept hkept hdigest
        rw [hkept, Option.filter_some, if_pos (decide_eq_true hdigest)] at hnone
        cases hnone
      split
      · next failure notes hread => exact .unread hlist hchanged (by rw [hread])
      · next artifacts notes hread => exact .read hlist hchanged (by rw [hread])

namespace Consults

variable {c made : Catalog} {host : Host} {engine : String} {directory : Path}
  {outcome : Except FileSystem.Failure Artifacts}

theorem place (h : Consults c host engine directory outcome made) :
    made.enginesDirectory = c.enginesDirectory ∧ made.apiPath = c.apiPath := by
  cases h <;> exact ⟨rfl, rfl⟩

theorem shelved?_of_ne (h : Consults c host engine directory outcome made) {engine' : String}
    (hne : engine ≠ engine') : made.shelved? engine' = c.shelved? engine' := by
  cases h with
  | unlisted | kept | unread => rfl
  | read => rw [shelved?_shelve, if_neg hne, shelved?_verify]

theorem mem_verified_of_ne (h : Consults c host engine directory outcome made) {engine' : String}
    (hne : engine ≠ engine') : engine' ∈ made.verified ↔ engine' ∈ c.verified := by
  have hmarked : engine' ∈ (c.verify engine).verified ↔ engine' ∈ c.verified := by
    simp [verify, Ne.symm hne]
  cases h with
  | unlisted => rfl
  | kept | unread | read => exact hmarked

theorem known?_of_ne (h : Consults c host engine directory outcome made) {engine' : String}
    (hne : engine ≠ engine') : made.known? engine' = c.known? engine' := by
  have hverified : made.verified.contains engine' = c.verified.contains engine' := by
    rw [Bool.eq_iff_iff, List.contains_iff_mem, List.contains_iff_mem]
    exact h.mem_verified_of_ne hne
  rw [known?, known?, hverified, h.shelved?_of_ne hne]

/-- What is answered is known from then on. -/
theorem known? {artifacts : Artifacts} (h : Consults c host engine directory (.ok artifacts) made) :
    made.known? engine = some artifacts := by
  cases h with
  | kept hlist hkept hdigest => exact known?_eq_some.mpr ⟨List.mem_cons_self, _, hkept, rfl⟩
  | @read files artifacts hlist hchanged hread =>
    refine known?_eq_some.mpr ⟨List.mem_cons_self, ⟨digest files, artifacts⟩, ?_, rfl⟩
    rw [shelved?_shelve, if_pos rfl]

end Consults

end Catalog
end PublicApi

/-! ## Runs in a session -/

namespace Session

variable {α β : Type}

theorem run_get_bind (f : Session → Work α) (s : Session) :
    (ExceptT.run (get >>= f)).run s = (f s).run.run s := rfl

theorem run_steady_bind (x : Steady α) (f : α → Work β) (s : Session) :
    (ExceptT.run (liftM x >>= f)).run s = (f (x.run s).1).run.run (x.run s).2 := rfl

theorem run_bind_of_ok {x : Work α} {a : α} {s s' : Session} (f : α → Work β)
    (h : x.run.run s = (.ok a, s')) : (x >>= f).run.run s = (f a).run.run s' := by
  rw [ExceptT.run_bind, StateT.run_bind, h]
  rfl

theorem run_bind_of_error {x : Work α} {failure : Failure} {s s' : Session} (f : α → Work β)
    (h : x.run.run s = (.error failure, s')) : (x >>= f).run.run s = (.error failure, s') := by
  rw [ExceptT.run_bind, StateT.run_bind, h]
  rfl

end Session
end Bulkhead
