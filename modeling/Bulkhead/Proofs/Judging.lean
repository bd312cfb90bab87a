/-
What an inspection decides without asking about models.

Which references a file has and what the verdict on each is depends on the engines and on what they
publish, not on the source of answers about models or on what it has answered.  An operation is
`Blind` if it runs alike with all of that taken out of the session, and leaves it as it is.
`judgements` goes through a file by such operations only; it is an inspection up to the question
whether a refused constant is a model.
-/
import Bulkhead.Inspection
import Bulkhead.Proofs.Kept
import Bulkhead.Proofs.PublishedFiles

namespace Bulkhead

namespace Session

/-- The session without what it was told about models and what it has noted. -/
def core (s : Session) : Session where
  protection := s.protection
  catalog := s.catalog
  source := fun _ => { isModel := false }
  engines := s.engines
  protectedEngines := s.protectedEngines

/-- A session after another, in which nothing was asked. -/
structure Keeps (s s' : Session) : Prop where
  protection : s'.protection = s.protection
  source : s'.source = s.source
  memo : s'.memo = s.memo

theorem Keeps.trans {s₁ s₂ s₃ : Session} (h₁ : Keeps s₁ s₂) (h₂ : Keeps s₂ s₃) : Keeps s₁ s₃ :=
  ⟨h₂.protection.trans h₁.protection, h₂.source.trans h₁.source, h₂.memo.trans h₁.memo⟩

end Session

/-- What is known about models makes no difference to the work, and stays what it is. -/
def Blind {α : Type} (x : Steady α) : Prop :=
  ∀ s, (x.run s).1 = (x.run s.core).1 ∧ (x.run s).2.core = (x.run s.core).2.core ∧
    s.Keeps (x.run s).2

namespace Blind

variable {α β : Type}

theorem of_pure (a : α) : Blind (pure a) :=
  fun _ => ⟨rfl, rfl, rfl, rfl, rfl⟩

theorem of_bind {x : Steady α} {f : α → Steady β} (hx : Blind x) (hf : ∀ a, Blind (f a)) :
    Blind (x >>= f) := by
  intro s
  obtain ⟨hanswer, hcore, hkeeps⟩ := hx s
  obtain ⟨hfirst, hfirst', hkeeps'⟩ := hf (x.run s).1 (x.run s).2
  obtain ⟨hsecond, hsecond', -⟩ := hf (x.run s).1 (x.run s.core).2
  rw [hcore, ← hsecond] at hfirst
  rw [hcore, ← hsecond'] at hfirst'
  rw [StateT.run_bind, StateT.run_bind]
  refine ⟨hfirst.trans ?_, hfirst'.trans ?_, hkeeps.trans hkeeps'⟩
  · rw [hanswer]
    rfl
  · rw [hanswer]
    rfl

/-- The session may be read as far as its core goes. -/
theorem of_get {f : Session → Steady β} (hcore : ∀ s, f s = f s.core) (hf : ∀ s, Blind (f s)) :
    Blind (get >>= f) := by
  intro s
  obtain ⟨hanswer, hsession, hkeeps⟩ := hf s s
  have hsame : StateT.run (f s) s.core = StateT.run (get >>= f) s.core := by
    rw [hcore s]
    rfl
  rw [hsame] at hanswer hsession
  exact ⟨hanswer, hsession, hkeeps⟩

theorem of_modify {f : Session → Session} (hcore : ∀ s, (f s).core = (f s.core).core)
    (hkeeps : ∀ s : Session, s.Keeps (f s)) : Blind (modify f) :=
  fun s => ⟨rfl, hcore s, hkeeps s⟩

theorem of_lift {x : Steady α} (hx : Blind x) : Blind (ExceptT.run (liftM x : Work α)) :=
  fun s => ⟨congrArg Except.ok (hx s).1, (hx s).2⟩

theorem of_work {x : Work α} {f : α → Work β} (hx : Blind x.run) (hf : ∀ a, Blind (f a).run) :
    Blind (x >>= f).run := by
  rw [ExceptT.run_bind]
  refine of_bind hx fun r => ?_
  cases r with
  | ok a => exact hf a
  | error failure => exact of_pure _

theorem of_steady {x : Steady α} {f : α → Work β} (hx : Blind x) (hf : ∀ a, Blind (f a).run) :
    Blind (ExceptT.run ((liftM x : Work α) >>= f)) :=
  of_work (of_lift hx) hf

theorem of_work_get {f : Session → Work β} (hcore : ∀ s, f s = f s.core)
    (hf : ∀ s, Blind (f s).run) : Blind (ExceptT.run (get >>= f)) := by
  have h : Blind (get >>= fun s => (f s).run) :=
    of_get (fun s => congrArg ExceptT.run (hcore s)) hf
  exact h

/-- Sessions that differ in what they know about models only stay so. -/
theorem congr {x : Steady α} (h : Blind x) {s s' : Session} (hcore : s.core = s'.core) :
    (x.run s).1 = (x.run s').1 ∧ (x.run s).2.core = (x.run s').2.core := by
  obtain ⟨hanswer, hsession, -⟩ := h s
  obtain ⟨hanswer', hsession', -⟩ := h s'
  rw [hanswer, hsession, hanswer', hsession', hcore]
  exact ⟨rfl, rfl⟩

end Blind

/-! ## The operations -/

section Operations

variable (host : Host)

theorem blind_write (notes : List Note) : Blind (Session.write notes) :=
  .of_modify (fun _ => rfl) fun _ => ⟨rfl, rfl, rfl⟩

theorem blind_emit (e : Audit.Event) : Blind (Session.emit e) := by
  refine .of_modify (fun s => ?_) fun s => ?_
  · cases htrail : s.trail with
    | none => rfl
    | some trail => rfl
  · cases htrail : s.trail with
    | none => exact ⟨rfl, rfl, rfl⟩
    | some trail => exact ⟨rfl, rfl, rfl⟩

theorem blind_revalidate : Blind Session.revalidate :=
  .of_modify (fun _ => rfl) fun _ => ⟨rfl, rfl, rfl⟩

theorem blind_allEngines : Blind (Session.allEngines host) := by
  rintro ⟨protection, catalog, source, engines, guarded, memo, trail, journal⟩
  cases engines with
  | some engines => exact ⟨rfl, rfl, rfl, rfl, rfl⟩
  | none => exact ⟨rfl, rfl, rfl, rfl, rfl⟩

theorem blind_guarded : Blind (Session.guarded host) := by
  refine .of_get (fun _ => rfl) fun s => ?_
  cases s.protectedEngines with
  | some engines => exact .of_pure _
  | none =>
    refine .of_get (fun _ => rfl) fun s => .of_bind (blind_allEngines host) fun engines => ?_
    refine .of_bind (.of_modify (fun _ => rfl) fun _ => ⟨rfl, rfl, rfl⟩) fun _ => ?_
    exact .of_bind (blind_write _) fun _ => .of_pure _

theorem blind_guardedIf (needed : Bool) : Blind (Session.guardedIf needed host) := by
  cases needed with
  | true => exact blind_guarded host
  | false => exact .of_pure _

theorem blind_crossingAt (t : SourceTree) (current : Option String) (n : Node) :
    Blind (Inspection.crossingAt host t current n) := by
  unfold Inspection.crossingAt
  cases n.kind with
  | const =>
    refine .of_bind (.of_get (fun _ => rfl) fun s => ?_) fun _ => .of_pure _
    exact .of_bind (blind_guardedIf host _) fun _ => .of_pure _
  | send =>
    exact .of_bind (.of_bind (blind_guardedIf host _) fun _ => .of_pure _) fun _ => .of_pure _
  | _ => exact .of_pure _

theorem blind_requireEngines : Blind (Session.requireEngines host).run := by
  refine .of_work_get (fun _ => rfl) fun s => ?_
  cases s.engines with
  | some engines => exact .of_pure _
  | none =>
    cases s.protection.obstacle? host with
    | none => exact .of_pure _
    | some failure => exact .of_pure _

theorem blind_apiDirectory (engine : String) : Blind (Session.apiDirectory host engine).run := by
  refine .of_work (blind_requireEngines host) fun _ => ?_
  refine .of_steady (blind_allEngines host) fun engines => .of_work_get (fun _ => rfl) fun s => ?_
  cases s.catalog.apiDirectory
      (PublicApi.Catalog.directoryName (named? engine engines) engine) with
  | ok path => exact .of_pure _
  | error fault => exact .of_pure _

theorem blind_artifacts (engine : String) : Blind (Session.artifacts host engine).run := by
  refine .of_work_get (fun _ => rfl) fun s => ?_
  cases s.catalog.known? engine with
  | some artifacts => exact .of_pure _
  | none =>
    refine .of_work (blind_apiDirectory host engine) fun directory => ?_
    refine .of_work_get (fun _ => rfl) fun s => ?_
    generalize s.catalog.consult host engine directory = consulted
    refine .of_steady (.of_modify (fun _ => rfl) fun _ => ⟨rfl, rfl, rfl⟩) fun _ => ?_
    refine .of_steady (blind_write _) fun _ => ?_
    cases consulted.1 with
    | ok artifacts => exact .of_pure _
    | error failure => exact .of_pure _

theorem blind_judge (reach : Reach) (current : Option String) (file : String) :
    Blind (Session.judge host reach current file).run := by
  refine .of_work_get (fun _ => rfl) fun s => ?_
  cases Verdict.byPolicy s.protection reach current with
  | some verdict => exact .of_pure _
  | none => exact .of_work (blind_artifacts host reach.engine) fun _ => .of_pure _

end Operations

/-! ## Files that nothing stands in the way of -/

section Clear

variable (fs : FileSystem)

theorem Session.requireEngines_clear : requireEngines fs = pure () := by
  funext s
  refine (run_get_bind _ s).trans ?_
  rw [s.protection.obstacle?_clear fs]
  cases s.engines <;> rfl

theorem Session.requireAnswer_clear (name : String) : requireAnswer fs name = pure () := by
  funext s
  refine (run_get_bind _ s).trans ?_
  cases s.memo.answer? name <;> rfl

theorem Inspection.requireEnginesAt_clear (t : SourceTree) (current : Option String) (n : Node) :
    requireEnginesAt fs t current n = pure () := by
  unfold requireEnginesAt
  simp only [Session.requireEngines_clear, ite_self]
  rfl

end Clear

/-! ## Judging a file -/

/-- A reference with the verdict on it. -/
structure Judgement where
  kind : String
  crossing : Crossing
  verdict : Verdict

namespace Inspection

/-- The judgements at nodes, up to the first that fails, and why it does. -/
def judgeNodes (fs : FileSystem) (t : SourceTree) (current : Option String) :
    List Node → Steady (List Judgement × Option Failure)
  | [] => return ([], none)
  | n :: rest => do
    match ← crossingAt fs t current n with
    | none => judgeNodes fs t current rest
    | some (kind, crossing) =>
      match ← (Session.judge fs crossing.toReach current t.path).run with
      | .error failure => return ([], some failure)
      | .ok verdict =>
        let (below, failure) ← judgeNodes fs t current rest
        return (⟨kind, crossing, verdict⟩ :: below, failure)

def judgements (fs : FileSystem) (t : SourceTree) : Steady (List Judgement × Option Failure) := do
  Session.revalidate
  let current := (← get).protection.ownerOf t.path
  judgeNodes fs t current t.nodes.toList

end Inspection
end Bulkhead
