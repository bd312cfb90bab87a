/-
Which names the source of models is asked about, and what its answers decide.

An inspection asks about a constant only when the verdict on it is a refusal, and a name that was
answered before, with yes or no, is not passed on to the source.  What a check does is said once, in
`run_check`; from it follow a file and a whole life of a session over many files, each step of them
next to the judgements that are made without asking.  `questions_of_life` reads off what the source
is asked and which refusals are reported.
-/
import Bulkhead.Proofs.Judging
import Bulkhead.Proofs.LongSession
import Bulkhead.Proofs.Refinement

namespace Bulkhead

/-! ## Answers that are kept -/

namespace Persistence
namespace Memo

def askAll (m : Memo) (source : Source) (names : List String) : Memo :=
  names.foldl (fun m name => (m.ask source name).2.1) m

/-- The second has all answers of the first. -/
def Extends (m m' : Memo) : Prop :=
  ∀ name answer, m.answer? name = some answer → m'.answer? name = some answer

theorem Extends.trans {m₁ m₂ m₃ : Memo} (h₁ : m₁.Extends m₂) (h₂ : m₂.Extends m₃) :
    m₁.Extends m₃ :=
  fun name answer h => h₂ name answer (h₁ name answer h)

/-- After questions about `names` the source was asked about each of them once, in the order in which
they came up first, and all its answers were kept. -/
structure Logs (m : Memo) (names : List String) : Prop where
  answered : m.answers.map Prod.fst = m.asked
  asked : m.asked = names.eraseDups

variable {m : Memo} {source : Source} {name : String}

theorem answer?_eq_none : m.answer? name = none ↔ name ∉ m.answers.map Prod.fst := by
  rw [answer?, Option.map_eq_none_iff, List.find?_eq_none, List.mem_map]
  constructor
  · rintro h ⟨answer, hmem, rfl⟩
    exact h answer hmem (beq_self_eq_true _)
  · intro h answer hmem hname
    exact h ⟨answer, hmem, eq_of_beq hname⟩

theorem asked_of_new (source : Source) (h : m.answer? name = none) :
    (m.ask source name).2.1.asked = m.asked ++ [name] := by
  unfold ask
  rw [h]

theorem answer?_ask (m : Memo) (source : Source) (name : String) :
    (m.ask source name).2.1.answer? name = some (m.ask source name).1 := by
  cases hknown : m.answer? name with
  | some answer =>
    rw [ask_of_known source hknown]
    exact hknown
  | none =>
    obtain ⟨hanswer, hmade⟩ := ask_of_new source hknown
    rw [answer?_of_append _ hmade, hknown, if_pos rfl, hanswer, Option.none_or]

theorem extends_ask (m : Memo) (source : Source) (name : String) :
    m.Extends (m.ask source name).2.1 := by
  intro name' answer hanswer
  cases hknown : m.answer? name with
  | some answer' =>
    rw [ask_of_known source hknown]
    exact hanswer
  | none =>
    rw [answer?_of_append _ (ask_of_new source hknown).2, hanswer, Option.some_or]

theorem extends_askAll (m : Memo) (source : Source) (names : List String) :
    m.Extends (m.askAll source names) := by
  induction names generalizing m with
  | nil => exact fun _ _ h => h
  | cons name names ih =>
    exact (extends_ask m source name).trans (ih _)

theorem logs_ask {names : List String} (h : m.Logs names) (source : Source) (name : String) :
    (m.ask source name).2.1.Logs (names ++ [name]) := by
  cases hknown : m.answer? name with
  | some answer =>
    have hmem : name ∈ names := by
      rw [← List.mem_eraseDups, ← h.asked, ← h.answered]
      by_contra habsent
      rw [answer?_eq_none.mpr habsent] at hknown
      cases hknown
    rw [ask_of_known source hknown]
    refine ⟨h.answered, h.asked.trans ?_⟩
    rw [List.eraseDups_append]
    simp [List.removeAll, hmem]
  | none =>
    have hnew : name ∉ names := by
      rw [← List.mem_eraseDups, ← h.asked, ← h.answered]
      exact answer?_eq_none.mp hknown
    obtain ⟨-, hanswers⟩ := ask_of_new source hknown
    have hasked := asked_of_new source hknown
    refine ⟨?_, ?_⟩
    · rw [hanswers, hasked, List.map_append, h.answered]
      rfl
    · rw [hasked, h.asked, List.eraseDups_append]
      simp [List.removeAll, hnew, List.eraseDups_cons]

theorem logs_askAll {before : List String} (h : m.Logs before) (source : Source)
    (names : List String) : (m.askAll source names).Logs (before ++ names) := by
  induction names generalizing m before with
  | nil =>
    rw [List.append_nil]
    exact h
  | cons name names ih =>
    rw [List.append_cons]
    exact ih (logs_ask h source name)

theorem agrees_askAll (h : m.Agrees source) (names : List String) :
    (m.askAll source names).Agrees source := by
  induction names generalizing m with
  | nil => exact h
  | cons name names ih => exact ih (ask_agrees h name).2

end Memo
end Persistence

/-! ## Judgements and what is asked about them -/

namespace Judgement

/-- The name that is asked about: that of a constant that is refused. -/
def question? (j : Judgement) : Option String :=
  if j.verdict.allowed then none else j.crossing.model

theorem questions_cons (j : Judgement) (below : List Judgement) :
    (j :: below).filterMap question? = j.question?.toList ++ below.filterMap question? := by
  rw [List.filterMap_cons]
  cases j.question? with
  | none => rfl
  | some name => rfl

/-- A refusal is reported if there was nothing to ask about, or the answer was yes. -/
def isReported (m : Persistence.Memo) (j : Judgement) : Bool :=
  !j.verdict.allowed && j.crossing.model.all fun name => m.answer? name == some true

theorem question?_of_allowed {j : Judgement} (h : j.verdict.allowed = true) : j.question? = none :=
  if_pos h

theorem question?_of_refused {j : Judgement} (h : j.verdict.allowed = false) :
    j.question? = j.crossing.model := by
  rw [question?, h, if_neg Bool.false_ne_true]

theorem isReported_of_allowed (m : Persistence.Memo) {j : Judgement}
    (h : j.verdict.allowed = true) : j.isReported m = false := by
  rw [isReported, h, Bool.not_true, Bool.false_and]

theorem isReported_of_refused (m : Persistence.Memo) {j : Judgement}
    (h : j.verdict.allowed = false) :
    j.isReported m = j.crossing.model.all fun name => m.answer? name == some true := by
  rw [isReported, h, Bool.not_false, Bool.true_and]

def offense (p : Protection) (path : String) (current : Option String) (j : Judgement) : Offense :=
  .ofCrossing p path j.crossing current

/-- What is reported of the judgements in a file, unless one of them failed. -/
def report (m : Persistence.Memo) (p : Protection) (path : String) (current : Option String)
    (judged : List Judgement × Option Failure) : Except Failure (List Offense) :=
  match judged.2 with
  | some failure => .error failure
  | none => .ok ((judged.1.filter (isReported m)).map (offense p path current))

theorem report_cons (m : Persistence.Memo) (p : Protection) (path : String)
    (current : Option String) (j : Judgement) (judged : List Judgement × Option Failure) :
    report m p path current (j :: judged.1, judged.2) =
      (report m p path current judged).map
        ((if j.isReported m then some (j.offense p path current) else none).toList ++ ·) := by
  obtain ⟨below, failure⟩ := judged
  cases failure with
  | some failure => rfl
  | none =>
    cases hreported : j.isReported m with
    | true => simp [report, hreported, Except.map]
    | false => simp [report, hreported, Except.map]

end Judgement

/-- The session has gone on, and asked about names on the way. -/
structure Session.Asks (s s' : Session) (names : List String) : Prop where
  protection : s'.protection = s.protection
  source : s'.source = s.source
  memo : s'.memo = s.memo.askAll s.source names

namespace Session

theorem Keeps.asks {s s' : Session} (h : s.Keeps s') : s.Asks s' [] :=
  ⟨h.protection, h.source, h.memo⟩

theorem Asks.trans {s₁ s₂ s₃ : Session} {first second : List String} (h₁ : s₁.Asks s₂ first)
    (h₂ : s₂.Asks s₃ second) : s₁.Asks s₃ (first ++ second) where
  protection := h₂.protection.trans h₁.protection
  source := h₂.source.trans h₁.source
  memo := by
    rw [h₂.memo, h₁.memo, h₁.source, Persistence.Memo.askAll, Persistence.Memo.askAll,
      Persistence.Memo.askAll, List.foldl_append]

theorem Asks.keep {s₁ s₂ s₃ : Session} {names : List String} (h : s₁.Asks s₂ names)
    (hkeeps : s₂.Keeps s₃) : s₁.Asks s₃ names :=
  List.append_nil names ▸ h.trans hkeeps.asks

theorem Asks.extends {s s' : Session} {names : List String} (h : s.Asks s' names) :
    s.memo.Extends s'.memo :=
  h.memo ▸ Persistence.Memo.extends_askAll s.memo s.source names

theorem run_emit (e : Audit.Event) (s : Session) :
    ((emit e).run s).2.core = s.core ∧ s.Keeps ((emit e).run s).2 := by
  refine ⟨?_, (blind_emit e s).2.2⟩
  obtain ⟨protection, catalog, source, engines, guarded, memo, trail, journal⟩ := s
  cases trail with
  | none => rfl
  | some trail => rfl

theorem run_isModel (name : String) (s : Session) :
    ((isModel name).run s).2.memo.answer? name = some ((isModel name).run s).1 ∧
      ((isModel name).run s).2.core = s.core ∧ s.Asks ((isModel name).run s).2 [name] :=
  ⟨Persistence.Memo.answer?_ask s.memo s.source name, rfl, rfl, rfl, rfl⟩

end Session

namespace Inspection

variable {fs : FileSystem} {t : SourceTree} {current : Option String}

/-- A check asks about a refused constant and about nothing else; a later memo tells what it
reported. -/
theorem run_check {path : String} (kind : String) {c : Crossing} {s s' : Session}
    {verdict : Verdict}
    (hjudge : (Session.judge fs c.toReach current path).run.run s = (.ok verdict, s')) :
    let j : Judgement := ⟨kind, c, verdict⟩
    let r := (check fs path kind current c).run.run s
    r.2.core = s'.core ∧ s'.Asks r.2 j.question?.toList ∧
      ∀ m, r.2.memo.Extends m →
        r.1 = .ok (if j.isReported m then some (j.offense s'.protection path current) else none) := by
  intro j r
  have hrun : r = _ := Session.run_bind_of_ok _ hjudge
  rw [Session.run_steady_bind] at hrun
  obtain ⟨hcore, hkeeps⟩ := Session.run_emit (checkedEvent path kind c current verdict) s'
  generalize ((Session.emit (checkedEvent path kind c current verdict)).run s').2 = s₁
    at hrun hcore hkeeps
  cases hallowed : verdict.allowed with
  | true =>
    rw [hallowed] at hrun
    rw [hrun, Judgement.question?_of_allowed hallowed]
    refine ⟨hcore, hkeeps.asks, fun m _ => ?_⟩
    rw [Judgement.isReported_of_allowed m hallowed]
    rfl
  | false =>
    have hquestion : j.question? = c.model := Judgement.question?_of_refused hallowed
    have hreported (m : Persistence.Memo) :
        j.isReported m = c.model.all fun name => m.answer? name == some true :=
      Judgement.isReported_of_refused m hallowed
    rw [hallowed, if_neg Bool.false_ne_true, Session.run_get_bind, hkeeps.protection] at hrun
    simp only [hreported, hquestion]
    cases hmodel : c.model with
    | none =>
      simp only [hmodel] at hrun
      rw [hrun]
      exact ⟨hcore, hkeeps.asks, fun m _ => rfl⟩
    | some model =>
      simp only [hmodel] at hrun
      rw [Session.requireAnswer_clear, pure_bind, Session.run_steady_bind] at hrun
      obtain ⟨hanswer, hcore₂, hasks⟩ := Session.run_isModel model s₁
      generalize (Session.isModel model).run s₁ = asked at hrun hanswer hcore₂ hasks
      obtain ⟨answer, s₂⟩ := asked
      cases answer with
      | true =>
        rw [hrun]
        refine ⟨hcore₂.trans hcore, hkeeps.asks.trans hasks, fun m hextends => ?_⟩
        rw [Option.all_some, hextends model true hanswer]
        rfl
      | false =>
        obtain ⟨hcore₃, hskipped⟩ := Session.run_emit (skippedEvent path c model) s₂
        rw [hrun]
        refine ⟨hcore₃.trans (hcore₂.trans hcore),
          (hkeeps.asks.trans hasks).keep hskipped, fun m hextends => ?_⟩
        rw [Option.all_some, hextends model false (hskipped.memo ▸ hanswer)]
        rfl

section Node

variable {n : Node} {s s₁ s₂ : Session} (rest : List Node)

theorem judgeNodes_of_none (h : (crossingAt fs t current n).run s = (none, s₁)) :
    (judgeNodes fs t current (n :: rest)).run s = (judgeNodes fs t current rest).run s₁ := by
  rw [judgeNodes, StateT.run_bind, h]
  rfl

theorem checkNodes_of_none (h : (crossingAt fs t current n).run s = (none, s₁)) :
    (checkNodes fs t current (n :: rest)).run.run s =
      (checkNodes fs t current rest).run.run s₁ := by
  rw [checkNodes, requireEnginesAt_clear, pure_bind, Session.run_steady_bind, h]
  show (do return [] ++ (← checkNodes fs t current rest) : Work (List Offense)).run.run s₁ = _
  simp

variable {kind : String} {c : Crossing}
  (hfound : (crossingAt fs t current n).run s = (some (kind, c), s₁))

include hfound

theorem judgeNodes_of_error {failure : Failure}
    (h : (Session.judge fs c.toReach current t.path).run.run s₁ = (.error failure, s₂)) :
    (judgeNodes fs t current (n :: rest)).run s = (([], some failure), s₂) := by
  rw [judgeNodes, StateT.run_bind, hfound]
  change StateT.run (_ >>= _) s₁ = _
  rw [StateT.run_bind, h]
  rfl

theorem judgeNodes_of_ok {verdict : Verdict}
    (h : (Session.judge fs c.toReach current t.path).run.run s₁ = (.ok verdict, s₂)) :
    (judgeNodes fs t current (n :: rest)).run s =
      let below := (judgeNodes fs t current rest).run s₂
      ((⟨kind, c, verdict⟩ :: below.1.1, below.1.2), below.2) := by
  rw [judgeNodes, StateT.run_bind, hfound]
  change StateT.run (_ >>= _) s₁ = _
  rw [StateT.run_bind, h]
  rfl

theorem checkNodes_of_error {failure : Failure}
    (h : (Session.judge fs c.toReach current t.path).run.run s₁ = (.error failure, s₂)) :
    (checkNodes fs t current (n :: rest)).run.run s = (.error failure, s₂) := by
  have hcheck : (check fs t.path kind current c).run.run s₁ = (.error failure, s₂) :=
    Session.run_bind_of_error _ h
  rw [checkNodes, requireEnginesAt_clear, pure_bind, Session.run_steady_bind, hfound]
  exact Session.run_bind_of_error _ hcheck

theorem checkNodes_of_ok {offense : Option Offense}
    (h : (check fs t.path kind current c).run.run s₁ = (.ok offense, s₂)) :
    (checkNodes fs t current (n :: rest)).run.run s =
      let below := (checkNodes fs t current rest).run.run s₂
      (below.1.map (offense.toList ++ ·), below.2) := by
  rw [checkNodes, requireEnginesAt_clear, pure_bind, Session.run_steady_bind, hfound]
  refine (Session.run_bind_of_ok _ h).trans ?_
  generalize hbelow : (checkNodes fs t current rest).run.run s₂ = below
  obtain ⟨answer, s₃⟩ := below
  cases answer with
  | ok offenses => exact Session.run_bind_of_ok _ hbelow
  | error failure => exact Session.run_bind_of_error _ hbelow

end Node

/-- What happens at a node in two sessions with the same core, one that checks and one that only
judges: there is no reference, or no verdict, or a check is made. -/
theorem checkNodes_cases {s s' : Session} (hcore : s.core = s'.core) (fs : FileSystem)
    (t : SourceTree) (current : Option String) (n : Node) (rest : List Node) :
    let judged := (judgeNodes fs t current (n :: rest)).run s'
    let checked := (checkNodes fs t current (n :: rest)).run.run s
    (∃ s₁ s₁', s₁.core = s₁'.core ∧ (crossingAt fs t current n).run s = (none, s₁) ∧
        judged = (judgeNodes fs t current rest).run s₁' ∧
        checked = (checkNodes fs t current rest).run.run s₁) ∨
      ∃ kind c s₁ s₂ s₂', s₂.core = s₂'.core ∧
        (crossingAt fs t current n).run s = (some (kind, c), s₁) ∧
        ((∃ failure, (Session.judge fs c.toReach current t.path).run.run s₁ = (.error failure, s₂) ∧
            judged = (([], some failure), s₂') ∧ checked = (.error failure, s₂)) ∨
          ∃ verdict offense s₃,
            (Session.judge fs c.toReach current t.path).run.run s₁ = (.ok verdict, s₂) ∧
            (check fs t.path kind current c).run.run s₁ = (.ok offense, s₃) ∧
            (judged =
              let below := (judgeNodes fs t current rest).run s₂'
              ((⟨kind, c, verdict⟩ :: below.1.1, below.1.2), below.2)) ∧
            checked =
              let below := (checkNodes fs t current rest).run.run s₃
              (below.1.map (offense.toList ++ ·), below.2)) := by
  dsimp only
  obtain ⟨hfound, hcore₁⟩ := (blind_crossingAt fs t current n).congr hcore
  generalize hfirst : (crossingAt fs t current n).run s = first at hfound hcore₁
  generalize hfirst' : (crossingAt fs t current n).run s' = first' at hfound hcore₁
  obtain ⟨found, s₁⟩ := first
  obtain ⟨found', s₁'⟩ := first'
  obtain rfl : found = found' := hfound
  cases found with
  | none =>
    exact .inl ⟨s₁, s₁', hcore₁, rfl, judgeNodes_of_none rest hfirst',
      checkNodes_of_none rest hfirst⟩
  | some found =>
    obtain ⟨kind, c⟩ := found
    obtain ⟨hverdict, hcore₂⟩ := (blind_judge fs c.toReach current t.path).congr hcore₁
    generalize hsecond : (Session.judge fs c.toReach current t.path).run.run s₁ = second
      at hverdict hcore₂
    generalize hsecond' : (Session.judge fs c.toReach current t.path).run.run s₁' = second'
      at hverdict hcore₂
    obtain ⟨verdict, s₂⟩ := second
    obtain ⟨verdict', s₂'⟩ := second'
    obtain rfl : verdict = verdict' := hverdict
    refine .inr ⟨kind, c, s₁, s₂, s₂', hcore₂, rfl, ?_⟩
    rw [hsecond]
    cases verdict with
    | error failure =>
      exact .inl ⟨failure, rfl, judgeNodes_of_error rest hfirst' hsecond',
        checkNodes_of_error rest hfirst hsecond⟩
    | ok verdict =>
      obtain ⟨-, -, hoffense⟩ := run_check kind hsecond
      generalize hthird : (check fs t.path kind current c).run.run s₁ = third at hoffense
      obtain ⟨offense, s₃⟩ := third
      obtain ⟨offense, rfl⟩ : ∃ o, offense = .ok o := ⟨_, hoffense s₃.memo fun _ _ h => h⟩
      exact .inr ⟨verdict, offense, s₃, rfl, rfl, judgeNodes_of_ok rest hfirst' hsecond',
        checkNodes_of_ok rest hfirst hthird⟩

variable (fs t current) in
theorem run_checkNodes {s s' : Session} (hcore : s.core = s'.core) (nodes : List Node) :
    let judged := (judgeNodes fs t current nodes).run s'
    let r := (checkNodes fs t current nodes).run.run s
    r.2.core = judged.2.core ∧ s.Asks r.2 (judged.1.1.filterMap Judgement.question?) ∧
      ∀ m, r.2.memo.Extends m → r.1 = Judgement.report m s.protection t.path current judged.1 := by
  -- Side by side: the two sessions have the same core at every node.
  induction nodes generalizing s s' with
  | nil => exact ⟨hcore, ⟨rfl, rfl, rfl⟩, fun _ _ => rfl⟩
  | cons n rest ih =>
    have hkeeps₁ := (blind_crossingAt fs t current n s).2.2
    rcases checkNodes_cases hcore fs t current n rest with
      ⟨s₁, s₁', hcore₁, hfound, hjudged, hchecked⟩ |
        ⟨kind, c, s₁, s₂, s₂', hcore₂, hfound, hverdict⟩
    · rw [hfound] at hkeeps₁
      obtain ⟨hcore₂, hasks, hreport⟩ := ih hcore₁
      rw [hjudged, hchecked]
      exact ⟨hcore₂, hkeeps₁.asks.trans hasks, fun m hm => hkeeps₁.protection ▸ hreport m hm⟩
    · have hkeeps₂ := (blind_judge fs c.toReach current t.path s₁).2.2
      rw [hfound] at hkeeps₁
      rcases hverdict with ⟨failure, hjudge, hjudged, hchecked⟩ |
        ⟨verdict, offense, s₃, hjudge, hcheck, hjudged, hchecked⟩
      · rw [hjudge] at hkeeps₂
        rw [hjudged, hchecked]
        exact ⟨hcore₂, (hkeeps₁.trans hkeeps₂).asks, fun _ _ => rfl⟩
      · obtain ⟨hcore₃, hasks₃, hoffense⟩ := run_check kind hjudge
        rw [hjudge] at hkeeps₂
        rw [hcheck] at hcore₃ hasks₃ hoffense
        have hkeeps := hkeeps₁.trans hkeeps₂
        obtain ⟨hcore₄, hasks₄, hreport⟩ := ih (hcore₃.trans hcore₂)
        rw [hjudged, hchecked]
        refine ⟨hcore₄, ?_, fun m hm => ?_⟩
        · rw [Judgement.questions_cons]
          exact hkeeps.asks.trans (hasks₃.trans hasks₄)
        · have hlater := hasks₄.extends.trans hm
          rw [Judgement.report_cons, ← hkeeps.protection, ← Except.ok.inj (hoffense m hlater)]
          rw [← hasks₃.protection, ← hreport m hm]

theorem run_inspect {s s' : Session} (hcore : s.core = s'.core) (fs : FileSystem)
    (t : SourceTree) :
    let judged := (judgements fs t).run s'
    let r := (inspect fs t).run.run s
    r.2.core = judged.2.core ∧ s.Asks r.2 (judged.1.1.filterMap Judgement.question?) ∧
      ∀ m, r.2.memo.Extends m → r.1 =
        Judgement.report m s.protection t.path (s.protection.ownerOf t.path) judged.1 := by
  intro judged r
  have hcore₁ := (blind_revalidate.congr hcore).2
  have hkeeps := (blind_revalidate s).2.2
  have hrun : r = _ := Session.run_steady_bind ..
  have hjudged : judged = (judgeNodes fs t
    ((Session.revalidate.run s').2.protection.ownerOf t.path) t.nodes.toList).run
      (Session.revalidate.run s').2 := rfl
  generalize (Session.revalidate.run s).2 = s₁ at hrun hcore₁ hkeeps
  generalize (Session.revalidate.run s').2 = s₁' at hjudged hcore₁
  have hprotection : s₁'.protection = s.protection := by
    have hsame : s₁.core.protection = s₁'.core.protection := by rw [hcore₁]
    exact hsame.symm.trans hkeeps.protection
  rw [hprotection] at hjudged
  rw [Session.run_get_bind, hkeeps.protection] at hrun
  obtain ⟨hcore₂, hasks, hreport⟩ :=
    run_checkNodes fs t (s.protection.ownerOf t.path) hcore₁ t.nodes.toList
  rw [hjudged, hrun]
  rw [hkeeps.protection] at hreport
  generalize hchecked : (checkNodes fs t (s.protection.ownerOf t.path) t.nodes.toList).run.run s₁ =
    checked at hcore₂ hasks hreport
  obtain ⟨answer, s₂⟩ := checked
  cases answer with
  | error failure =>
    rw [Session.run_bind_of_error _ hchecked]
    exact ⟨hcore₂, hkeeps.asks.trans hasks, hreport⟩
  | ok offenses =>
    rw [Session.run_bind_of_ok _ hchecked, Session.run_steady_bind]
    exact ⟨hcore₂, (hkeeps.asks.trans hasks).keep (blind_write _ s₂).2.2, hreport⟩

/-- A file with the judgements on its references, and the failure that ended them, if any. -/
structure Hearing where
  tree : SourceTree
  judgements : List Judgement
  failure : Option Failure

/-- The judgements of a session on one file after the other, each with the files as they are
then. -/
def hearings (s : Session) : List (FileSystem × SourceTree) → List Hearing
  | [] => []
  | m :: rest =>
    let judged := (judgements m.1 m.2).run s
    ⟨m.2, judged.1.1, judged.1.2⟩ :: hearings judged.2 rest

/-- The session after the inspection of one file after the other. -/
def after (s : Session) (life : List (FileSystem × SourceTree)) : Session :=
  life.foldl (fun s m => ((inspect m.1 m.2).run.run s).2) s

theorem run_life {s s' : Session} (hcore : s.core = s'.core)
    (life : List (FileSystem × SourceTree)) :
    s.Asks (after s life)
        ((hearings s' life).flatMap fun h => h.judgements.filterMap Judgement.question?) ∧
      ∀ m, (after s life).memo.Extends m →
        history s life = (hearings s' life).map fun h =>
          Judgement.report m s.protection h.tree.path (s.protection.ownerOf h.tree.path)
            (h.judgements, h.failure) := by
  induction life generalizing s s' with
  | nil => exact ⟨⟨rfl, rfl, rfl⟩, fun _ _ => rfl⟩
  | cons visit rest ih =>
    obtain ⟨hcore₁, hasks, hreport⟩ := run_inspect hcore visit.1 visit.2
    obtain ⟨hasks', hreports⟩ := ih hcore₁
    refine ⟨hasks.trans hasks', fun m hm => ?_⟩
    rw [history, hearings, List.map_cons, hreport m (hasks'.extends.trans hm), hreports m hm,
      hasks.protection]

end Inspection

/-! ## Constants that can be named -/

theorem Value.constName_isSome {v : Value} :
    v.constName.isSome = true ↔ v.kind = .const ∧ v.scopeNames.isSome = true := by
  rw [constName]
  by_cases hkind : v.kind = .const
  · simp [hkind]
  · simp [hkind]

namespace SourceTree

/-- The tree of an accepted document in which each constant has a slot for its scope and no other. -/
structure SingleScoped (t : SourceTree) : Prop where
  accepted : ∃ document, ofValue document = .ok t
  scopes : ∀ n ∈ t.nodes.toList, n.kind = .const → n.slots.length ≤ 1

/-- What stands in the only slot of a node is its first child. -/
theorem child?_of_single {t : SourceTree} {root : Value} {m n : Node} {s : Site} {j : Nat}
    (hn : Stands t root n s) (hsingle : m.slots.length ≤ 1)
    (hslot : m.slots[j]? = some (some n.index)) : t.child? m 0 = some n := by
  have hfirst : j = 0 := by
    have := (List.getElem?_eq_some_iff.mp hslot).1
    omega
  rw [child?, ← hfirst, hslot, Option.join_some, Option.bind_some, getElem?_nodes, hn.found]

section Numbered

variable {t : SourceTree} {root : Value} (h : Numbers t.nodes.toList root)

include h

/-- What stands in a constant with one slot is its scope. -/
theorem scopeNames_of_single {m n : Node} {p v : Value} {j : Nat}
    {above below : List (Value × Nat)} (hm : Stands t root m ⟨p, above⟩)
    (hn : Stands t root n ⟨v, below⟩) (hkind : p.kind = .const) (hsingle : m.slots.length ≤ 1)
    (hslot : m.slots[j]? = some (some n.index)) :
    p.scopeNames = v.scopeNames.map (p.given.getD "" :: ·) := by
  have hchild := child?_of_single hn hsingle hslot
  have hinner := scopeNames_of_stands h hn (show t.size ≤ n.index + t.size by omega)
  have houter := scopeNames_of_stands h hm (show t.size ≤ m.index + (t.size + 1) by omega)
  rw [scopeNames, kind_of_stands h hm, value_of_stands h hm, hchild, hinner] at houter
  rw [← houter]
  simp only [hkind]

/-- The names of the outermost constant go on outwards where those of the one inside it end. -/
theorem scopeNames_outermost {n : Node} {v : Value} {above : List (Value × Nat)}
    {names : List String}
    (hsingle : ∀ n ∈ t.nodes.toList, n.kind = .const → n.slots.length ≤ 1)
    (hs : Stands t root n ⟨v, above⟩) (hkind : v.kind = .const)
    (hnames : v.scopeNames = some names) :
    (Site.outermost v above).object.kind = .const ∧
      ∃ outer, (Site.outermost v above).object.scopeNames = some (outer ++ names) := by
  -- From a constant to the one around it: the inner one is all the scope the outer one has.
  induction above generalizing n v names with
  | nil => exact ⟨hkind, [], hnames⟩
  | cons around rest ih =>
    obtain ⟨p, j⟩ := around
    rw [Site.outermost]
    by_cases hp : p.kind = .const
    · obtain ⟨m, -, hm, -, hslot⟩ := parent?_of_inside h hs
      have hslots := hsingle m (List.mem_of_getElem? hm.found) ((kind_of_stands h hm).trans hp)
      have hgrown : p.scopeNames = some (p.given.getD "" :: names) := by
        rw [scopeNames_of_single h hm hs hp hslots hslot, hnames, Option.map_some]
      obtain ⟨houter, outer, hall⟩ := ih hm hp hgrown
      rw [if_pos hp]
      exact ⟨houter, outer ++ [p.given.getD ""], by rw [hall, List.append_assoc]; rfl⟩
    · rw [if_neg hp]
      exact ⟨hkind, [], hnames⟩

theorem constName_outermost {n : Node} {v : Value} {above : List (Value × Nat)}
    (hsingle : ∀ n ∈ t.nodes.toList, n.kind = .const → n.slots.length ≤ 1)
    (hs : Stands t root n ⟨v, above⟩) (hnamed : v.constName.isSome = true) :
    (Site.outermost v above).object.constName.isSome = true := by
  obtain ⟨hkind, hnames⟩ := Value.constName_isSome.mp hnamed
  obtain ⟨names, hnames⟩ := Option.isSome_iff_exists.mp hnames
  obtain ⟨houter, outer, hall⟩ := scopeNames_outermost h hsingle hs hkind hnames
  exact Value.constName_isSome.mpr ⟨houter, by rw [hall, Option.isSome_some]⟩

end Numbered

/-- Every node of an accepted document stands for an object below its field `root`. -/
theorem stands_of_mem {document : Value} {t : SourceTree} (hdocument : ofValue document = .ok t)
    {n : Node} (hn : n ∈ t.nodes.toList) :
    ∃ root, document.field? "root" = some root ∧ Numbers t.nodes.toList root ∧
      ∃ s, Stands t root n s := by
  obtain ⟨-, ⟨hroot, -⟩ | ⟨root, hroot, hnull, -⟩⟩ := ofValue_eq_ok hdocument
  · rw [toList_nodes, hroot] at hn
    cases hn
  · have hnumbers := numbers hdocument hroot hnull
    obtain ⟨⟨i, hi⟩, rfl⟩ := List.get_of_mem hn
    obtain ⟨hlength, hstands⟩ := List.forall₂_iff_get.mp (nodes_stand hnumbers)
    exact ⟨root, hroot, hnumbers, _, hstands i hi (hlength ▸ hi)⟩

/-- Around a constant that has a name the outermost one has a name too. -/
theorem SingleScoped.outermost_named {t : SourceTree} (h : t.SingleScoped) {n : Node}
    (hn : n ∈ t.nodes.toList) (hnamed : (t.constName n).isSome = true) :
    (t.constName (t.outermost n)).isSome = true := by
  obtain ⟨document, hdocument⟩ := h.accepted
  obtain ⟨root, -, hnumbers, ⟨v, above⟩, hs⟩ := stands_of_mem hdocument hn
  rw [constName_of_stands hnumbers (outermost_of_stands hnumbers hs)]
  exact constName_outermost hnumbers h.scopes hs (constName_of_stands hnumbers hs ▸ hnamed)

end SourceTree

/-! ## Lives -/

theorem Crossing.ofConst_eq_some {p : Protection} {engines : List String} {t : SourceTree}
    {current : Option String} {depth : Int} {n : Node} {c : Crossing}
    (h : ofConst p engines t current depth n = some c) :
    (∃ name, t.constName n = some name) ∧ c.node = n ∧ c.model = t.constName (t.outermost n) ∧
      c.lineage = (t.lineage n depth).map fun n => Constant.bare n.source := by
  rw [ofConst] at h
  split at h
  · obtain ⟨engine, hengine, rfl⟩ := Option.map_eq_some_iff.mp h
    refine ⟨?_, rfl, rfl, rfl⟩
    rw [engineNamed] at hengine
    split at hengine
    · cases hengine
    · next name hname => exact ⟨name, hname⟩
  · cases h

namespace Inspection

variable {fs : FileSystem} {t : SourceTree} {current : Option String}

/-- A constant is asked about by the name of the outermost one around it, and an association is not
asked about. -/
theorem model_of_crossingAt {n : Node} {s : Session} {kind : String} {c : Crossing}
    (h : ((crossingAt fs t current n).run s).1 = some (kind, c)) :
    (kind = "const" ∧ c.node = n ∧ (t.constName n).isSome = true ∧
        c.model = t.constName (t.outermost n)) ∨
      (kind = "association" ∧ c.model = none) := by
  unfold crossingAt at h
  cases hkind : n.kind with
  | const =>
    rw [hkind] at h
    have hconst : (Crossing.ofConst s.protection ((Session.guardedIf _ fs).run s).1 t current
      Crossing.defaultDepth n).map ("const", ·) = some (kind, c) := h
    obtain ⟨c', hcrossing, hpair⟩ := Option.map_eq_some_iff.mp hconst
    obtain ⟨rfl, rfl⟩ := Prod.mk.inj hpair
    obtain ⟨hnamed, hnode, hmodel, -⟩ := Crossing.ofConst_eq_some hcrossing
    exact .inl ⟨rfl, hnode, Option.isSome_iff_exists.mpr hnamed, hmodel⟩
  | send =>
    rw [hkind] at h
    have hsend : (Crossing.ofAssociation ((Session.guardedIf _ fs).run s).1 t n).map
      ("association", ·) = some (kind, c) := h
    obtain ⟨c', hcrossing, hpair⟩ := Option.map_eq_some_iff.mp hsend
    obtain ⟨rfl, rfl⟩ := Prod.mk.inj hpair
    refine .inr ⟨rfl, ?_⟩
    rw [Crossing.ofAssociation] at hcrossing
    split at hcrossing
    · cases hcrossing
    · split at hcrossing
      · cases hcrossing
      · split at hcrossing
        · cases hcrossing
          rfl
        · cases hcrossing
  | _ =>
    rw [hkind] at h
    cases h

/-- Every judgement is about the crossing at a node. -/
theorem crossing_of_mem {nodes : List Node} {s : Session} {j : Judgement}
    (h : j ∈ ((judgeNodes fs t current nodes).run s).1.1) :
    ∃ n ∈ nodes, ∃ s, ((crossingAt fs t current n).run s).1 = some (j.kind, j.crossing) := by
  induction nodes generalizing s with
  | nil => cases h
  | cons n rest ih =>
    have hrest {s : Session} (h : j ∈ ((judgeNodes fs t current rest).run s).1.1) :
        ∃ n' ∈ n :: rest, ∃ s,
          ((crossingAt fs t current n').run s).1 = some (j.kind, j.crossing) := by
      obtain ⟨n', hn', hcrossing⟩ := ih h
      exact ⟨n', List.mem_cons_of_mem n hn', hcrossing⟩
    generalize hfirst : (crossingAt fs t current n).run s = first
    obtain ⟨found, s₁⟩ := first
    cases found with
    | none =>
      rw [judgeNodes_of_none rest hfirst] at h
      exact hrest h
    | some found =>
      generalize hsecond :
        (Session.judge fs found.2.toReach current t.path).run.run s₁ = second
      obtain ⟨verdict, s₂⟩ := second
      cases verdict with
      | error failure =>
        rw [judgeNodes_of_error rest hfirst hsecond] at h
        cases h
      | ok verdict =>
        rw [judgeNodes_of_ok rest hfirst hsecond] at h
        rcases List.mem_cons.mp h with rfl | h
        · exact ⟨n, List.mem_cons_self, s, congrArg Prod.fst hfirst⟩
        · exact hrest h

end Inspection

namespace Judgement

/-- The name of the outermost constant around a constant that is refused. -/
def refusedConstant? (t : SourceTree) (j : Judgement) : Option String :=
  if j.kind = "const" ∧ j.verdict.allowed = false then t.constName (t.outermost j.crossing.node)
  else none

/-- A constant with a name to ask about, or an association. -/
def Classified (t : SourceTree) (j : Judgement) : Prop :=
  (j.kind = "const" ∧ ∃ name, j.crossing.model = some name ∧
      t.constName (t.outermost j.crossing.node) = some name) ∨
    (j.kind = "association" ∧ j.crossing.model = none)

variable {t : SourceTree} {j : Judgement}

theorem question?_of_classified (h : j.Classified t) : j.question? = j.refusedConstant? t := by
  rw [refusedConstant?]
  cases hallowed : j.verdict.allowed with
  | true => simp [question?_of_allowed hallowed]
  | false =>
    rw [question?_of_refused hallowed]
    rcases h with ⟨hkind, name, hmodel, hname⟩ | ⟨hkind, hmodel⟩
    · simp [hkind, hmodel, hname]
    · simp [hkind, hmodel]

theorem isReported_of_classified (h : j.Classified t) (m : Persistence.Memo) :
    (j.kind = "association" ∧ (j.isReported m = true ↔ j.verdict.allowed = false)) ∨
      (j.kind = "const" ∧ ∃ name, t.constName (t.outermost j.crossing.node) = some name ∧
        (j.isReported m = true ↔
          j.verdict.allowed = false ∧ m.answer? name = some true)) := by
  rcases h with ⟨hkind, name, hmodel, hname⟩ | ⟨hkind, hmodel⟩
  · exact .inr ⟨hkind, name, hname, by simp [isReported, hmodel]⟩
  · exact .inl ⟨hkind, by simp [isReported, hmodel]⟩

end Judgement

theorem Inspection.classified_of_mem {life : List (FileSystem × SourceTree)}
    (hlife : ∀ visit ∈ life, visit.2.SingleScoped) {s : Session} {h : Hearing}
    (hmem : h ∈ hearings s life) {j : Judgement} (hj : j ∈ h.judgements) :
    j.Classified h.tree := by
  induction life generalizing s with
  | nil => cases hmem
  | cons visit rest ih =>
    rcases List.mem_cons.mp hmem with rfl | hmem
    · obtain ⟨n, hn, s', hcrossing⟩ := crossing_of_mem hj
      rcases model_of_crossingAt hcrossing with ⟨hkind, hnode, hnamed, hmodel⟩ | hassociation
      · have houter := (hlife visit List.mem_cons_self).outermost_named hn hnamed
        obtain ⟨name, hname⟩ := Option.isSome_iff_exists.mp houter
        exact .inl ⟨hkind, name, hmodel.trans hname, hnode ▸ hname⟩
      · exact .inr hassociation
    · exact ih (fun visit hvisit => hlife visit (List.mem_cons_of_mem _ hvisit)) hmem

/-- In a life of inspections the source is asked exactly about the names of refused constants, each
once and in the order of the first refusals, and its answers are kept whether they are yes or no.  So
neither associations nor allowed references lead to a question.  An association is reported if it is
refused, and a constant if it is refused and the answer kept for its name is yes.  The judgements are
made without the source; as it is asked once about each name, one that changes its mind is covered. -/
theorem questions_of_life (settings : Settings) (root : Option Path) (source : Persistence.Source)
    (trail : Option Audit.Trail) (life : List (FileSystem × SourceTree))
    (hlife : ∀ visit ∈ life, visit.2.SingleScoped) :
    let s := Session.start settings root source trail
    let p := Protection.ofSettings settings root
    let heard := Inspection.hearings s.core life
    let memo := (Inspection.after s life).memo
    memo.asked = (heard.flatMap fun h =>
        h.judgements.filterMap (Judgement.refusedConstant? h.tree)).eraseDups ∧
      memo.asked.Nodup ∧
      (∀ name ∈ memo.asked, memo.answer? name = some (source name).isModel) ∧
      Inspection.history s life = heard.map (fun h =>
        Judgement.report memo p h.tree.path (p.ownerOf h.tree.path) (h.judgements, h.failure)) ∧
      ∀ h ∈ heard, ∀ j ∈ h.judgements,
        (j.kind = "association" ∧ (j.isReported memo = true ↔ j.verdict.allowed = false)) ∨
          (j.kind = "const" ∧ ∃ name, h.tree.constName (h.tree.outermost j.crossing.node) =
              some name ∧
            (j.isReported memo = true ↔
              j.verdict.allowed = false ∧ memo.answer? name = some true)) := by
  intro s p heard memo
  have hclassified (h : Inspection.Hearing) (hh : h ∈ heard) (j : Judgement)
      (hj : j ∈ h.judgements) : j.Classified h.tree :=
    Inspection.classified_of_mem hlife hh hj
  obtain ⟨hasks, hreports⟩ := Inspection.run_life (show s.core = s.core.core from rfl) life
  have hquestions : (heard.flatMap fun h => h.judgements.filterMap Judgement.question?) =
      heard.flatMap fun h => h.judgements.filterMap (Judgement.refusedConstant? h.tree) :=
    List.flatMap_congr fun h hh => List.filterMap_congr fun j hj =>
      Judgement.question?_of_classified (hclassified h hh j hj)
  have hmemo : memo = Persistence.Memo.askAll {} source (heard.flatMap fun h =>
      h.judgements.filterMap (Judgement.refusedConstant? h.tree)) := by
    rw [← hquestions]
    exact hasks.memo
  have hlogs : memo.Logs (heard.flatMap fun h =>
      h.judgements.filterMap (Judgement.refusedConstant? h.tree)) := by
    have hstart : Persistence.Memo.Logs {} [] := ⟨rfl, rfl⟩
    rw [hmemo]
    exact Persistence.Memo.logs_askAll hstart source _
  have hagrees : memo.Agrees source := by
    have hstart : Persistence.Memo.Agrees {} source := nofun
    rw [hmemo]
    exact Persistence.Memo.agrees_askAll hstart _
  refine ⟨hlogs.asked, hlogs.asked ▸ (eraseDups_sublist _).2, fun name hname => ?_,
    hreports memo fun _ _ h => h, fun h hh j hj =>
      Judgement.isReported_of_classified (hclassified h hh j hj) memo⟩
  cases hanswer : memo.answer? name with
  | none =>
    rw [← hlogs.answered] at hname
    exact absurd hname (Persistence.Memo.answer?_eq_none.mp hanswer)
  | some answer => rw [hagrees name answer hanswer]

def orderObject : Value :=
  .record
    [("type", .text "const"), ("value", .text "Order"), ("source", .text "Shop::Order"),
      ("line", .int 3), ("column", .int 2),
      ("children", .list
        [.record
          [("type", .text "const"), ("value", .text "Shop"), ("source", .text "Shop"),
            ("line", .int 3), ("column", .int 2), ("children", .list [.null])]])]

theorem singleScoped_orderUse : orderUse.SingleScoped where
  accepted := by
    refine ⟨.record [("path", .text "app/cart.rb"), ("root", orderObject)], ?_⟩
    exact SourceTree.ofValue_record (by decide) (by intro h; cases h) (by decide +kernel)
  scopes := by decide +kernel

/-- A constant that is refused twice and is no model is asked about once. -/
theorem questions_orderUse :
    let s := Session.start shopSettings none (Persistence.ofList []) none
    let life := [(PublicApi.Catalog.shopFiles, orderUse), (PublicApi.Catalog.shopFiles, orderUse)]
    (∀ visit ∈ life, visit.2.SingleScoped) ∧
      (Inspection.hearings s.core life).map
        (fun h => h.judgements.filterMap (Judgement.refusedConstant? h.tree)) =
        [["Shop::Order"], ["Shop::Order"]] ∧
      (Inspection.after s life).memo.asked = ["Shop::Order"] ∧
      (Inspection.after s life).memo.answer? "Shop::Order" = some false := by
  intro s life
  have hlife (visit : FileSystem × SourceTree) (hvisit : visit ∈ life) : visit.2.SingleScoped := by
    simp only [life, List.mem_cons, List.not_mem_nil, or_false, or_self] at hvisit
    rw [hvisit]
    exact singleScoped_orderUse
  have hrefused : (Inspection.hearings s.core life).map
      (fun h => h.judgements.filterMap (Judgement.refusedConstant? h.tree)) =
        [["Shop::Order"], ["Shop::Order"]] := by decide +kernel
  obtain ⟨hasked, -, hanswers, -⟩ :=
    questions_of_life shopSettings none (Persistence.ofList []) none life hlife
  have hnames : (Inspection.after s life).memo.asked = ["Shop::Order"] := by
    rw [hasked, List.flatMap_def, hrefused]
    decide
  refine ⟨hlife, hrefused, hnames, hanswers "Shop::Order" ?_⟩
  rw [hnames]
  exact List.mem_cons_self

end Bulkhead
