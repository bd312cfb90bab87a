/-
The trail of an inspection and its offenses tell the same.

Every judgement puts an event on the trail, and a second one if it is a refusal of something that is
no model.  The offenses are the refusals on the trail that stand, in their order, and a session
without a trail decides and asks the same.  This is `trail_explains`.
-/
import Bulkhead.Proofs.JudgedReferences

namespace Bulkhead

namespace Audit

namespace Datum

mutual

theorem toValue_ofValue (v : Value) : (ofValue v).toValue = v := by
  cases v with
  | scalar s => rw [ofValue, toValue]
  | list items => rw [ofValue, toValue, toValues_ofValues]
  | object fields => rw [ofValue, toValue, toFields_ofFields]

theorem toValues_ofValues (items : List Value) : toValues (ofValues items) = items := by
  cases items with
  | nil => rw [ofValues, toValues]
  | cons v rest => rw [ofValues, toValues, toValue_ofValue, toValues_ofValues]

theorem toFields_ofFields (fields : List (Scalar × Value)) :
    toFields (ofFields fields) = fields := by
  cases fields with
  | nil => rw [ofFields, toFields]
  | cons field rest => rw [ofFields, toFields, toValue_ofValue, toFields_ofFields]

end

end Datum

namespace Event

/-- The value of a field of the payload. -/
def field? (e : Event) (name : String) : Option Value :=
  (named? name e.payload).map Datum.toValue

/-- What an event was made with can be read off it. -/
theorem field?_ofFields (name path : String) (line : Int) (fields : List (String × Value))
    (key : String) : (ofFields name path line fields).field? key = named? key fields := by
  rw [field?, ofFields]
  induction fields with
  | nil => rfl
  | cons field rest ih =>
    dsimp only
    rw [List.map_cons, named?, named?]
    by_cases hkey : field.1 = key
    · rw [if_pos hkey, if_pos hkey, Option.map_some, Datum.toValue_ofValue]
    · rw [if_neg hkey, if_neg hkey]
      exact ih

/-- The event says that a reference was refused. -/
def isRefusal (e : Event) : Bool :=
  e.name == "reference_checked" &&
    match e.field? "allowed" with
    | some (.bool allowed) => !allowed
    | _ => false

/-- The event says that what was refused is no model. -/
def isSkip (e : Event) : Bool :=
  e.name == "non_model_skipped"

/-- The refusals that are not taken back by the event that comes next. -/
def standing : List Event → List Event
  | [] => []
  | e :: rest =>
    if e.isRefusal && !rest.head?.any isSkip then e :: standing rest else standing rest

end Event

namespace Trail

/-- The trail after some more events. -/
def emitAll (t : Trail) (events : List Event) : Trail :=
  { t with
    events := t.events ++ events
    passed := t.passed ++
      events.flatMap fun e => (t.listener.map fun listener => (listener, e)).toList }

theorem emitAll_nil (t : Trail) : t.emitAll [] = t := by
  rw [emitAll, List.flatMap_nil, List.append_nil, List.append_nil]

theorem emitAll_singleton (t : Trail) (e : Event) : t.emitAll [e] = t.emit e := by
  rw [emitAll, emit, List.flatMap_singleton]

theorem emitAll_append (t : Trail) (first second : List Event) :
    (t.emitAll first).emitAll second = t.emitAll (first ++ second) := by
  rw [emitAll, emitAll, emitAll, List.flatMap_append, List.append_assoc, List.append_assoc]

end Trail
end Audit

namespace Session

/-- A session after another, with the given events put on the trail in between. -/
def Emits (s s' : Session) (events : List Audit.Event) : Prop :=
  s'.trail = s.trail.map fun trail => trail.emitAll events

namespace Emits

variable {s₁ s₂ s₃ : Session}

theorem of_eq (h : s₂.trail = s₁.trail) : s₁.Emits s₂ [] := by
  rw [Emits, h, funext Audit.Trail.emitAll_nil, Option.map_id']

theorem trans {first second : List Audit.Event} (h₁ : s₁.Emits s₂ first)
    (h₂ : s₂.Emits s₃ second) : s₁.Emits s₃ (first ++ second) := by
  rw [Emits, h₂, h₁, Option.map_map]
  exact congrArg (s₁.trail.map ·) (funext fun trail => trail.emitAll_append first second)

theorem keep {events : List Audit.Event} (h : s₁.Emits s₂ events) (hsame : s₃.trail = s₂.trail) :
    s₁.Emits s₃ events :=
  hsame.trans h

end Emits

theorem emits_emit (e : Audit.Event) (s : Session) : s.Emits ((emit e).run s).2 [e] := by
  obtain ⟨protection, catalog, source, engines, guarded, memo, trail, journal⟩ := s
  cases trail with
  | none => rfl
  | some trail => exact congrArg some (trail.emitAll_singleton e).symm

/-- The answer about a name: the one that was kept, or else that of the source. -/
def answer (s : Session) (name : String) : Bool :=
  (s.memo.ask s.source name).1

end Session

/-! ## Answers along a run -/

namespace Persistence
namespace Memo

/-- A question does not change what is answered to another. -/
theorem ask_ask (m : Memo) (source : Source) (name name' : String) :
    ((m.ask source name).2.1.ask source name').1 = (m.ask source name').1 := by
  cases hknown' : m.answer? name' with
  | some answer =>
    rw [ask_of_known source (extends_ask m source name name' answer hknown'),
      ask_of_known source hknown']
  | none =>
    cases hknown : m.answer? name with
    | some answer => rw [ask_of_known source hknown]
    | none =>
      by_cases hsame : name = name'
      · subst hsame
        rw [ask_of_known source (answer?_ask m source name)]
      · have hnew : (m.ask source name).2.1.answer? name' = none := by
          rw [answer?_of_append _ (ask_of_new source hknown).2, hknown', if_neg hsame]
          rfl
        rw [(ask_of_new source hnew).1, (ask_of_new source hknown').1]

theorem ask_askAll (m : Memo) (source : Source) (names : List String) (name : String) :
    ((m.askAll source names).ask source name).1 = (m.ask source name).1 := by
  induction names generalizing m with
  | nil => rfl
  | cons first rest ih => exact (ih _).trans (ask_ask m source first name)

theorem answer?_askAll {names : List String} {name : String} (h : name ∈ names) (m : Memo)
    (source : Source) : (m.askAll source names).answer? name = some (m.ask source name).1 := by
  induction names generalizing m with
  | nil => cases h
  | cons first rest ih =>
    rcases List.mem_cons.mp h with rfl | h
    · exact extends_askAll _ source rest name _ (answer?_ask m source name)
    · rw [← ask_ask m source first name]
      exact ih h _

end Memo
end Persistence

theorem Session.Asks.answer {s s' : Session} {names : List String} (h : s.Asks s' names) :
    s'.answer = s.answer := by
  funext name
  rw [Session.answer, Session.answer, h.memo, h.source]
  exact Persistence.Memo.ask_askAll s.memo s.source names name

/-! ## What is put on the trail -/

namespace Judgement

def checked (path : String) (current : Option String) (j : Judgement) : Audit.Event :=
  Inspection.checkedEvent path j.kind j.crossing current j.verdict

/-- The events of a judgement, when questions about models are answered as given: there is a second
one if something is refused that has a name to ask about, and the answer is no. -/
def events (path : String) (current : Option String) (answer : String → Bool) (j : Judgement) :
    List Audit.Event :=
  j.checked path current ::
    match j.crossing.model with
    | none => []
    | some model =>
      if j.verdict.allowed = false ∧ answer model = false then
        [Inspection.skippedEvent path j.crossing model]
      else []

variable {path : String} {current : Option String} {answer : String → Bool} {j : Judgement}

theorem events_of_allowed (h : j.verdict.allowed = true) :
    j.events path current answer = [j.checked path current] := by
  rw [events, h]
  cases j.crossing.model <;> rfl

theorem events_of_concern (h : j.crossing.model.all answer = true) :
    j.events path current answer = [j.checked path current] := by
  rw [events]
  cases hmodel : j.crossing.model with
  | none => rfl
  | some model =>
    rw [hmodel, Option.all_some] at h
    simp [h]

theorem events_of_skipped {model : String} (hrefused : j.verdict.allowed = false)
    (hmodel : j.crossing.model = some model) (hanswer : answer model = false) :
    j.events path current answer =
      [j.checked path current, Inspection.skippedEvent path j.crossing model] := by
  rw [events, hmodel, hrefused]
  simp [hanswer]

end Judgement

namespace Inspection

variable {fs : FileSystem} {t : SourceTree} {current : Option String}

theorem emits_check {path : String} (kind : String) {c : Crossing} {s s' : Session}
    {verdict : Verdict}
    (hjudge : (Session.judge fs c.toReach current path).run.run s = (.ok verdict, s')) :
    let r := (check fs path kind current c).run.run s
    s'.Emits r.2 (Judgement.events path current s'.answer ⟨kind, c, verdict⟩) := by
  intro r
  have hrun : r = _ := Session.run_bind_of_ok _ hjudge
  rw [Session.run_steady_bind] at hrun
  have hemits := Session.emits_emit (checkedEvent path kind c current verdict) s'
  have hanswer := (Session.run_emit (checkedEvent path kind c current verdict) s').2.asks.answer
  generalize ((Session.emit (checkedEvent path kind c current verdict)).run s').2 = s₁
    at hrun hemits hanswer
  cases hallowed : verdict.allowed with
  | true =>
    rw [hallowed] at hrun
    rw [hrun, Judgement.events_of_allowed hallowed]
    exact hemits
  | false =>
    rw [hallowed, if_neg Bool.false_ne_true, Session.run_get_bind] at hrun
    cases hmodel : c.model with
    | none =>
      simp only [hmodel] at hrun
      rw [hrun, Judgement.events_of_concern (by rw [hmodel]; rfl)]
      exact hemits
    | some model =>
      simp only [hmodel] at hrun
      rw [Session.requireAnswer_clear, pure_bind, Session.run_steady_bind] at hrun
      have hasked : ((Session.isModel model).run s₁).1 = s'.answer model := congrFun hanswer model
      have htrail : ((Session.isModel model).run s₁).2.trail = s₁.trail := rfl
      generalize (Session.isModel model).run s₁ = asked at hrun hasked htrail
      obtain ⟨answer, s₂⟩ := asked
      obtain rfl : answer = s'.answer model := hasked
      cases hyes : s'.answer model with
      | true =>
        rw [hyes] at hrun
        rw [hrun, Judgement.events_of_concern (by rw [hmodel]; exact hyes)]
        exact hemits.keep htrail
      | false =>
        rw [hyes] at hrun
        rw [hrun, Judgement.events_of_skipped hallowed hmodel hyes]
        exact (hemits.keep htrail).trans (Session.emits_emit (skippedEvent path c model) s₂)

variable (fs t current) in
theorem emits_checkNodes {s s' : Session} (hcore : s.core = s'.core) (nodes : List Node) :
    let judged := ((judgeNodes fs t current nodes).run s').1
    s.Emits ((checkNodes fs t current nodes).run.run s).2
      (judged.1.flatMap (Judgement.events t.path current s.answer)) := by
  induction nodes generalizing s s' with
  | nil => exact .of_eq rfl
  | cons n rest ih =>
    have hjudges₁ := judges_crossingAt fs t current n s
    rcases checkNodes_cases hcore fs t current n rest with
      ⟨s₁, s₁', hcore₁, hfound, hjudged, hchecked⟩ |
        ⟨kind, c, s₁, s₂, s₂', hcore₂, hfound, hverdict⟩
    · rw [hfound] at hjudges₁
      rw [hjudged, hchecked, ← hjudges₁.toKeeps.asks.answer]
      exact (Session.Emits.of_eq hjudges₁.trail).trans (ih hcore₁)
    · have hjudges₂ := judges_judge fs c.toReach current t.path s₁
      rw [hfound] at hjudges₁
      rcases hverdict with ⟨failure, hjudge, hjudged, hchecked⟩ |
        ⟨verdict, offense, s₃, hjudge, hcheck, hjudged, hchecked⟩
      · rw [hjudge] at hjudges₂
        rw [hjudged, hchecked]
        exact .of_eq (hjudges₁.trans hjudges₂).trail
      · obtain ⟨hcore₃, hasks₃, -⟩ := run_check kind hjudge
        have hemits := emits_check kind hjudge
        rw [hjudge] at hjudges₂
        rw [hcheck] at hcore₃ hasks₃ hemits
        have hjudges := hjudges₁.trans hjudges₂
        have hbelow := ih (hcore₃.trans hcore₂)
        rw [hasks₃.answer] at hbelow
        rw [hjudged, hchecked]
        dsimp only
        rw [← hjudges.toKeeps.asks.answer, List.flatMap_cons]
        exact (Session.Emits.of_eq hjudges.trail).trans (hemits.trans hbelow)

theorem trail_inspect (fs : FileSystem) (t : SourceTree) (s : Session) :
    ((inspect fs t).run.run s).2.trail =
      ((checkNodes fs t (s.protection.ownerOf t.path) t.nodes.toList).run.run
        s.revalidated).2.trail := by
  have hrun : (inspect fs t).run.run s = _ := Session.run_steady_bind ..
  have hrevalidated : (Session.revalidate.run s).2 = s.revalidated := rfl
  have hprotection : s.revalidated.protection = s.protection := rfl
  rw [Session.run_get_bind, hrevalidated, hprotection] at hrun
  generalize hchecked : (checkNodes fs t (s.protection.ownerOf t.path) t.nodes.toList).run.run
    s.revalidated = checked
  obtain ⟨answer, s'⟩ := checked
  cases answer with
  | error failure => rw [hrun, Session.run_bind_of_error _ hchecked]
  | ok offenses =>
    rw [hrun, Session.run_bind_of_ok _ hchecked]
    rfl

theorem emits_inspect (fs : FileSystem) (t : SourceTree) (s : Session) :
    let judged := ((judgements fs t).run s.core).1
    s.Emits ((inspect fs t).run.run s).2
      (judged.1.flatMap (Judgement.events t.path (s.protection.ownerOf t.path) s.answer)) := by
  have hcore : s.revalidated.core = s.core.revalidated := rfl
  exact (trail_inspect fs t s).trans (emits_checkNodes fs t _ hcore t.nodes.toList)

end Inspection

/-! ## What can be read off the trail -/

namespace Offense

/-- The text of a report where no side is strongly protected. -/
def plainText (engine : String) : String :=
  "Direct access of " ++ engine ++ " engine. Only access engine via " ++ engine ++ "::Api."

/-- Texts whose ends differ in a character, counted from the back, are not the same. -/
theorem append_ne_of_char {last last' : String} {i : Nat} {c c' : Char}
    (h : last.toList.reverse[i]? = some c) (h' : last'.toList.reverse[i]? = some c') (hne : c ≠ c')
    (start start' : String) : start ++ last ≠ start' ++ last' := by
  intro hsame
  have hchars := congrArg (fun text => text.toList.reverse[i]?) hsame
  simp only [String.toList_append, List.reverse_append] at hchars
  rw [List.getElem?_append_left (List.getElem?_eq_some_iff.mp h).1, h,
    List.getElem?_append_left (List.getElem?_eq_some_iff.mp h').1, h'] at hchars
  exact hne (Option.some.inj hchars)

theorem messageFor_eq_plainText {p : Protection} {engine : String} {current : Option String} :
    messageFor p engine current = plainText engine ↔
      ¬(p.isStrong current = true ∨ p.isStrong (some engine) = true) := by
  have hend : ("::Api.".toList.reverse)[1]? = some 'i' := by decide +kernel
  unfold messageFor
  by_cases hengine : p.isStrong (some engine) = true
  · rw [if_pos hengine]
    exact iff_of_false
      (append_ne_of_char (c := 't') (by decide +kernel) hend (by decide) _ _)
      (not_not_intro (.inr hengine))
  · rw [if_neg hengine]
    by_cases hcurrent : p.isStrong current = true
    · rw [if_pos hcurrent]
      exact iff_of_false
        (append_ne_of_char (c := 't') (by decide +kernel) hend (by decide) _ _)
        (not_not_intro (.inl hcurrent))
    · rw [if_neg hcurrent]
      exact iff_of_true rfl (not_or.mpr ⟨hcurrent, hengine⟩)

end Offense

/-- The event gives the grounds for the offense. -/
structure Audit.Event.Explains (e : Event) (o : Offense) : Prop where
  path : e.path = o.path
  line : e.line = o.location.line
  engine : e.field? "accessed_engine" = some (.text o.engine)
  current : e.field? "current_engine" = some (.textOrNull o.current)
  message : o.message = Offense.plainText o.engine ↔
    e.field? "reason" = some (.text "no_api_access")

namespace Judgement

variable {path : String} {current : Option String} {answer : String → Bool} {j : Judgement}

/-- The judgement is a refusal, and not of something that is no model. -/
def stands (answer : String → Bool) (j : Judgement) : Bool :=
  !j.verdict.allowed && j.crossing.model.all answer

theorem isRefusal_checked (path : String) (current : Option String) (j : Judgement) :
    (j.checked path current).isRefusal = !j.verdict.allowed := by
  rw [Audit.Event.isRefusal, checked, Inspection.checkedEvent, Audit.Event.field?_ofFields]
  simp [named?, Audit.Event.ofFields]

theorem isSkip_checked (path : String) (current : Option String) (j : Judgement) :
    (j.checked path current).isSkip = false := by
  simp [Audit.Event.isSkip, checked, Inspection.checkedEvent, Audit.Event.ofFields]

theorem explains_checked {p : Protection} (path : String)
    (hreason : j.verdict.reason = .noApiAccess ↔ ¬StronglyProtected p j.crossing.toReach current) :
    (j.checked path current).Explains (j.offense p path current) where
  path := rfl
  line := rfl
  engine := by
    rw [checked, Inspection.checkedEvent, Audit.Event.field?_ofFields]
    simp [named?, offense, Offense.ofCrossing]
  current := by
    rw [checked, Inspection.checkedEvent, Audit.Event.field?_ofFields]
    simp [named?, offense, Offense.ofCrossing]
  message := by
    have hfield : (j.checked path current).field? "reason" =
        some (.text j.verdict.reason.name) := by
      rw [checked, Inspection.checkedEvent, Audit.Event.field?_ofFields]
      simp [named?]
    have hname : j.verdict.reason.name = "no_api_access" ↔ j.verdict.reason = .noApiAccess := by
      cases j.verdict.reason <;> simp [Reason.name]
    have hmessage : (j.offense p path current).message = Offense.plainText j.crossing.engine ↔
        ¬StronglyProtected p j.crossing.toReach current := Offense.messageFor_eq_plainText
    rw [hfield, Option.some_inj, Value.text, Value.text, Value.scalar.injEq, Scalar.text.injEq,
      hname, hreason]
    exact hmessage

/-- A refusal stands on the trail if the judgement stands. -/
theorem standing_events {rest : List Audit.Event}
    (hrest : rest.head?.any Audit.Event.isSkip = false) :
    Audit.Event.standing (j.events path current answer ++ rest) =
      (if j.stands answer then [j.checked path current] else []) ++ Audit.Event.standing rest := by
  cases hallowed : j.verdict.allowed with
  | true =>
    rw [events_of_allowed hallowed, List.singleton_append, Audit.Event.standing, isRefusal_checked,
      stands, hallowed]
    rfl
  | false =>
    cases hconcern : j.crossing.model.all answer with
    | true =>
      rw [events_of_concern hconcern, List.singleton_append, Audit.Event.standing,
        isRefusal_checked, stands, hallowed, hconcern, hrest]
      rfl
    | false =>
      obtain ⟨model, hmodel⟩ : ∃ model, j.crossing.model = some model := by
        cases hmodel : j.crossing.model with
        | none =>
          rw [hmodel] at hconcern
          cases hconcern
        | some model => exact ⟨model, rfl⟩
      have hanswer : answer model = false := by
        rw [hmodel] at hconcern
        exact hconcern
      have hskip : (Inspection.skippedEvent path j.crossing model).isSkip = true := rfl
      have hnoRefusal : (Inspection.skippedEvent path j.crossing model).isRefusal = false := by
        simp [Audit.Event.isRefusal, Inspection.skippedEvent, Audit.Event.ofFields]
      rw [events_of_skipped hallowed hmodel hanswer, List.cons_append, List.singleton_append,
        Audit.Event.standing, List.head?_cons, Option.any_some, hskip, stands, hallowed, hconcern,
        Audit.Event.standing, hnoRefusal, Bool.not_true, Bool.and_false]
      rfl

theorem standing_flatMap (path : String) (current : Option String) (answer : String → Bool)
    (judged : List Judgement) :
    Audit.Event.standing (judged.flatMap (events path current answer)) =
      (judged.filter (stands answer)).map (checked path current) := by
  induction judged with
  | nil => rfl
  | cons j rest ih =>
    -- The next event, if there is one, is the first of a judgement and takes nothing back.
    have hrest : (rest.flatMap (events path current answer)).head?.any Audit.Event.isSkip =
        false := by
      cases rest with
      | nil => rfl
      | cons j' rest => exact isSkip_checked path current j'
    rw [List.flatMap_cons, standing_events hrest, ih, List.filter_cons]
    split <;> rfl

end Judgement

theorem Judgement.report_eq_ok {m : Persistence.Memo} {p : Protection} {path : String}
    {current : Option String} {judged : List Judgement × Option Failure}
    {offenses : List Offense} :
    report m p path current judged = .ok offenses ↔
      judged.2 = none ∧
        (judged.1.filter (isReported m)).map (offense p path current) = offenses := by
  rw [report]
  cases judged.2 with
  | some failure =>
    constructor
    · intro h
      cases h
    · rintro ⟨hnone, -⟩
      cases hnone
  | none => exact ⟨fun h => ⟨rfl, Except.ok.inj h⟩, fun h => congrArg Except.ok h.2⟩

/-- After an inspection the memo has the answer to each of its questions. -/
theorem Judgement.isReported_of_asks {s s' : Session} {judged : List Judgement}
    (h : s.Asks s' (judged.filterMap question?)) {j : Judgement} (hj : j ∈ judged) :
    j.isReported s'.memo = j.stands s.answer := by
  cases hallowed : j.verdict.allowed with
  | true => rw [isReported_of_allowed _ hallowed, stands, hallowed, Bool.not_true, Bool.false_and]
  | false =>
    rw [isReported_of_refused _ hallowed, stands, hallowed, Bool.not_false, Bool.true_and]
    cases hmodel : j.crossing.model with
    | none => rfl
    | some name =>
      have hmem : name ∈ judged.filterMap question? :=
        List.mem_filterMap.mpr ⟨j, hj, (question?_of_refused hallowed).trans hmodel⟩
      rw [Option.all_some, Option.all_some, h.memo, Persistence.Memo.answer?_askAll hmem,
        Session.answer]
      cases (s.memo.ask s.source name).1 <;> rfl

namespace Inspection

variable {fs : FileSystem} {t : SourceTree} {s : Session}

/-- An inspection reports what it has judged, by the answers that there are. -/
theorem inspect_eq_report (fs : FileSystem) (t : SourceTree) (s : Session) :
    ((inspect fs t).run.run s).1 = Judgement.report ((inspect fs t).run.run s).2.memo s.protection
        t.path (s.protection.ownerOf t.path) ((judgements fs t).run s.core).1 ∧
      s.Asks ((inspect fs t).run.run s).2
        (((judgements fs t).run s.core).1.1.filterMap Judgement.question?) := by
  obtain ⟨-, hasks, hreport⟩ := run_inspect (show s.core = s.core.core from rfl) fs t
  exact ⟨hreport _ fun _ _ h => h, hasks⟩

theorem forall₂_explains {offenses : List Offense}
    (h : ((inspect fs t).run.run s).1 = .ok offenses) :
    List.Forall₂ Audit.Event.Explains
      (Audit.Event.standing (((judgements fs t).run s.core).1.1.flatMap
        (Judgement.events t.path (s.protection.ownerOf t.path) s.answer))) offenses := by
  obtain ⟨hreport, hasks⟩ := inspect_eq_report fs t s
  obtain ⟨-, hreported⟩ := Judgement.report_eq_ok.mp (hreport.symm.trans h)
  rw [Judgement.standing_flatMap, ← hreported,
    List.filter_congr fun j hj => Judgement.isReported_of_asks hasks hj,
    List.forall₂_map_left_iff, List.forall₂_map_right_iff, List.forall₂_same]
  intro j hj
  obtain ⟨hmem, hstands⟩ := List.mem_filter.mp hj
  have hrefused : j.verdict.allowed = false := by
    rw [Judgement.stands, Bool.and_eq_true, Bool.not_eq_true'] at hstands
    exact hstands.1
  exact Judgement.explains_checked t.path (reason_of_judgement hmem hrefused)

end Inspection

/-- From any state of a session: its trail gets the events of the judgements on the references of
the file, in reading order, and the offenses are explained by the refusals among them that stand.
Without a trail there are the same offenses, and the same questions are asked. -/
theorem trail_explains {s : Session} {trail : Audit.Trail} (htrail : s.trail = some trail)
    (fs : FileSystem) (t : SourceTree) :
    let current := s.protection.ownerOf t.path
    let references := t.nodes.toList.filterMap fun n =>
      ((Inspection.crossingAt fs t current n).run s).1
    let judged := ((Inspection.judgements fs t).run s.core).1.1
    let emitted := judged.flatMap (Judgement.events t.path current s.answer)
    let r := (Inspection.inspect fs t).run.run s
    r.2.trail = some (trail.emitAll emitted) ∧
      judged.map Judgement.reference <+: references ∧
      (∀ offenses, r.1 = .ok offenses →
        judged.map Judgement.reference = references ∧
          List.Forall₂ Audit.Event.Explains (Audit.Event.standing emitted) offenses) ∧
      (Template.Formats s.catalog.apiPath → ∃ offenses, r.1 = .ok offenses) ∧
      let silent := (Inspection.inspect fs t).run.run { s with trail := none }
      silent.1 = r.1 ∧ silent.2.memo = r.2.memo := by
  obtain ⟨hfront, hall⟩ := Inspection.references_judgements fs t s
  obtain ⟨hreport, -⟩ := Inspection.inspect_eq_report fs t s
  dsimp only
  refine ⟨?_, hfront, fun offenses hoffenses => ⟨hall ?_, ?_⟩, fun hformats => ?_, ?_⟩
  · rw [Inspection.emits_inspect fs t s, htrail]
    rfl
  · exact (Judgement.report_eq_ok.mp (hreport.symm.trans hoffenses)).1
  · exact Inspection.forall₂_explains hoffenses
  · have hnone := Inspection.judgements_of_formats hformats fs t
    exact ⟨_, hreport.trans (Judgement.report_eq_ok.mpr ⟨hnone, rfl⟩)⟩
  · have hcore : { s with trail := none }.core = s.core := rfl
    exact Inspection.inspect_congr hcore rfl rfl fs t

/-- A file outside the engines that names two constants of one. -/
def cartUse : SourceTree where
  path := "app/cart.rb"
  root := some (.node .array none "[Shop::Order, Shop::Tax]" ⟨3, 0⟩
    [some (.node .const (some "Order") "Shop::Order" ⟨3, 1⟩
      [some (.node .const (some "Shop") "Shop" ⟨3, 1⟩ [none])]),
    some (.node .const (some "Tax") "Shop::Tax" ⟨4, 1⟩
      [some (.node .const (some "Shop") "Shop" ⟨4, 1⟩ [none])])])

def cartSession : Session :=
  .start shopSettings none (Persistence.ofList ["Shop::Order"]) (some {})

/-- Both constants are refused, but only the first is a model. -/
theorem trail_cartUse :
    let r := (Inspection.inspect PublicApi.Catalog.shopFiles cartUse).run.run cartSession
    (r.2.trail.map fun trail => trail.events.map fun e => (e.name, e.line)) =
        some [("reference_checked", 3), ("reference_checked", 4), ("non_model_skipped", 4)] ∧
      ∃ (e : Audit.Event) (offense : Offense), r.1 = .ok [offense] ∧ e.line = 3 ∧
        e.Explains offense := by
  obtain ⟨htrail, -, hexplained, hreturns, -⟩ :=
    trail_explains (show cartSession.trail = some {} from rfl) PublicApi.Catalog.shopFiles cartUse
  obtain ⟨offenses, hoffenses⟩ := hreturns (Template.formats_of_fill "" (by decide +kernel))
  have hforall := (hexplained offenses hoffenses).2
  have hevents : (((Inspection.judgements PublicApi.Catalog.shopFiles cartUse).run
        cartSession.core).1.1.flatMap (Judgement.events cartUse.path
          (cartSession.protection.ownerOf cartUse.path) cartSession.answer)).map
      (fun e => (e.name, e.line)) =
        [("reference_checked", 3), ("reference_checked", 4), ("non_model_skipped", 4)] := by
    decide +kernel
  have hlines : (Audit.Event.standing (((Inspection.judgements PublicApi.Catalog.shopFiles
        cartUse).run cartSession.core).1.1.flatMap (Judgement.events cartUse.path
          (cartSession.protection.ownerOf cartUse.path) cartSession.answer))).map
      (fun e => e.line) = [3] := by
    decide +kernel
  refine ⟨?_, ?_⟩
  · rw [htrail]
    exact congrArg some hevents
  · obtain ⟨e, hstanding, hline⟩ := List.map_eq_singleton_iff.mp hlines
    rw [hstanding] at hforall
    obtain ⟨offense, rest, hexplains, hrest, rfl⟩ := List.forall₂_cons_left_iff.mp hforall
    rw [List.forall₂_nil_left_iff.mp hrest] at hoffenses
    exact ⟨e, offense, hoffenses, hline, hexplains⟩

end Bulkhead
