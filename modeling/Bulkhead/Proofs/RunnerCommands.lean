/-
What reaches the command that asks the application about a constant.

Anyone who writes a class name in a source file chooses the name that is asked about, and the name
becomes part of a command.  `ask_runs` says how little of a choice that is: a command is run only for
a path of constants, the name stands where the template has its field and nowhere else, and only a
command that succeeds and prints the base of the models makes the answer yes.  Every outcome of the
command is an answer.  But there is none where the attempt to run it has no outcome, and a runner
cannot be made without a command.
-/
import Bulkhead.Persistence
import Bulkhead.Proofs.Splitting
import Mathlib.Data.List.Forall2

namespace Bulkhead
namespace Persistence

theorem ofSettings?_eq_none {settings : ModelSettings} {run : List String → Outcome} :
    ofSettings? settings run = none ↔ isListed settings = false ∧ settings.command = [] := by
  rw [ofSettings?]
  cases isListed settings with
  | true => simp
  | false =>
    cases settings.command with
    | nil => simp
    | cons part rest => simp

namespace Runner

/-- The field of a command that stands for the name. -/
def nameField : List Char :=
  "\x7bname\x7d".toList

/-- The field does not return to its brace, so each part of a command has one reading. -/
theorem commandFor_replaces (r : Runner) (name : String) :
    List.Forall₂ (fun part made => Text.Replaces nameField name.toList part.toList made.toList)
      r.command (r.commandFor name) := by
  have hfield : nameField = '\x7b' :: "name\x7d".toList := by decide +kernel
  rw [commandFor, List.forall₂_map_right_iff]
  apply List.forall₂_same.mpr
  intro part _
  rw [String.toList_ofList, hfield]
  exact (Text.replaces_iff (by decide +kernel)).mpr rfl

/-- The outcome of a command is an answer unless there is none. -/
theorem interpret_eq_error {r : Runner} {name : String} {outcome : Outcome} {escape : Escape} :
    r.interpret name outcome = .error escape ↔ outcome = .escaped escape := by
  cases outcome with
  | finished status output =>
    rw [interpret]
    split <;> simp
  | timedOut => simp [interpret]
  | unavailable reason => simp [interpret]
  | escaped escape' => simp [interpret]

theorem interpret_iff {r : Runner} {name : String} {outcome : Outcome} {answer : Bool × List Note}
    (h : r.interpret name outcome = .ok answer) :
    answer.1 = true ↔
      ∃ output, outcome = .finished 0 output ∧
        Text.IsToken r.persistenceBase.toList output.toList := by
  cases outcome with
  | finished status output =>
    rw [interpret] at h
    split at h
    next hstatus =>
      subst hstatus
      cases h
      rw [List.contains_iff_mem, Text.mem_words_iff]
      constructor
      · intro h
        exact ⟨output, rfl, h⟩
      · rintro ⟨printed, heq, h⟩
        cases heq
        exact h
    next hstatus =>
      cases h
      refine ⟨fun h => ?_, fun ⟨_, heq, _⟩ => ?_⟩
      · cases h
      · cases heq
        exact absurd rfl hstatus
  | timedOut =>
    cases h
    refine ⟨fun h => ?_, fun ⟨_, heq, _⟩ => ?_⟩
    · cases h
    · cases heq
  | unavailable reason =>
    cases h
    refine ⟨fun h => ?_, fun ⟨_, heq, _⟩ => ?_⟩
    · cases h
    · cases heq
  | escaped escape => cases h

section Ask

variable (r : Runner) {given : String}

theorem attempt?_of_isPath (h : Constant.isPath (Constant.bare given) = true) :
    r.attempt? given =
      some ⟨r.commandFor (Constant.bare given), r.timeout, r.workingDirectory⟩ := by
  rw [attempt?, if_pos h]

theorem attempt?_of_not_isPath (h : ¬ Constant.isPath (Constant.bare given) = true) :
    r.attempt? given = none := by
  rw [attempt?, if_neg h]

theorem ask_of_attempt {attempt : Run} (run : List String → Outcome)
    (h : r.attempt? given = some attempt) :
    r.ask run given =
      (r.interpret (Constant.bare given) (run attempt.command)).map fun answer =>
        { isModel := answer.1, notes := answer.2, runs := [attempt] } := by
  rw [ask, h]

/-- Without a command the answer is no. -/
theorem ask_of_none (run : List String → Outcome) (h : r.attempt? given = none) :
    ∃ reply : Reply, r.ask run given = .ok reply ∧ reply.isModel = false ∧ reply.runs = [] := by
  rw [ask, h]
  exact ⟨_, rfl, rfl, rfl⟩

end Ask

end Runner
end Persistence
end Bulkhead
