/-
What is left of an index of factories when a file could not be read.

An index is built when it is first asked for, from the files in order, and parents are settled at
the end.  A file that cannot be read makes that first call fail, but the files before it have been
taken in and stay: each later call answers them as the index, without parents settled, whether the
files can be read by then or not.  `answers_of_failed_build` says so for a failure at any place.
-/
import Bulkhead.Factory.Index
import Bulkhead.Proofs.Policy

namespace Bulkhead
namespace Factory

/-- The declarations of a file. -/
def declarations (t : SourceTree) : List Registration :=
  (t.root.map (registrations {})).getD []

/-- What calls on a ledger answer, each made with the trees as they can be read then. -/
def Ledger.answers (ledger : Ledger) :
    List (List (Except SourceTree.Failure SourceTree)) → List (Except SourceTree.Failure Index)
  | [] => []
  | trees :: later => (ledger.consult trees).1 :: (ledger.consult trees).2.1.answers later

namespace Index

/-! ## Taking in files -/

theorem addTrees_of_read (index : Index) (trees : List SourceTree) :
    index.addTrees (trees.map .ok) = (trees.foldl addTree index, none) := by
  induction trees generalizing index with
  | nil => rfl
  | cons t rest ih => exact ih (index.addTree t)

theorem addTrees_of_failure (index : Index) (front : List SourceTree) (failure : SourceTree.Failure)
    (rest : List (Except SourceTree.Failure SourceTree)) :
    index.addTrees (front.map .ok ++ .error failure :: rest) =
      (front.foldl addTree index, some failure) := by
  induction front generalizing index with
  | nil => rfl
  | cons t front ih => exact ih (index.addTree t)

theorem mem_addNames {pair : String × String} {value : String} {names : List String} {made : Names}
    (h : pair ∈ addNames value names made) :
    (pair.1 ∈ names ∧ pair.2 = value) ∨ pair ∈ made := by
  induction names generalizing made with
  | nil => exact .inr h
  | cons name names ih =>
    rcases ih h with ⟨hname, hvalue⟩ | h
    · exact .inl ⟨List.mem_cons_of_mem name hname, hvalue⟩
    · rcases mem_putNamed h with rfl | h
      · exact .inl ⟨List.mem_cons_self, rfl⟩
      · exact .inr h

/-- Before parents are settled, the classes of a file are those its declarations without a parent
give. -/
theorem mem_classesOf {pair : String × String} {found : List Registration}
    (h : pair ∈ classesOf found) :
    ∃ r ∈ found, r.parent = none ∧ pair.1 ∈ r.names ∧ pair.2 = r.className := by
  have hfold (found : List Registration) (made : Names)
      (h : pair ∈ found.foldl (fun made r =>
        if r.parent.isNone then addNames r.className r.names made else made) made) :
      pair ∈ made ∨ ∃ r ∈ found, r.parent = none ∧ pair.1 ∈ r.names ∧ pair.2 = r.className := by
    induction found generalizing made with
    | nil => exact .inl h
    | cons r found ih =>
      rcases ih _ h with h | ⟨r', hmem, hdeclared⟩
      · dsimp only at h
        by_cases hparent : r.parent.isNone
        · rw [if_pos hparent] at h
          rcases mem_addNames h with hdeclared | h
          · exact .inr ⟨r, List.mem_cons_self, Option.isNone_iff_eq_none.mp hparent, hdeclared⟩
          · exact .inl h
        · rw [if_neg hparent] at h
          exact .inl h
      · exact .inr ⟨r', List.mem_cons_of_mem r hmem, hdeclared⟩
  exact (hfold found [] h).resolve_left List.not_mem_nil

/-- The files of an index are those that were taken in. -/
theorem mem_classes_foldl {file : String × Names} {index : Index} {trees : List SourceTree}
    (h : file ∈ (trees.foldl addTree index).classes) :
    file ∈ index.classes ∨ ∃ t ∈ trees, file = (t.path, classesOf (declarations t)) := by
  induction trees generalizing index with
  | nil => exact .inl h
  | cons t trees ih =>
    rcases ih h with h | ⟨t', hmem, hfile⟩
    · rcases mem_putNamed h with hfile | h
      · exact .inr ⟨t, List.mem_cons_self, hfile⟩
      · exact .inl h
    · exact .inr ⟨t', List.mem_cons_of_mem t hmem, hfile⟩

/-- What is found in files that were only taken in was declared there without a parent. -/
theorem declared_of_lookup? {trees : List SourceTree} {name className : String}
    (h : (trees.foldl addTree {}).lookup? name = some className) :
    ∃ t ∈ trees, ∃ r ∈ declarations t,
      r.parent = none ∧ name ∈ r.names ∧ className = r.className := by
  obtain ⟨file, hfile, hnamed⟩ := List.exists_of_findSome?_eq_some h
  rcases mem_classes_foldl hfile with hnone | ⟨t, ht, rfl⟩
  · cases hnone
  · exact ⟨t, ht, mem_classesOf (mem_of_named? hnamed)⟩

end Index

/-! ## Calls -/

theorem Ledger.answers_of_kept (index : Index)
    (calls : List (List (Except SourceTree.Failure SourceTree))) :
    answers ⟨some index⟩ calls = calls.map fun _ => .ok index := by
  induction calls with
  | nil => rfl
  | cons trees later ih => exact congrArg (.ok index :: ·) ih

/-- A call that fails keeps what it had taken in. -/
theorem Ledger.answers_of_failure {trees : List (Except SourceTree.Failure SourceTree)}
    {index : Index} {failure : SourceTree.Failure}
    (h : Index.addTrees {} trees = (index, some failure))
    (later : List (List (Except SourceTree.Failure SourceTree))) :
    answers {} (trees :: later) = .error failure :: later.map fun _ => .ok index := by
  have hcall : consult {} trees = (.error failure, ⟨some index⟩, []) := by
    simp only [consult, h]
  rw [answers, hcall, answers_of_kept]

/-- A call that does not fail settles the parents. -/
theorem Ledger.answers_of_read {trees : List (Except SourceTree.Failure SourceTree)}
    {index : Index} (h : Index.addTrees {} trees = (index, none))
    (later : List (List (Except SourceTree.Failure SourceTree))) :
    answers {} (trees :: later) =
      .ok index.resolve.1 :: later.map fun _ => .ok index.resolve.1 := by
  have hcall : (consult {} trees).1 = .ok index.resolve.1 ∧
      (consult {} trees).2.1 = ⟨some index.resolve.1⟩ := by
    simp only [consult, h, and_self]
  rw [answers, hcall.1, hcall.2, answers_of_kept]

/-- When a tree cannot be read, the call that reads it fails, and every later call answers the trees
before it as the index, whatever can be read by then.  In that index a name is found only if it is
declared without a parent: no parent has been settled.  A new ledger fails again, or settles the
parents of all trees. -/
theorem answers_of_failed_build (front : List SourceTree) (failure : SourceTree.Failure)
    (rest : List (Except SourceTree.Failure SourceTree))
    (later : List (List (Except SourceTree.Failure SourceTree))) :
    let trees := front.map .ok ++ .error failure :: rest
    let kept := front.foldl Index.addTree {}
    Ledger.answers {} (trees :: later) = .error failure :: later.map (fun _ => .ok kept) ∧
      (∀ name className, kept.lookup? name = some className →
        ∃ t ∈ front, ∃ r ∈ declarations t,
          r.parent = none ∧ name ∈ r.names ∧ className = r.className) ∧
      Ledger.answers {} [trees] = [.error failure] ∧
      ∀ repaired : List SourceTree, Ledger.answers {} [repaired.map .ok] =
        [.ok (repaired.foldl Index.addTree {}).resolve.1] := by
  intro trees kept
  refine ⟨?_, fun _ _ => Index.declared_of_lookup?, ?_, fun repaired => ?_⟩
  · exact Ledger.answers_of_failure (Index.addTrees_of_failure {} front failure rest) later
  · exact Ledger.answers_of_failure (Index.addTrees_of_failure {} front failure rest) []
  · exact Ledger.answers_of_read (Index.addTrees_of_read {} repaired) []

/-- A file with a factory that has a parent. -/
def paidFile : SourceTree where
  path := "spec/factories/paid.rb"
  root := some (.node .send (some "factory") "factory :paid, parent: :invoice" ⟨1, 0⟩
    [none, some (.node .sym (some "paid") ":paid" ⟨1, 8⟩ []),
      some (.node .hash none "parent: :invoice" ⟨1, 15⟩
        [some (.node .pair none "parent: :invoice" ⟨1, 15⟩
          [some (.node .sym (some "parent") "parent" ⟨1, 15⟩ []),
            some (.node .sym (some "invoice") ":invoice" ⟨1, 23⟩ [])])])])

/-- The file with the parent. -/
def invoiceFile : SourceTree where
  path := "spec/factories/invoice.rb"
  root := some (.node .send (some "factory") "factory :invoice" ⟨1, 0⟩
    [none, some (.node .sym (some "invoice") ":invoice" ⟨1, 8⟩ [])])

/-- Once the second file can be read, a ledger that has failed on it still does not know of it, nor
what the first file builds; a new ledger does. -/
theorem paid_lost :
    (Ledger.answers {} [[.ok paidFile, .error .notJson], [.ok paidFile, .error .notJson],
        [.ok paidFile, .ok invoiceFile]]).map (Except.map (·.lookup? "paid")) =
      [.error .notJson, .ok none, .ok none] ∧
      (Ledger.answers {} [[.ok paidFile, .ok invoiceFile]]).map (Except.map (·.lookup? "paid")) =
        [.ok (some "Invoice")] := by
  decide +kernel

end Factory
end Bulkhead
