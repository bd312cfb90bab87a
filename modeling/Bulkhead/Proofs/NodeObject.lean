/-
Node objects of a tree document, as the document nests them.

Every notion here is read off the objects themselves: their fields, the entries of their field
`children`, and the objects around them.  None of it asks whether the document is accepted, and none
of it numbers anything.  The theorem that ties it to branches is `reads_of_ofValue`: the branch of an
object has the fields of the object, and its slots stand for the entries of `children`, slot by
slot.
-/
import Mathlib.Data.List.Forall2
import Bulkhead.SourceTree.Document

namespace Bulkhead

theorem Kind.name_ofName (name : String) : (Kind.ofName name).name = name := by
  unfold Kind.ofName
  simp only
  cases h : List.find? (fun kind : Kind => kind.name == name) _ with
  | none => rfl
  | some kind =>
    have hname := List.find?_some h
    exact eq_of_beq hname

namespace Value

/-! ## The slots of a node object -/

/-- The object in a slot.  An entry that is null leaves the slot empty. -/
def slot? (v : Value) (j : Nat) : Option Value :=
  match v.items[j]? with
  | some .null => none
  | item => item

theorem sizeOf_get?_lt {name : String} {fields : Fields} {v : Value}
    (h : Fields.get? name fields = some v) : sizeOf v < sizeOf fields := by
  induction fields with
  | nil => cases h
  | cons field rest ih =>
    obtain ⟨key, value⟩ := field
    unfold Fields.get? at h
    split at h
    · cases h
      simp only [List.cons.sizeOf_spec, Prod.mk.sizeOf_spec]
      omega
    · have := ih h
      simp only [List.cons.sizeOf_spec]
      omega

theorem one_lt_sizeOf (v : Value) : 1 < sizeOf v := by
  cases v with
  | scalar s => cases s <;> simp only [Value.scalar.sizeOf_spec, Scalar.null.sizeOf_spec,
      Scalar.bool.sizeOf_spec, Scalar.int.sizeOf_spec, Scalar.real.sizeOf_spec,
      Scalar.text.sizeOf_spec] <;> omega
  | list items => cases items <;> simp only [Value.list.sizeOf_spec, List.nil.sizeOf_spec,
      List.cons.sizeOf_spec] <;> omega
  | object fields => cases fields <;> simp only [Value.object.sizeOf_spec,
      List.nil.sizeOf_spec, List.cons.sizeOf_spec] <;> omega

theorem sizeOf_items_lt (v : Value) : sizeOf v.items < sizeOf v := by
  unfold items
  split
  · next items h =>
    cases v with
    | object fields =>
      have := sizeOf_get?_lt h
      simp only [Value.list.sizeOf_spec, Value.object.sizeOf_spec] at this ⊢
      omega
    | scalar s => cases h
    | list l => cases h
  · exact one_lt_sizeOf v

theorem slot?_eq_some {v c : Value} {j : Nat} :
    v.slot? j = some c ↔ v.items[j]? = some c ∧ c ≠ .null := by
  unfold slot?
  split
  · next h =>
    rw [h]
    constructor
    · intro hc
      cases hc
    · rintro ⟨hc, hnull⟩
      cases hc
      exact absurd rfl hnull
  · next h =>
    constructor
    · intro hc
      refine ⟨hc, ?_⟩
      rintro rfl
      exact h hc
    · exact fun hc => hc.1

theorem sizeOf_slot?_lt {v c : Value} {j : Nat} (h : v.slot? j = some c) :
    sizeOf c < sizeOf v := by
  have hmem : c ∈ v.items := List.mem_of_getElem? (slot?_eq_some.mp h).1
  exact Nat.lt_trans (List.sizeOf_lt_of_mem hmem) (sizeOf_items_lt v)

/-- The text of a node object: its own, or else put together from its value and, for a constant, the
text of its scope. -/
def source (v : Value) : String :=
  match v.ownSource with
  | some own => own
  | none =>
    let word := v.given.getD ""
    match v.kind with
    | .cbase => "::"
    | .const => underScope word ((v.slot? 0).attach.map fun scope => scope.1.source)
    | .str => Json.quoted word
    | .sym => ":" ++ word
    | _ => word
termination_by sizeOf v
decreasing_by exact sizeOf_slot?_lt scope.2

/-! ## Sites -/

end Value

/-- A node object where it stands in a document: with the objects around it, the nearest first, each
with the slot that leads on.  Two equal objects at two places of a document are two sites. -/
structure Site where
  object : Value
  above : List (Value × Nat)

namespace Site

/-- The site in a slot of a site. -/
def child? (s : Site) (j : Nat) : Option Site :=
  (s.object.slot? j).map fun c => ⟨c, (s.object, j) :: s.above⟩

theorem child?_eq_some {s c : Site} {j : Nat} :
    s.child? j = some c ↔
      s.object.slot? j = some c.object ∧ c.above = (s.object, j) :: s.above := by
  unfold child?
  rw [Option.map_eq_some_iff]
  constructor
  · rintro ⟨object, hslot, rfl⟩
    exact ⟨hslot, rfl⟩
  · rintro ⟨hslot, habove⟩
    exact ⟨c.object, hslot, by rw [← habove]⟩

end Site

namespace Value

mutual

/-- The sites of an object and of all objects below it, in reading order. -/
def sites (above : List (Value × Nat)) (v : Value) : List Site :=
  ⟨v, above⟩ :: sitesIn v above 0 v.items
termination_by sizeOf v
decreasing_by exact sizeOf_items_lt v

/-- The sites below an object, where the entries given are those of the slots from `j` on. -/
def sitesIn (v : Value) (above : List (Value × Nat)) (j : Nat) : List Value → List Site
  | [] => []
  | .null :: rest => sitesIn v above (j + 1) rest
  | item :: rest => sites ((v, j) :: above) item ++ sitesIn v above (j + 1) rest
termination_by items => sizeOf items

end

end Value

/-! ## Branches -/

namespace Branch

/-- An entry of `children` and the slot that stands for it. -/
inductive SlotReads : Value → Option Branch → Prop
  | empty : SlotReads .null none
  | filled {item : Value} {b : Branch} (hnull : item ≠ .null) (h : ofValue item = b) :
      SlotReads item (some b)

/-- The branch has the fields of the object. -/
structure Reads (v : Value) (b : Branch) : Prop where
  kind : b.kind = v.kind
  value : b.value = v.given
  source : b.source = v.source
  location : b.location = v.location
  slots : List.Forall₂ SlotReads v.items b.slots

theorem slotsOfItems_reads (items : List Value) :
    List.Forall₂ SlotReads items (slotsOfItems items) := by
  induction items with
  | nil =>
    rw [slotsOfItems]
    exact .nil
  | cons item rest ih =>
    by_cases hnull : item = .null
    · rw [hnull, slotsOfItems_null]
      exact .cons .empty ih
    · rw [slotsOfItems_cons hnull]
      exact .cons (.filled hnull rfl) ih

/-- An entry of `children` and its slot are both filled, both empty or both missing. -/
theorem slot_cases {items : List Value} {slots : List (Option Branch)}
    (h : List.Forall₂ SlotReads items slots) (j : Nat) :
    (∃ item b, items[j]? = some item ∧ item ≠ .null ∧ slots[j]? = some (some b) ∧
        ofValue item = b) ∨
      (items[j]? = some .null ∧ slots[j]? = some none) ∨
      (items[j]? = none ∧ slots[j]? = none) := by
  induction h generalizing j with
  | nil => exact .inr (.inr ⟨rfl, rfl⟩)
  | cons hslot _ ih =>
    cases j with
    | zero =>
      cases hslot with
      | empty => exact .inr (.inl ⟨rfl, rfl⟩)
      | filled hnull h => exact .inl ⟨_, _, rfl, hnull, rfl, h⟩
    | succ j => exact ih j

theorem source_ofValue (v : Value) : (ofValue v).source = v.source := by
  rw [ofValue_eq, Value.source]
  show v.ownSource.getD (v.kind.derivedSource v.given _) = _
  cases v.ownSource with
  | some own => rfl
  | none =>
    show v.kind.derivedSource v.given _ = _
    unfold Kind.derivedSource
    cases v.kind with
    | const =>
      simp only [Option.attach_map_val]
      rcases slot_cases (slotsOfItems_reads v.items) 0 with
        ⟨item, scope, hitem, hnull, hslot, rfl⟩ | hempty | hempty
      · have hscope : v.slot? 0 = some item := Value.slot?_eq_some.mpr ⟨hitem, hnull⟩
        have := Value.sizeOf_slot?_lt hscope
        rw [hslot, hscope, Option.map_some, ← source_ofValue item]
        rfl
      all_goals
        have habsent : v.slot? 0 = none := by
          rw [Value.slot?, hempty.1]
        rw [hempty.2, habsent]
        rfl
    | _ => rfl
termination_by sizeOf v

theorem reads_of_ofValue {v : Value} {b : Branch} (h : ofValue v = b) : Reads v b := by
  subst h
  have hsource := source_ofValue v
  rw [ofValue_eq] at hsource ⊢
  exact ⟨rfl, rfl, hsource, rfl, slotsOfItems_reads v.items⟩

end Branch
end Bulkhead
