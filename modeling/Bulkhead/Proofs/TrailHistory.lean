/-
What a trail keeps and passes on over its whole life.

The object of an event gives its payload back as it was, at every depth.  The events of a trail are
those since it was last cleared, and a listener receives those that are emitted while it is attached,
cleared or not.  What this means is said of the list of calls alone (`Call.kept`, `Call.heard`), and
a trail is then followed call by call.  The result is `trail_lossless`.
-/
import Bulkhead.Proofs.AuditTrail
import Mathlib.Data.List.DropRight

namespace Bulkhead

namespace Fields

theorem put_of_new {name : Scalar} {fields : Fields} (h : name ∉ fields.map Prod.fst)
    (value : Value) : put name value fields = fields ++ [(name, value)] := by
  induction fields with
  | nil => rfl
  | cons field rest ih =>
    obtain ⟨key, old⟩ := field
    rw [List.map_cons, List.mem_cons, not_or] at h
    rw [put, if_neg (Ne.symm h.1), ih h.2, List.cons_append]

/-- Values with new names are put at the end, in their order. -/
theorem foldl_put_of_nodup (own fields : List (String × Value))
    (h : ((own ++ fields).map Prod.fst).Nodup) :
    Value.object (fields.foldl (fun made field => put (.text field.1) field.2 made)
      (own.map fun field => (.text field.1, field.2))) = .record (own ++ fields) := by
  induction fields generalizing own with
  | nil => rw [List.append_nil, List.foldl_nil, Value.record]
  | cons field rest ih =>
    have hnew : Scalar.text field.1 ∉
        (own.map fun field => (Scalar.text field.1, field.2)).map Prod.fst := by
      rw [List.map_append, List.nodup_append] at h
      intro hmem
      rw [List.map_map, List.mem_map] at hmem
      obtain ⟨other, hother, hsame⟩ := hmem
      exact h.2.2 _ (List.mem_map_of_mem hother) _ (List.mem_map_of_mem List.mem_cons_self)
        (Scalar.text.inj hsame)
    have hput : put (.text field.1) field.2 (own.map fun field => (.text field.1, field.2)) =
        (own ++ [field]).map fun field => (.text field.1, field.2) := by
      rw [put_of_new hnew, List.map_append, List.map_singleton]
    rw [List.append_cons] at h ⊢
    rw [List.foldl_cons, hput, ih _ h]

end Fields

namespace Audit

/-! ## The object of an event -/

namespace Event

/-- The names that the object of an event has besides those of the payload. -/
def ownNames : List String :=
  ["event", "path", "line"]

end Event

/-- Named values for an event: each name once, and none of those that the event has itself. -/
structure Payload where
  fields : List (String × Value)
  nodup : (fields.map Prod.fst).Nodup
  apart : ∀ name ∈ Event.ownNames, name ∉ fields.map Prod.fst

theorem Payload.nodup_names (payload : Payload) :
    (Event.ownNames ++ payload.fields.map Prod.fst).Nodup := by
  refine List.nodup_append.mpr ⟨by decide, payload.nodup, ?_⟩
  rintro name hown _ hmem rfl
  exact payload.apart name hown hmem

/-- The values of the payload come back as they were, behind those of the event itself. -/
theorem Event.toValue_ofFields (name path : String) (line : Int) (payload : Payload) :
    (ofFields name path line payload.fields).toValue =
      .record (("event", .text name) :: ("path", .text path) :: ("line", .int line) ::
        payload.fields) := by
  rw [ofFields, toValue, List.foldl_map]
  simp only [Datum.toValue_ofValue]
  exact Fields.foldl_put_of_nodup
    [("event", .text name), ("path", .text path), ("line", .int line)] payload.fields
    payload.nodup_names

/-! ## The calls on a trail -/

/-- What can be done with a trail. -/
inductive Call where
  | emit (e : Event)
  | clear
  | attach (listener : Option Nat)

namespace Call

def event? : Call → Option Event
  | emit e => some e
  | clear => none
  | attach _ => none

def isClear : Call → Bool
  | emit _ => false
  | clear => true
  | attach _ => false

/-- The listener that a call attaches; it may also leave the trail without one. -/
def attached? : Call → Option (Option Nat)
  | emit _ => none
  | clear => none
  | attach listener => some listener

/-- The events that were emitted after the last clear. -/
def kept (calls : List Call) : List Event :=
  (calls.rtakeWhile fun c => !c.isClear).filterMap event?

/-- The listener after some calls: the one attached last, or else the one at the start. -/
def listener (start : Option Nat) (calls : List Call) : Option Nat :=
  (calls.filterMap attached?).getLast?.getD start

/-- The events that were emitted while a listener was attached. -/
def heard (start : Option Nat) (calls : List Call) (who : Nat) : List Event :=
  calls.zipIdx.filterMap fun p =>
    if listener start (calls.take p.2) = some who then p.1.event? else none

variable (start : Option Nat) (calls : List Call) (c : Call) (who : Nat)

theorem kept_concat :
    kept (calls ++ [c]) = if c.isClear then [] else kept calls ++ c.event?.toList := by
  rw [kept, List.rtakeWhile_concat, kept]
  cases c.isClear with
  | true => rfl
  | false =>
    rw [Bool.not_false, if_pos rfl, if_neg Bool.false_ne_true, List.filterMap_append]
    cases c <;> rfl

theorem listener_concat :
    listener start (calls ++ [c]) = c.attached?.getD (listener start calls) := by
  rw [listener, List.filterMap_append, List.getLast?_append, listener]
  cases c <;> rfl

theorem heard_concat :
    heard start (calls ++ [c]) who =
      heard start calls who ++
        if listener start calls = some who then c.event?.toList else [] := by
  rw [heard, List.zipIdx_append, List.filterMap_append, heard]
  congr 1
  · refine List.filterMap_congr fun p hp => ?_
    -- A call that comes later is not among those before the place.
    have hplace : p.2 ≤ calls.length := Nat.le_of_lt (List.snd_lt_of_mem_zipIdx hp)
    rw [List.take_append_of_le_length hplace]
  · rw [List.zipIdx_singleton, Nat.zero_add, List.filterMap_cons, List.take_left]
    by_cases hwho : listener start calls = some who
    · rw [if_pos hwho, if_pos hwho]
      cases c <;> rfl
    · rw [if_neg hwho, if_neg hwho]
      rfl

variable {c} in
/-- Only an event is heard. -/
theorem heard_concat_of_none (h : c.event? = none) :
    heard start (calls ++ [c]) who = heard start calls who := by
  rw [heard_concat, h, Option.toList_none, ite_self, List.append_nil]

theorem listener_filter :
    listener start (calls.filter fun c => !c.isClear) = listener start calls := by
  rw [listener, List.filterMap_filter, listener]
  congr 3
  funext c
  cases c <;> rfl

/-- It makes no difference to a listener whether the trail is cleared. -/
theorem heard_filter :
    heard start (calls.filter fun c => !c.isClear) who = heard start calls who := by
  -- From the right, as the listener of an event depends on the calls before it.
  induction calls using List.reverseRecOn with
  | nil => rfl
  | append_singleton calls c ih =>
    rw [List.filter_append, List.filter_singleton]
    cases c with
    | emit e =>
      rw [isClear, Bool.not_false, cond_true, heard_concat, heard_concat, ih, listener_filter]
    | clear =>
      rw [isClear, Bool.not_true, cond_false, List.append_nil, ih,
        heard_concat_of_none start calls who rfl]
    | attach listener =>
      rw [isClear, Bool.not_false, cond_true, heard_concat_of_none start _ who rfl,
        heard_concat_of_none start calls who rfl, ih]

end Call

namespace Trail

variable {t : Trail} {start : Option Nat} {calls : List Call}

def call (t : Trail) : Call → Trail
  | .emit e => t.emit e
  | .clear => t.clear
  | .attach listener => t.attach listener

/-- A new trail after some calls. -/
def after (start : Option Nat) (calls : List Call) : Trail :=
  calls.foldl call { listener := start }

theorem received_emit (t : Trail) (e : Event) (who : Nat) :
    (t.emit e).received who =
      t.received who ++ if t.listener = some who then [e] else [] := by
  rw [received, emit, List.filterMap_append, received]
  congr 1
  cases t.listener with
  | none => rfl
  | some listener => by_cases hwho : listener = who <;> simp [hwho]

/-- The trail is as the calls say. -/
structure Reflects (t : Trail) (start : Option Nat) (calls : List Call) : Prop where
  events : t.events = Call.kept calls
  listener : t.listener = Call.listener start calls
  received : ∀ who, t.received who = Call.heard start calls who

theorem Reflects.call (h : t.Reflects start calls) (c : Call) :
    (t.call c).Reflects start (calls ++ [c]) where
  events := by
    rw [Call.kept_concat, ← h.events]
    cases c with
    | emit e => rfl
    | clear => rfl
    | attach listener => exact (List.append_nil t.events).symm
  listener := by
    rw [Call.listener_concat, ← h.listener]
    cases c <;> rfl
  received who := by
    cases c with
    | emit e =>
      rw [Call.heard_concat, ← h.received, ← h.listener]
      exact t.received_emit e who
    | clear =>
      rw [Call.heard_concat_of_none start calls who rfl]
      exact h.received who
    | attach listener =>
      rw [Call.heard_concat_of_none start calls who rfl]
      exact h.received who

theorem reflects_after (start : Option Nat) (calls : List Call) :
    (after start calls).Reflects start calls := by
  induction calls using List.reverseRecOn with
  | nil => exact ⟨rfl, rfl, fun _ => rfl⟩
  | append_singleton calls c ih =>
    rw [after, List.foldl_append]
    exact ih.call c

end Trail

/-- After any calls on a trail: an event that is emitted next has, as an object, its own fields and
those of its payload, unchanged; the events are those that were emitted since the last clear; and a
listener has received those that were emitted while it was attached, as it would have without the
clears. -/
theorem trail_lossless (start : Option Nat) (calls : List Call) :
    let t := Trail.after start calls
    (∀ (name path : String) (line : Int) (payload : Payload),
        (t.emit (.ofFields name path line payload.fields)).events.getLast?.map Event.toValue =
          some (.record (("event", .text name) :: ("path", .text path) :: ("line", .int line) ::
            payload.fields))) ∧
      t.events = Call.kept calls ∧
      ∀ listener,
        t.received listener = Call.heard start calls listener ∧
          t.received listener =
            (Trail.after start (calls.filter fun c => !c.isClear)).received listener := by
  have hreflects := Trail.reflects_after start calls
  refine ⟨fun name path line payload => ?_, hreflects.events, fun listener => ⟨?_, ?_⟩⟩
  · rw [Trail.emit, List.getLast?_concat, Option.map_some, Event.toValue_ofFields]
  · exact hreflects.received listener
  · rw [hreflects.received, (Trail.reflects_after start _).received, Call.heard_filter]

/-- A payload with a list and an object in it. -/
def invoiceFields : List (String × Value) :=
  [("lineage", .texts ["Billing", "Billing::Invoice"]),
    ("nested", .record [("allowed", .bool false)])]

theorem nodup_invoiceFields : (invoiceFields.map Prod.fst).Nodup := by
  decide

theorem apart_invoiceFields : ∀ name ∈ Event.ownNames, name ∉ invoiceFields.map Prod.fst := by
  decide

def invoicePayload : Payload :=
  ⟨invoiceFields, nodup_invoiceFields, apart_invoiceFields⟩

/-- A trail that nobody listens to at first, and that is cleared before one listener takes the place
of another. -/
def relayCalls : List Call :=
  [.emit (.ofFields "unheard" "app/x.rb" 1 []), .attach (some 0),
    .emit (.ofFields "cleared" "app/x.rb" 2 []), .clear,
    .emit (.ofFields "kept" "app/x.rb" 3 []), .attach (some 1),
    .emit (.ofFields "relayed" "app/x.rb" 4 [])]

theorem lossless_relayCalls :
    let t := Trail.after none relayCalls
    t.events.map Event.name = ["kept", "relayed"] ∧
      (t.received 0).map Event.name = ["cleared", "kept"] ∧
      (t.received 1).map Event.name = ["relayed"] ∧
      (t.emit (.ofFields "seen" "app/x.rb" 5 invoiceFields)).events.getLast?.map Event.toValue =
        some (.record [("event", .text "seen"), ("path", .text "app/x.rb"), ("line", .int 5),
          ("lineage", .texts ["Billing", "Billing::Invoice"]),
          ("nested", .record [("allowed", .bool false)])]) := by
  obtain ⟨hemit, hevents, hreceived⟩ := trail_lossless none relayCalls
  refine ⟨?_, ?_, ?_, hemit "seen" "app/x.rb" 5 invoicePayload⟩
  · rw [hevents]
    rfl
  · rw [(hreceived 0).1]
    rfl
  · rw [(hreceived 1).1]
    rfl

end Audit
end Bulkhead
