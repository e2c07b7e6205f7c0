import Mathlib.Data.List.Perm.Subperm
import ProtoSchema.Proofs.Bookkeeping
import ProtoSchema.Proofs.MessageGraph
import ProtoSchema.Proofs.Termination
import ProtoSchema.Proofs.Tracking

/-!
Nested bodies. A body is kept once it is complete, and every body in it was complete before it; so the
messages along a path stand as they are kept, the latest first, and none of them comes twice.
-/
namespace ProtoSchema

namespace Bodies

variable {bodies : Bodies} {ids more : List Nat}

/-- Along every path, messages come in the order of the list. -/
def Within (bodies : Bodies) (ids : List Nat) : Prop := ∀ path, (bodies.along path).Sublist ids

theorem Within.mono (within : bodies.Within ids) (kept : ids <:+ more) : bodies.Within more :=
  fun path => (within path).trans kept.sublist

theorem along_none (path : List Descent) : none.along path = [] := by
  induction path with
  | nil => rfl
  | cons descent path ih => exact ih

theorem within_none : none.Within ids := fun path => by
  rw [along_none]
  exact List.nil_sublist ids

theorem Within.under (within : bodies.Within ids) (descent : Descent) :
    (bodies.under descent).Within ids := by
  intro path
  cases path with
  | nil => exact List.nil_sublist ids
  | cons first path =>
      have below : (bodies.under descent).below first = if first = descent then bodies else none := by
        funext rest
        change (if first = descent then bodies rest else Option.none) = _
        split <;> rfl
      change (((bodies.under descent).below first).along path).Sublist ids
      rw [below]
      split
      · exact within path
      · exact within_none path

theorem within_ofMessage {id : Nat} {properties : List (String × Bodies)}
    (inside : ∀ entry ∈ properties, entry.2.Within ids) : (ofMessage id properties).Within (id :: ids) := by
  intro path
  cases path with
  | nil => exact (List.nil_sublist ids).cons_cons id
  | cons descent path =>
      refine List.Sublist.cons_cons id ?_
      cases descent with
      | property name =>
          cases found : properties.lookup name with
          | none =>
              have below : (ofMessage id properties).below (.property name) = none := by
                funext rest
                simp [Bodies.below, ofMessage, found, none]
              rw [below]
              exact within_none path
          | some inner =>
              have below : (ofMessage id properties).below (.property name) = inner := by
                funext rest
                simp [Bodies.below, ofMessage, found]
              rw [below]
              exact inside _ (mem_of_lookup found) path
      | items => exact within_none path
      | values => exact within_none path

end Bodies

def Tracked.ids (tracked : Tracked) : List Nat := tracked.finished.map (·.1)

/-- Every message is kept once, and what is inside its body is kept too, the inner after the outer. -/
structure Tracked.Orderly (model : Model) (tracked : Tracked) : Prop where
  apart : tracked.ids.Nodup
  plain : ∀ id ∈ tracked.ids, id ∈ model.plainMessages
  within : ∀ id schema bodies, (id, schema, bodies) ∈ tracked.finished → bodies.Within tracked.ids

theorem Tracked.orderly_start (model : Model) : ({} : Tracked).Orderly model where
  apart := List.nodup_nil
  plain _ member := absurd member List.not_mem_nil
  within _ _ _ member := absurd member List.not_mem_nil

namespace Tracking

variable {α β : Type} {model : Model} {active ids : List Nat} {ending : α → List Nat → Prop}
  {last : β → List Nat → Prop} {tracking : Tracking α}

/-- The end of a computation that began where `ids` were kept: none of the active messages is new among
those that are kept, and a value is as `ending` says. -/
structure Ends (model : Model) (active ids : List Nat) (ending : α → List Nat → Prop)
    (result : Except Failure α) (after : Tracked) : Prop where
  orderly : after.Orderly model
  grown : ∃ new, after.ids = new ++ ids ∧ ∀ id ∈ new, id ∉ active
  ending : ∀ value, result = .ok value → ending value after.ids

def Orders (model : Model) (active ids : List Nat) (ending : α → List Nat → Prop) (tracking : Tracking α) :
    Prop :=
  ∀ before, before.Orderly model → before.ids = ids →
    Ends model active ids ending (tracking.runFrom before).1 (tracking.runFrom before).2

theorem orders_pure {value : α} (holds : ending value ids) :
    Orders model active ids ending (pure value : Tracking α) := by
  rintro before orderly rfl
  refine ⟨orderly, ⟨[], rfl, fun _ member => absurd member List.not_mem_nil⟩, fun other same => ?_⟩
  cases same
  exact holds

theorem orders_throw {failure : Failure} :
    Orders model active ids ending (throw failure : Tracking α) := by
  rintro before orderly rfl
  exact ⟨orderly, ⟨[], rfl, fun _ member => absurd member List.not_mem_nil⟩, nofun⟩

theorem orders_report {event : Event} :
    Orders model active ids (fun _ now => now = ids) (report event) := by
  rintro before ⟨apart, plain, within⟩ rfl
  exact ⟨⟨apart, plain, within⟩, ⟨[], rfl, fun _ member => absurd member List.not_mem_nil⟩,
    fun _ _ => rfl⟩

theorem Orders.bind {next : α → Tracking β} (first : Orders model active ids ending tracking)
    (second : ∀ value now, ids <:+ now → ending value now → Orders model active now last (next value)) :
    Orders model active ids last (tracking >>= next) := by
  intro before orderly kept
  obtain ⟨orderly, ⟨new, grown, fresh⟩, ends⟩ := first before orderly kept
  rw [runFrom_bind]
  generalize tracking.runFrom before = ended at orderly grown ends ⊢
  obtain ⟨failure | value, after⟩ := ended
  · exact ⟨orderly, ⟨new, grown, fresh⟩, nofun⟩
  · obtain ⟨orderly, ⟨more, further, apart⟩, ends⟩ :=
      second value _ ⟨new, grown.symm⟩ (ends value rfl) after orderly rfl
    refine ⟨orderly, ⟨more ++ new, by rw [further, grown, List.append_assoc], ?_⟩, ends⟩
    intro id member
    rcases List.mem_append.1 member with later | earlier
    · exact apart id later
    · exact fresh id earlier

theorem orders_lift_bind {result : Except Failure α} {next : α → Tracking β}
    (follows : ∀ value, Orders model active ids last (next value)) :
    Orders model active ids last ((liftM result : Tracking α) >>= next) := by
  cases result with
  | error failure => exact orders_throw
  | ok value => exact follows value

theorem Orders.map {change : α → β} (orders : Orders model active ids ending tracking)
    (maps : ∀ value now, ending value now → last (change value) now) :
    Orders model active ids last (change <$> tracking) := by
  rw [map_eq_pure_bind]
  exact orders.bind fun value now _ holds => orders_pure (maps value now holds)

theorem orders_mapM {perform : β → Tracking α} {steps : List β}
    (mono : ∀ value now later, now <:+ later → ending value now → ending value later)
    (each : ∀ step ∈ steps, ∀ now, Orders model active now ending (perform step)) :
    Orders model active ids (fun values now => ∀ value ∈ values, ending value now)
      (steps.mapM perform) := by
  induction steps generalizing ids with
  | nil => exact orders_pure fun _ member => absurd member List.not_mem_nil
  | cons step rest ih =>
      rw [List.mapM_cons]
      refine (each step List.mem_cons_self ids).bind fun value now _ holds => ?_
      refine (ih fun other member => each other (List.mem_cons_of_mem step member)).bind
        fun values later kept hold => ?_
      exact orders_pure (List.forall_mem_cons.2 ⟨mono value now later kept holds, hold⟩)

/-- A message that is not active is kept with its body, which stands before all that it is made of. -/
theorem orders_once {id : Nat} {track : Tracking (Schema × Bodies)} (fresh : id ∉ active)
    (plain : id ∈ model.plainMessages)
    (derives : Orders model (id :: active) ids (fun made now => made.2.Within (id :: now)) track) :
    Orders model active ids (fun made now => made.2.Within now) (once id track) := by
  intro before orderly same
  rw [runFrom_once]
  cases kept : before.finished.lookup id with
  | some made =>
      refine ⟨orderly, ⟨[], same, fun _ member => absurd member List.not_mem_nil⟩, fun other found => ?_⟩
      cases found
      exact orderly.within id made.1 made.2 (mem_of_lookup kept)
  | none =>
      obtain ⟨after, ⟨new, grown, apart⟩, ends⟩ := derives before orderly same
      dsimp only
      generalize track.runFrom before = ended at after grown ends ⊢
      obtain ⟨failure | made, last⟩ := ended
      · exact ⟨after, ⟨new, grown, fun other member => mt (List.mem_cons_of_mem id) (apart other member)⟩,
          nofun⟩
      · have absent : id ∉ last.ids := by
          rw [grown, ← same]
          intro member
          rcases List.mem_append.1 member with later | earlier
          · exact apart id later List.mem_cons_self
          · exact not_mem_of_lookup kept earlier
        refine ⟨⟨List.nodup_cons.2 ⟨absent, after.apart⟩, List.forall_mem_cons.2 ⟨plain, after.plain⟩, ?_⟩,
          ⟨id :: new, congrArg (id :: ·) grown, List.forall_mem_cons.2 ⟨fresh, fun other member =>
            mt (List.mem_cons_of_mem id) (apart other member)⟩⟩, ?_⟩
        · intro other schema bodies member
          rcases List.mem_cons.1 member with here | earlier
          · cases here
            exact ends _ rfl
          · exact (after.within other schema bodies earlier).mono (List.suffix_cons id _)
        · intro other found
          cases found
          exact ends _ rfl

end Tracking

namespace Derivation

open Tracking (Orders)

variable {derivation : Derivation} {active : List Nat}
  {track : (id : Nat) → (referenceAllowed : Bool) → Tracking (Slot Schema × Bodies)}

theorem Frame.within_bodies {bodies : Bodies} {ids : List Nat} (frame : Frame)
    (within : bodies.Within ids) : (frame.bodies bodies).Within ids := by
  induction frame with
  | field repeated description =>
      cases repeated with
      | true => exact within.under .items
      | false => exact within
  | map description values ih => exact ih.under .values

theorem trackedProperty_orders
    (tracks : ∀ id referenceAllowed, derivation.Inlinable id → ∀ ids,
      Orders derivation.model active ids (fun made now => made.2.Within now) (track id referenceAllowed))
    (owner : String) (field : Field) (ids : List Nat) :
    Orders derivation.model active ids (fun made now => made.2.Within now)
      (derivation.trackedProperty track owner field) := by
  unfold trackedProperty
  cases outlined : derivation.fieldOutline owner field with
  | error failure => exact Tracking.orders_throw
  | ok outline =>
      have content : Orders derivation.model active ids (fun made now => made.2.Within now)
          (outline.content.trackedBy track) := by
        cases asked : outline.content with
        | written schema => exact Tracking.orders_pure Bodies.within_none
        | message id referenceAllowed =>
            obtain ⟨_, -, -, known⟩ := typeOutline_asks (fieldOutline_asks outlined asked)
            exact tracks id referenceAllowed known ids
      refine content.bind fun ⟨slot, bodies⟩ now _ within => ?_
      refine Tracking.orders_lift_bind fun property => ?_
      exact Tracking.orders_pure (outline.frame.within_bodies within)

theorem trackedBody_orders
    (tracks : ∀ id referenceAllowed, derivation.Inlinable id → ∀ ids,
      Orders derivation.model active ids (fun made now => made.2.Within now) (track id referenceAllowed))
    (id : Nat) (message : Message) (ids : List Nat) :
    Orders derivation.model active ids (fun made now => made.2.Within (id :: now))
      (derivation.trackedBody track id message) := by
  unfold trackedBody
  refine Tracking.orders_lift_bind fun own => ?_
  have fields : Orders derivation.model active ids (fun made now => ∀ entry ∈ made, entry.2.Within now)
      (message.fields.mapM (derivation.trackedProperty track message.absoluteName)) :=
    Tracking.orders_mapM (fun _ _ _ kept within => within.mono kept) fun field _ now =>
      trackedProperty_orders tracks message.absoluteName field now
  refine fields.bind fun properties later _ within => ?_
  refine Tracking.orders_report.bind fun _ last _ same => Tracking.orders_pure ?_
  subst same
  refine Bodies.within_ofMessage fun entry member => ?_
  obtain ⟨⟨property, bodies⟩, listed, rfl⟩ := List.mem_map.1 (Entries.mem_of_mem_ofList member)
  exact within _ listed

theorem trackedSlot_orders (active : List Nat) (id : Nat) (referenceAllowed : Bool)
    (inlinable : derivation.Inlinable id) (ids : List Nat) :
    Orders derivation.model active ids (fun made now => made.2.Within now)
      (derivation.trackedSlot active id referenceAllowed) := by
  fun_induction trackedSlot derivation active id referenceAllowed generalizing ids with
  | case1 => exact Tracking.orders_pure Bodies.within_none
  | case2 => exact Tracking.orders_pure Bodies.within_none
  | case3 => exact Tracking.orders_report.bind fun _ _ _ _ => Tracking.orders_pure Bodies.within_none
  | case4 active id referenceAllowed message found apart fresh _ ih =>
      obtain ⟨other, same, plain⟩ := inlinable
      cases found.symm.trans same
      have once := Tracking.orders_once fresh (Model.mem_plainMessages found plain)
        (trackedBody_orders (fun id referenceAllowed known now => ih id referenceAllowed known now) id
          message ids)
      exact once.map fun _ _ within => within

theorem trackedSchema_orders (id : Nat) (ids : List Nat) :
    Orders derivation.model [] ids (fun reply now => ∀ made, reply = some made → made.2.Within now)
      (derivation.trackedSchema id) := by
  unfold trackedSchema
  cases found : derivation.model.message? id with
  | none => exact Tracking.orders_pure nofun
  | some message =>
      dsimp only
      split
      · exact Tracking.orders_pure nofun
      · rename_i plain
        have once := Tracking.orders_once List.not_mem_nil
          (Model.mem_plainMessages found (Bool.not_eq_true _ ▸ plain))
          (trackedBody_orders (trackedSlot_orders [id]) id message ids)
        refine once.map fun made now within other same => ?_
        cases same
        exact within

theorem tracked_orders (call : Call) (ids : List Nat) :
    Orders derivation.model [] ids (fun reply now => ∀ made, reply = some made → made.2.Within now)
      (derivation.tracked call) := by
  cases call with
  | message id => exact trackedSchema_orders id ids
  | enum id =>
      refine Tracking.orders_pure fun made same => ?_
      obtain ⟨enum, -, rfl⟩ := Option.map_eq_some_iff.1 same
      exact Bodies.within_none

/-- Messages whose bodies stand along a path are all different, and so not more than there are. -/
theorem apart_of_within {bodies : Bodies} {model : Model} {tracked : Tracked} (orderly : tracked.Orderly model)
    (within : bodies.Within tracked.ids) (path : List Descent) :
    (bodies.along path).Nodup ∧ (bodies.along path).length ≤ model.plainMessages.length := by
  have apart : (bodies.along path).Nodup := (within path).nodup orderly.apart
  exact ⟨apart, (List.subperm_of_subset apart fun id member =>
    orderly.plain id ((within path).mem member)).length_le⟩

theorem apart_of_mem_trackedReplies {calls : List Call} {before : Tracked} {schema : Schema}
    {bodies : Bodies} (orderly : before.Orderly derivation.model)
    (member : .ok (some (schema, bodies)) ∈ derivation.trackedReplies calls before) (path : List Descent) :
    (bodies.along path).Nodup ∧
      (bodies.along path).length ≤ derivation.model.plainMessages.length := by
  induction calls generalizing before with
  | nil => cases member
  | cons call calls ih =>
      obtain ⟨after, -, ends⟩ := tracked_orders call before.ids before orderly rfl
      rcases List.mem_cons.1 member with here | later
      · exact apart_of_within after (ends _ here.symm _ rfl) path
      · exact ih after later

/-- No body stands inside another body of its message, whatever is called for and however the messages
lead back to each other: along every path of a schema, each message has one body at most. -/
theorem replies_nest_once (model : Model) (settings : Settings) (unit : List Nat) (calls : List Call) :
    ((ofUnit model settings unit).trackedReplies calls {}).map (Except.map (Option.map Prod.fst)) =
        (ofUnit model settings unit).replies calls {} ∧
      ∀ schema bodies, .ok (some (schema, bodies)) ∈ (ofUnit model settings unit).trackedReplies calls {} →
        ∀ path, (bodies.along path).Nodup ∧ (bodies.along path).length ≤ model.plainMessages.length :=
  ⟨trackedReplies_map calls {}, fun _ _ member =>
    apart_of_mem_trackedReplies (Tracked.orderly_start model) member⟩

/-- In an orchard, the trees stand under their names inside the orchard. -/
theorem replies_nest_once_orchard :
    ∃ schema bodies,
      .ok (some (schema, bodies)) ∈
        (ofUnit Model.orchard {} [0, 2]).trackedReplies [.message 2, .message 0] {} ∧
      bodies.along [.property "trees", .values] = [0, 2] ∧
      (bodies.along [.property "trees", .values]).Nodup ∧
      (bodies.along [.property "trees", .values]).length ≤ Model.orchard.plainMessages.length := by
  have ended : ((((ofUnit Model.orchard {} [0, 2]).trackedReplies [.message 2, .message 0] {}).getLast?.bind
      fun reply => reply.toOption.join).map fun made =>
        made.2.along [.property "trees", .values]) = some [0, 2] := by decide +kernel
  obtain ⟨⟨schema, bodies⟩, last, places⟩ := Option.map_eq_some_iff.1 ended
  obtain ⟨reply, ends, made⟩ := Option.bind_eq_some_iff.1 last
  have member := List.mem_of_getLast? ends
  cases reply with
  | error failure => cases made
  | ok answer =>
      rw [show answer = some (schema, bodies) from made] at member
      obtain ⟨apart, bound⟩ := (replies_nest_once Model.orchard {} [0, 2] [.message 2, .message 0]).2
        schema bodies member [.property "trees", .values]
      exact ⟨schema, bodies, member, places, apart, bound⟩

end Derivation

end ProtoSchema
