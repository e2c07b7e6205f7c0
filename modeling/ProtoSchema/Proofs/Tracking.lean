import ProtoSchema.Proofs.Descriptions
import ProtoSchema.Proofs.Pass

/-!
Keeping track of bodies. A derivation that notes, beside every schema, which message the body at each
place of it was made from; without these notes it is the derivation itself.
-/
namespace ProtoSchema

/-- A step from a schema to one below it. -/
inductive Descent where
  | property (name : String)
  | items
  | values
deriving DecidableEq

/-- The bodies in a schema: the message whose body stands at the end of a path, if one does. -/
def Bodies : Type := List Descent → Option Nat

namespace Bodies

def none : Bodies := fun _ => Option.none

def below (bodies : Bodies) (descent : Descent) : Bodies := fun path => bodies (descent :: path)

/-- The bodies of a schema that has the given ones one step down, and no other. -/
def under (descent : Descent) (bodies : Bodies) : Bodies
  | [] => Option.none
  | first :: path => if first = descent then bodies path else Option.none

/-- The body of a message, around the bodies in its properties. -/
def ofMessage (id : Nat) (properties : List (String × Bodies)) : Bodies
  | [] => some id
  | .property name :: path => (properties.lookup name).bind fun bodies => bodies path
  | _ :: _ => Option.none

/-- The messages whose bodies stand along a path, the outermost first. -/
def along (bodies : Bodies) : List Descent → List Nat
  | [] => (bodies []).toList
  | descent :: path => (bodies []).toList ++ along (bodies.below descent) path

end Bodies

/-- A session that knows of every kept schema which bodies are in it. -/
structure Tracked where
  finished : List (Nat × Schema × Bodies) := []
  events : List Event := []

def Tracked.session (tracked : Tracked) : Session where
  finished := tracked.finished.map fun (id, schema, _) => (id, schema)
  events := tracked.events

abbrev Tracking := ExceptT Failure (StateM Tracked)

namespace Tracking

/-- How a computation ends when it starts from a tracked session, and the session it leaves. -/
def runFrom {α : Type} (tracking : Tracking α) (before : Tracked) : Except Failure α × Tracked :=
  (tracking.run.run before).run

def report (event : Event) : Tracking Unit :=
  modify fun tracked => { tracked with events := tracked.events ++ [event] }

def once (id : Nat) (derive : Tracking (Schema × Bodies)) : Tracking (Schema × Bodies) := do
  match (← get).finished.lookup id with
  | some kept => pure kept
  | none =>
    let made ← derive
    modify fun tracked => { tracked with finished := (id, made) :: tracked.finished }
    pure made

end Tracking

namespace Derivation

/-! ## The derivation with its notes -/

/-- The bodies in what a frame is put around stand below it. -/
def Frame.bodies : Frame → Bodies → Bodies
  | .field repeated _, bodies => if repeated then bodies.under .items else bodies
  | .map _ values, bodies => (values.bodies bodies).under .values

variable (derivation : Derivation)

def Content.trackedBy (track : (id : Nat) → (referenceAllowed : Bool) → Tracking (Slot Schema × Bodies)) :
    Content → Tracking (Slot Schema × Bodies)
  | .written schema => pure (schema, .none)
  | .message id referenceAllowed => track id referenceAllowed

def trackedProperty (track : (id : Nat) → (referenceAllowed : Bool) → Tracking (Slot Schema × Bodies))
    (owner : String) (field : Field) : Tracking (Property × Bodies) := do
  let outline ← derivation.fieldOutline owner field
  let (slot, bodies) ← outline.content.trackedBy track
  let property ← derivation.completed owner field outline slot
  pure (property, outline.frame.bodies bodies)

def trackedBody (track : (id : Nat) → (referenceAllowed : Bool) → Tracking (Slot Schema × Bodies))
    (id : Nat) (message : Message) : Tracking (Schema × Bodies) := do
  let name := message.absoluteName
  let own ← derivation.objectOf message
  let properties ← message.fields.mapM (derivation.trackedProperty track name)
  let schema := derivation.assemble message own (properties.map (·.1))
  Tracking.report (.derived name schema.properties.length)
  pure (schema, .ofMessage id
    (Entries.ofList (properties.map fun (property, bodies) => (property.name, bodies))))

/-- What stands for a message that a field names. Only where its schema is written out, there is a body
of it. -/
def trackedSlot (active : List Nat) (id : Nat) (referenceAllowed : Bool) :
    Tracking (Slot Schema × Bodies) :=
  match found : derivation.model.message? id with
  | none => pure (Schema.object, .none)
  | some message =>
    if referenceAllowed ∧ id ∈ derivation.components ∧ derivation.settings.useRef then
      pure (Slot.component message.absoluteName, .none)
    else if entered : id ∈ active then do
      Tracking.report <|
        if id ∈ derivation.components then .recursionReferenced message.absoluteName
        else .recursionOpened message.absoluteName
      pure (derivation.returnSlot id message.absoluteName referenceAllowed, .none)
    else
      have := unvisited_cons_lt (Model.lt_of_message? found) entered
      (fun (schema, bodies) => (Slot.inline schema, bodies)) <$>
        Tracking.once id (derivation.trackedBody (trackedSlot (id :: active)) id message)
termination_by unvisited derivation.model.messages.length active

def trackedSchema (id : Nat) : Tracking (Option (Schema × Bodies)) :=
  match derivation.model.message? id with
  | none => pure none
  | some message =>
    if message.mapEntry then pure none
    else some <$> Tracking.once id (derivation.trackedBody (derivation.trackedSlot [id]) id message)

/-- The schema that is called for, with the bodies in it. An enum has none. -/
def tracked : Call → Tracking (Option (Schema × Bodies))
  | .message id => derivation.trackedSchema id
  | .enum id => pure ((derivation.model.enum? id).map fun enum => (derivation.enumSchema enum, .none))

def trackedReplies : List Call → Tracked → List (Except Failure (Option (Schema × Bodies)))
  | [], _ => []
  | call :: calls, before =>
    let (reply, after) := (derivation.tracked call).runFrom before
    reply :: trackedReplies calls after

end Derivation

/-! ## Without the notes -/

namespace Tracking

theorem runFrom_bind {α β : Type} (tracking : Tracking α) (next : α → Tracking β) (before : Tracked) :
    runFrom (tracking >>= next) before =
      match tracking.runFrom before with
      | (.ok value, after) => (next value).runFrom after
      | (.error failure, after) => (.error failure, after) := by
  rw [runFrom, run_bind, ← runFrom]
  rcases tracking.runFrom before with ⟨_ | _, _⟩ <;> rfl

theorem runFrom_once (id : Nat) (track : Tracking (Schema × Bodies)) (before : Tracked) :
    (once id track).runFrom before =
      match before.finished.lookup id with
      | some kept => (.ok kept, before)
      | none =>
        match track.runFrom before with
        | (.ok made, after) => (.ok made, { after with finished := (id, made) :: after.finished })
        | (.error failure, after) => (.error failure, after) := by
  have opened : (get : Tracking Tracked).runFrom before = (.ok before, before) := rfl
  rw [once, runFrom_bind, opened]
  cases kept : before.finished.lookup id with
  | some made =>
      simp only [kept]
      rfl
  | none =>
      simp only [kept]
      rw [runFrom_bind]
      rcases track.runFrom before with ⟨_ | _, _⟩ <;> rfl

theorem carries_report (event : Event) :
    Carries Tracked.session id (report event) (Deriving.report event) := fun _ => rfl

theorem lookup_session (finished : List (Nat × Schema × Bodies)) (id : Nat) :
    (finished.map fun (id, schema, _) => (id, schema)).lookup id =
      (finished.lookup id).map Prod.fst := by
  induction finished with
  | nil => rfl
  | cons entry rest ih =>
      obtain ⟨known, schema, bodies⟩ := entry
      rw [List.map_cons, List.lookup_cons, List.lookup_cons, ih]
      cases id == known <;> rfl

theorem carries_once {id : Nat} {track : Tracking (Schema × Bodies)} {derive : Deriving Schema}
    (carries : Carries Tracked.session Prod.fst track derive) :
    Carries Tracked.session Prod.fst (once id track) (Deriving.once id derive) := by
  intro before
  have kept : before.session.finished.lookup id = (before.finished.lookup id).map Prod.fst :=
    lookup_session _ _
  have ran : derive.runFrom before.session =
      ((track.runFrom before).1.map Prod.fst, (track.runFrom before).2.session) := carries before
  have tracked : ((once id track).run.run before).run = _ := runFrom_once id track before
  change (Deriving.once id derive).runFrom before.session = _
  rw [Deriving.runFrom_once, kept, ran, tracked]
  cases before.finished.lookup id with
  | some made => rfl
  | none => rcases track.runFrom before with ⟨failure | made, after⟩ <;> rfl

end Tracking

namespace Derivation

section

variable {derivation : Derivation}
  {track : (id : Nat) → (referenceAllowed : Bool) → Tracking (Slot Schema × Bodies)}
  {resolve : Resolver}

theorem carries_unchanged {α : Type} (result : Except Failure α) :
    Carries Tracked.session id (liftM result : Tracking α) (liftM result : Deriving α) := by
  intro before
  cases result <;> rfl

theorem trackedProperty_carries
    (resolves : ∀ id referenceAllowed, Carries Tracked.session Prod.fst (track id referenceAllowed)
      (resolve id referenceAllowed))
    (owner : String) (field : Field) :
    Carries Tracked.session Prod.fst (derivation.trackedProperty track owner field)
      (derivation.property resolve owner field) := by
  rw [property_eq, trackedProperty]
  cases derivation.fieldOutline owner field with
  | error failure => exact .throw failure
  | ok outline =>
      have content : Carries Tracked.session Prod.fst (outline.content.trackedBy track)
          (outline.content.resolvedBy resolve) := by
        cases outline.content with
        | written schema => exact .pure rfl
        | message id referenceAllowed => exact resolves id referenceAllowed
      refine content.bind fun ⟨slot, bodies⟩ => ?_
      intro before
      dsimp only
      cases derivation.completed owner field outline slot <;> rfl

theorem trackedBody_carries
    (resolves : ∀ id referenceAllowed, Carries Tracked.session Prod.fst (track id referenceAllowed)
      (resolve id referenceAllowed))
    (id : Nat) (message : Message) :
    Carries Tracked.session Prod.fst (derivation.trackedBody track id message)
      (derivation.messageBody resolve message) := by
  unfold trackedBody messageBody
  refine (carries_unchanged (derivation.objectOf message)).bind fun own => ?_
  have fields : Carries Tracked.session (List.map Prod.fst)
      (message.fields.mapM (derivation.trackedProperty track message.absoluteName))
      ((message.fields.map fun field => field).mapM (derivation.property resolve message.absoluteName)) :=
    Carries.mapM fun field _ => trackedProperty_carries resolves message.absoluteName field
  rw [List.map_id'] at fields
  refine fields.bind fun properties => ?_
  exact (Tracking.carries_report _).bind fun _ => .pure rfl

/-- Without its notes, what is tracked is what the derivation does. -/
theorem trackedSlot_carries (active : List Nat) (id : Nat) (referenceAllowed : Bool) :
    Carries Tracked.session Prod.fst (derivation.trackedSlot active id referenceAllowed)
      (derivation.messageSlot active id referenceAllowed) := by
  fun_induction trackedSlot derivation active id referenceAllowed with
  | case1 active id referenceAllowed missing =>
      rw [messageSlot]
      split
      · exact .pure rfl
      · rename_i message found
        cases missing.symm.trans found
  | case2 active id referenceAllowed message found pointed =>
      rw [messageSlot_eq found, if_pos pointed]
      exact .pure rfl
  | case3 active id referenceAllowed message found apart entered =>
      rw [messageSlot_eq found, if_neg apart, if_pos entered]
      exact fun before =>
        (recursionSlot_eq id message.absoluteName referenceAllowed before.session).trans rfl
  | case4 active id referenceAllowed message found apart entered _ ih =>
      rw [messageSlot_eq found, if_neg apart, if_neg entered]
      exact (Tracking.carries_once (trackedBody_carries ih id message)).map fun _ => rfl

theorem trackedSchema_carries (id : Nat) :
    Carries Tracked.session (Option.map Prod.fst) (derivation.trackedSchema id)
      (derivation.messageSchema id) := by
  unfold trackedSchema messageSchema
  cases derivation.model.message? id with
  | none => exact .pure rfl
  | some message =>
      dsimp only
      split
      · exact .pure rfl
      · exact (Tracking.carries_once (trackedBody_carries (trackedSlot_carries [id]) id message)).map
          fun _ => rfl

theorem tracked_carries (call : Call) :
    Carries Tracked.session (Option.map Prod.fst) (derivation.tracked call) (derivation.called call) := by
  cases call with
  | message id => exact trackedSchema_carries id
  | enum id =>
      refine .pure ?_
      cases derivation.model.enum? id <;> rfl

/-- Without the notes, tracked calls return what calls return. -/
theorem trackedReplies_map (calls : List Call) (before : Tracked) :
    (derivation.trackedReplies calls before).map (Except.map (Option.map Prod.fst)) =
      derivation.replies calls before.session := by
  induction calls generalizing before with
  | nil => rfl
  | cons call calls ih =>
      have ran : (derivation.called call).runFrom before.session =
          (((derivation.tracked call).runFrom before).1.map (Option.map Prod.fst),
            ((derivation.tracked call).runFrom before).2.session) := tracked_carries call before
      rw [replies_cons, ran, trackedReplies]
      simp only [List.map_cons, ih]

end

end Derivation

end ProtoSchema
