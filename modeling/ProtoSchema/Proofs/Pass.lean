import ProtoSchema.Proofs.CallStates
import ProtoSchema.Proofs.Unguarded

/-!
A pass step by step. A pass works through calls for the schemas of messages. What it is at is a task; the
bodies that wait for a message asked for in one of their fields are piled up, and the messages in
progress are part of the state, entered and left as bodies are begun and ended. `leads_done` says that the
steps lead to the answers and to the session of a derivation.
-/
namespace ProtoSchema

namespace Workshop

def enter (id : Nat) (workshop : Workshop) : Workshop :=
  { workshop with inProgress := id :: workshop.inProgress }

def leave (id : Nat) (workshop : Workshop) : Workshop :=
  { workshop with inProgress := workshop.inProgress.filter (· ≠ id) }

def report (event : Event) (workshop : Workshop) : Workshop :=
  { workshop with session.events := workshop.session.events ++ [event] }

def keep (id : Nat) (schema : Schema) (workshop : Workshop) : Workshop :=
  { workshop with session.finished := (id, schema) :: workshop.session.finished }

theorem leave_enter {id : Nat} {session : Session} {active : List Nat} (fresh : id ∉ active) :
    leave id { session, inProgress := id :: active } = { session, inProgress := active } := by
  simp only [leave, filter_ne_cons fresh]

end Workshop

namespace Derivation

/-- A body that is worked on: the fields that are done, and those that are left. -/
structure Work where
  id : Nat
  message : Message
  own : Schema
  done : List Property
  left : List Field

/-- A body that waits for what stands in the field whose turn it is. -/
structure Waiting where
  work : Work
  field : Field
  outline : Outline

inductive Task where
  | idle
  | schema (id : Nat) (message : Message)
  | fields (work : Work)
  | asked (id : Nat) (referenceAllowed : Bool)
  | filled (slot : Slot Schema)
  | ended (result : Except Failure Schema)

/-- What stands in a field is put there; a failure ends the body that waits for it. -/
def Task.ofSlot : Except Failure (Slot Schema) → Task
  | .ok slot => .filled slot
  | .error failure => .ended (.error failure)

structure Pass where
  task : Task
  waiting : List Waiting
  workshop : Workshop
  calls : List Nat
  answers : List (Except Failure (Option Schema))

def Pass.start (calls : List Nat) : Pass where
  task := .idle
  waiting := []
  workshop := { session := {}, inProgress := [] }
  calls := calls
  answers := []

variable (derivation : Derivation)

/-- Begin with a call: what is no message with a schema of its own has its answer at once. -/
def stepCall (id : Nat) (pass : Pass) : Pass :=
  match derivation.model.message? id with
  | none => { pass with answers := pass.answers ++ [.ok none] }
  | some message =>
    if message.mapEntry then { pass with answers := pass.answers ++ [.ok none] }
    else { pass with task := .schema id message }

/-- Find a schema that is kept, or begin with a body; its message is in progress from here on. -/
def stepSchema (id : Nat) (message : Message) (pass : Pass) : Pass :=
  match pass.workshop.session.finished.lookup id with
  | some schema => { pass with task := .ended (.ok schema) }
  | none =>
    match derivation.objectOf message with
    | .error failure => { pass with task := .ended (.error failure) }
    | .ok own =>
      { pass with
        task := .fields { id, message, own, done := [], left := message.fields }
        workshop := pass.workshop.enter id }

/-- Leave a message that fails. -/
def stepFailure (id : Nat) (failure : Failure) (pass : Pass) : Pass :=
  { pass with task := .ended (.error failure), workshop := pass.workshop.leave id }

/-- Take the next field of a body, or leave its message and keep the schema. -/
def stepFields (work : Work) (pass : Pass) : Pass :=
  match work.left with
  | [] =>
    let schema := derivation.assemble work.message work.own work.done
    let event := Event.derived work.message.absoluteName schema.properties.length
    { pass with
      task := .ended (.ok schema)
      workshop := ((pass.workshop.leave work.id).report event).keep work.id schema }
  | field :: left =>
    match derivation.fieldOutline work.message.absoluteName field with
    | .error failure => stepFailure work.id failure pass
    | .ok outline =>
      { pass with
        task := match outline.content with
          | .written schema => .filled (.inline schema)
          | .message id referenceAllowed => .asked id referenceAllowed
        waiting := { work := { work with left }, field, outline } :: pass.waiting }

/-- Settle what stands for a message that a field asks for. -/
def stepAsked (id : Nat) (referenceAllowed : Bool) (pass : Pass) : Pass :=
  match derivation.model.message? id with
  | none => { pass with task := .filled (.inline Schema.object) }
  | some message =>
    if referenceAllowed ∧ id ∈ derivation.components ∧ derivation.settings.useRef then
      { pass with task := .filled (.component message.absoluteName) }
    else if id ∈ pass.workshop.inProgress then
      let event :=
        if id ∈ derivation.components then Event.recursionReferenced message.absoluteName
        else .recursionOpened message.absoluteName
      { pass with
        task := .filled (derivation.returnSlot id message.absoluteName referenceAllowed)
        workshop := pass.workshop.report event }
    else { pass with task := .schema id message }

/-- Complete the field at which the first waiting body stands, and go on with that body. -/
def stepFilled (slot : Slot Schema) (pass : Pass) : Option Pass :=
  match pass.waiting with
  | [] => none
  | first :: rest =>
    match derivation.completed first.work.message.absoluteName first.field first.outline slot with
    | .error failure => some (stepFailure first.work.id failure { pass with waiting := rest })
    | .ok property =>
      some { pass with
        task := .fields { first.work with done := first.work.done ++ [property] }
        waiting := rest }

/-- Hand a schema to the body that waits for it, or to the call. -/
def stepEnded (result : Except Failure Schema) (pass : Pass) : Pass :=
  match pass.waiting, result with
  | [], result => { pass with task := .idle, answers := pass.answers ++ [result.map some] }
  | _ :: _, .ok schema => { pass with task := .filled (.inline schema) }
  | first :: rest, .error failure => stepFailure first.work.id failure { pass with waiting := rest }

/-- The next state of a pass. There is none where no call is left. -/
def step (pass : Pass) : Option Pass :=
  match pass.task with
  | .idle =>
    match pass.calls with
    | [] => none
    | id :: calls => some (derivation.stepCall id { pass with calls })
  | .schema id message => some (derivation.stepSchema id message pass)
  | .fields work => some (derivation.stepFields work pass)
  | .asked id referenceAllowed => some (derivation.stepAsked id referenceAllowed pass)
  | .filled slot => derivation.stepFilled slot pass
  | .ended result => some (stepEnded result pass)

/-- The pass gets from one state to the other in some number of steps. -/
def Leads (one two : Pass) : Prop :=
  Relation.ReflTransGen (fun before after => derivation.step before = some after) one two

variable {derivation} {waiting : List Waiting} {calls : List Nat} {active : List Nat} {id : Nat}
  {message : Message} {answers : List (Except Failure (Option Schema))}

theorem Leads.refl {pass : Pass} : derivation.Leads pass pass := Relation.ReflTransGen.refl

theorem Leads.trans {one two three : Pass} (first : derivation.Leads one two)
    (second : derivation.Leads two three) : derivation.Leads one three :=
  Relation.ReflTransGen.trans first second

theorem Leads.step {one two three : Pass} (first : derivation.step one = some two)
    (rest : derivation.Leads two three) : derivation.Leads one three :=
  Relation.ReflTransGen.head first rest

/-! ## From calls to steps -/

theorem recursionSlot_eq (id : Nat) (name : String) (referenceAllowed : Bool) (session : Session) :
    (derivation.recursionSlot id name referenceAllowed).runFrom session =
      (.ok (derivation.returnSlot id name referenceAllowed),
        { session with
          events := session.events ++
            [if id ∈ derivation.components then .recursionReferenced name
              else .recursionOpened name] }) := by
  unfold recursionSlot returnSlot
  split
  · cases referenceAllowed <;> rfl
  · rfl

/-- Whatever body waits, a message that is asked for is settled as the resolver does it. -/
def Follows (derivation : Derivation) (active : List Nat) (resolve : Resolver) : Prop :=
  ∀ id referenceAllowed first rest session calls answers,
    derivation.Leads
      ⟨.asked id referenceAllowed, first :: rest, ⟨session, active⟩, calls, answers⟩
      ⟨.ofSlot ((resolve id referenceAllowed).runFrom session).1, first :: rest,
        ⟨((resolve id referenceAllowed).runFrom session).2, active⟩, calls, answers⟩

variable {resolve : Resolver} {session : Session} {own : Schema} {work : Work}

/-- How a body stands after a field: it goes on with the property, or its message has failed. -/
def turned (work : Work) (active : List Nat) (waiting : List Waiting) (calls : List Nat)
    (answers : List (Except Failure (Option Schema))) : Except Failure Property × Session → Pass
  | (.ok property, after) =>
    ⟨.fields { work with done := work.done ++ [property] }, waiting, ⟨after, work.id :: active⟩, calls,
      answers⟩
  | (.error failure, after) => ⟨.ended (.error failure), waiting, ⟨after, active⟩, calls, answers⟩

/-- The body that waits completes its field with what it gets. -/
theorem leads_filled {field : Field} {outline : Outline} (fresh : work.id ∉ active)
    (result : Except Failure (Slot Schema)) (session : Session) :
    derivation.Leads
      ⟨.ofSlot result, ⟨work, field, outline⟩ :: waiting, ⟨session, work.id :: active⟩, calls, answers⟩
      (turned work active waiting calls answers
        (result.bind (derivation.completed work.message.absoluteName field outline), session)) := by
  refine .step ?_ .refl
  cases result with
  | error failure =>
      simp only [Task.ofSlot, Derivation.step, stepEnded, stepFailure, Workshop.leave_enter fresh]
      rfl
  | ok slot =>
      simp only [Task.ofSlot, Derivation.step, stepFilled, Except.bind]
      cases derivation.completed work.message.absoluteName field outline slot with
      | ok property => rfl
      | error failure =>
          simp only [stepFailure, Workshop.leave_enter fresh]
          rfl

theorem leads_turn {field : Field} {done : List Property} {left : List Field}
    (follows : derivation.Follows (id :: active) resolve) (fresh : id ∉ active) :
    derivation.Leads
      ⟨.fields ⟨id, message, own, done, field :: left⟩, waiting, ⟨session, id :: active⟩, calls, answers⟩
      (turned ⟨id, message, own, done, left⟩ active waiting calls answers
        ((derivation.property resolve message.absoluteName field).runFrom session)) := by
  rw [property_eq]
  cases outlined : derivation.fieldOutline message.absoluteName field with
  | error failure =>
      refine .step ?_ .refl
      simp only [Derivation.step, stepFields, outlined, stepFailure, Workshop.leave_enter fresh]
      rfl
  | ok outline =>
      refine .step (by simp only [Derivation.step, stepFields, outlined]; rfl) ?_
      simp only [Deriving.runFrom_bind]
      cases asked : outline.content with
      | written schema => exact leads_filled fresh (.ok (.inline schema)) session
      | message target referenceAllowed =>
          refine (follows target referenceAllowed _ _ session calls answers).trans ?_
          refine (leads_filled fresh _ _).trans ?_
          simp only [Content.resolvedBy]
          rcases (resolve target referenceAllowed).runFrom session with ⟨_ | slot, after⟩ <;>
            exact .refl

/-- The fields of a body are done in order, up to the first that fails. -/
theorem leads_fields (follows : derivation.Follows (id :: active) resolve) (fresh : id ∉ active)
    (left : List Field) (done : List Property) (session : Session) :
    derivation.Leads
      ⟨.fields ⟨id, message, own, done, left⟩, waiting, ⟨session, id :: active⟩, calls, answers⟩
      (match (left.mapM (derivation.property resolve message.absoluteName)).runFrom session with
        | (.error failure, after) => ⟨.ended (.error failure), waiting, ⟨after, active⟩, calls, answers⟩
        | (.ok properties, after) =>
          ⟨.fields ⟨id, message, own, done ++ properties, []⟩, waiting, ⟨after, id :: active⟩, calls,
            answers⟩) := by
  -- Every turn puts one more property behind those that are done.
  induction left generalizing done session with
  | nil =>
      simp only [List.mapM_nil, Deriving.runFrom_pure, List.append_nil]
      exact .refl
  | cons field left ih =>
      have turn : derivation.Leads
          ⟨.fields ⟨id, message, own, done, field :: left⟩, waiting, ⟨session, id :: active⟩, calls,
            answers⟩
          (turned ⟨id, message, own, done, left⟩ active waiting calls answers
            ((derivation.property resolve message.absoluteName field).runFrom session)) :=
        leads_turn follows fresh
      refine turn.trans ?_
      rw [Deriving.runFrom_mapM_cons]
      rcases (derivation.property resolve message.absoluteName field).runFrom session with
        ⟨failure | property, after⟩
      · exact .refl
      · refine (ih (done ++ [property]) after).trans ?_
        simp only
        rcases (left.mapM (derivation.property resolve message.absoluteName)).runFrom after with
          ⟨failure | properties, last⟩
        · exact .refl
        · simp only [Except.map, List.append_assoc, List.singleton_append]
          exact .refl

theorem leads_schema
    (follows : derivation.Follows (id :: active) (derivation.messageSlot (id :: active)))
    (fresh : id ∉ active) (session : Session) :
    derivation.Leads
      ⟨.schema id message, waiting, ⟨session, active⟩, calls, answers⟩
      ⟨.ended ((derivation.schemaWithin active id message).runFrom session).1, waiting,
        ⟨((derivation.schemaWithin active id message).runFrom session).2, active⟩, calls, answers⟩ := by
  rw [schemaWithin, Deriving.runFrom_once]
  cases kept : session.finished.lookup id with
  | some schema =>
      refine .step ?_ .refl
      simp only [Derivation.step, stepSchema, kept]
  | none =>
      simp only [messageBody_runFrom]
      cases owned : derivation.objectOf message with
      | error failure =>
          refine .step ?_ .refl
          simp only [Derivation.step, stepSchema, kept, owned]
      | ok own =>
          have begun : derivation.step
              ⟨.schema id message, waiting, ⟨session, active⟩, calls, answers⟩ =
              some ⟨.fields ⟨id, message, own, [], message.fields⟩, waiting, ⟨session, id :: active⟩,
                calls, answers⟩ := by
            simp only [Derivation.step, stepSchema, kept, owned, Workshop.enter]
          refine .step begun ((leads_fields follows fresh message.fields [] session).trans ?_)
          rw [← fieldsWithin]
          rcases (derivation.fieldsWithin active id message message.fields).runFrom session with
            ⟨failure | properties, after⟩
          · exact .refl
          · refine .step ?_ .refl
            simp only [Derivation.step, stepFields, Workshop.leave_enter fresh]
            rfl

/-- A message that is asked for inside the active ones is settled as the derivation settles it. -/
theorem follows_messageSlot (active : List Nat) :
    derivation.Follows active (derivation.messageSlot active) := by
  intro id referenceAllowed first rest session calls answers
  -- The steps make the choices of the recursion; what waits below does not matter to it.
  fun_induction messageSlot derivation active id referenceAllowed
      generalizing first rest session calls answers with
  | case1 active id referenceAllowed missing =>
      refine .step ?_ .refl
      simp only [Derivation.step, stepAsked, missing]
      rfl
  | case2 active id referenceAllowed message found pointed =>
      refine .step ?_ .refl
      simp only [Derivation.step, stepAsked, found, if_pos pointed]
      rfl
  | case3 active id referenceAllowed message found apart entered =>
      refine .step ?_ .refl
      simp only [Derivation.step, stepAsked, found, if_neg apart, if_pos entered, recursionSlot_eq]
      rfl
  | case4 active id referenceAllowed message found apart fresh _ ih =>
      have asked : derivation.step
          ⟨.asked id referenceAllowed, first :: rest, ⟨session, active⟩, calls, answers⟩ =
          some ⟨.schema id message, first :: rest, ⟨session, active⟩, calls, answers⟩ := by
        simp only [Derivation.step, stepAsked, found, if_neg apart, if_neg fresh]
      refine .step asked ((leads_schema (fun _ _ _ _ _ _ _ => ih _ _ _ _ _ _ _) fresh session).trans ?_)
      rw [Deriving.runFrom_map, ← schemaWithin]
      rcases (derivation.schemaWithin active id message).runFrom session with ⟨failure | schema, after⟩
      · exact .refl
      · exact .step rfl .refl

/-! ## Whole calls -/

theorem leads_call (id : Nat) (session : Session) (calls : List Nat)
    (answers : List (Except Failure (Option Schema))) :
    derivation.Leads
      ⟨.idle, [], ⟨session, []⟩, id :: calls, answers⟩
      ⟨.idle, [], ⟨((derivation.messageSchema id).runFrom session).2, []⟩, calls,
        answers ++ [((derivation.messageSchema id).runFrom session).1]⟩ := by
  cases found : derivation.model.message? id with
  | none =>
      refine .step ?_ .refl
      simp only [Derivation.step, stepCall, messageSchema, found, Deriving.runFrom_pure]
  | some message =>
      cases plain : message.mapEntry with
      | true =>
          refine .step ?_ .refl
          simp only [Derivation.step, stepCall, messageSchema, found, plain, if_true,
            Deriving.runFrom_pure]
      | false =>
          have begun : derivation.step ⟨.idle, [], ⟨session, []⟩, id :: calls, answers⟩ =
              some ⟨.schema id message, [], ⟨session, []⟩, calls, answers⟩ := by
            simp only [Derivation.step, stepCall, found, plain, Bool.false_eq_true, if_false]
          have derived : derivation.Leads ⟨.schema id message, [], ⟨session, []⟩, calls, answers⟩ _ :=
            leads_schema (follows_messageSlot [id]) List.not_mem_nil session
          rw [messageSchema_eq_schemaWithin found plain, Deriving.runFrom_map]
          exact (Leads.step begun derived).trans (.step rfl .refl)

theorem leads_rest (session : Session) (answers : List (Except Failure (Option Schema))) :
    derivation.Leads ⟨.idle, [], ⟨session, []⟩, calls, answers⟩
      ⟨.idle, [], ⟨(derivation.answers calls session).2, []⟩, [],
        answers ++ (derivation.answers calls session).1⟩ := by
  induction calls generalizing session answers with
  | nil =>
      rw [Derivation.answers, List.append_nil]
      exact .refl
  | cons id calls ih =>
      refine (leads_call id session calls answers).trans ?_
      have others := ih ((derivation.messageSchema id).runFrom session).2
        (answers ++ [((derivation.messageSchema id).runFrom session).1])
      rw [List.append_assoc] at others
      exact others

/-- How a pass stands when its calls are done. -/
def Pass.done (derivation : Derivation) (calls : List Nat) : Pass where
  task := .idle
  waiting := []
  workshop := { session := (derivation.answers calls {}).2, inProgress := [] }
  calls := []
  answers := (derivation.answers calls {}).1

theorem leads_done (calls : List Nat) :
    derivation.Leads (.start calls) (.done derivation calls) :=
  leads_rest {} []

end Derivation

end ProtoSchema
