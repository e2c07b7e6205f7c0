import Mathlib.Data.List.Induction
import ProtoSchema.Proofs.Account

/-!
The states in which the schema of a message is called for. A call comes from outside, after any other
calls, or from a field whose turn it is in the schema of another message. What a session keeps was
derived in one of these states.
-/
namespace ProtoSchema.Derivation

variable {derivation : Derivation}

/-- The schema of a message inside the schemas of the `active` messages: the one kept from before, or
else a new one. With no message around it, this is what `messageSchema` returns. -/
def schemaWithin (derivation : Derivation) (active : List Nat) (id : Nat) (message : Message) :
    Deriving Schema :=
  Deriving.once id (derivation.messageBody (derivation.messageSlot (id :: active)) message)

def fieldsWithin (derivation : Derivation) (active : List Nat) (id : Nat) (message : Message)
    (fields : List Field) : Deriving (List Property) :=
  fields.mapM (derivation.property (derivation.messageSlot (id :: active)) message.absoluteName)

/-- The field has its turn in a new schema of the message: the fields before it are done and have left
the session `now`. -/
def Turn (derivation : Derivation) (active : List Nat) (start : Session) (id : Nat)
    (message : Message) (field : Field) (now : Session) : Prop :=
  ∃ earlier later properties, message.fields = earlier ++ field :: later ∧
    (derivation.fieldsWithin active id message earlier).runFrom start = (.ok properties, now)

/-- The schema of the message is called for in this session, inside those of the `active` messages. -/
inductive Called (derivation : Derivation) : List Nat → Session → Nat → Prop
  | outside (calls : List Nat) (id : Nat) : Called derivation [] (derivation.answers calls {}).2 id
  | field {active : List Nat} {start now : Session} {owner target : Nat} {message : Message}
      {own : Schema} {field : Field} {outline : Outline} {referenceAllowed : Bool} :
      Called derivation active start owner → start.finished.lookup owner = none →
      derivation.model.message? owner = some message → message.mapEntry = false →
      derivation.objectOf message = .ok own →
      derivation.Turn active start owner message field now →
      derivation.fieldOutline message.absoluteName field = .ok outline →
      outline.content = .message target referenceAllowed →
      ¬ (referenceAllowed ∧ target ∈ derivation.components ∧ derivation.settings.useRef) →
      target ∉ owner :: active →
      Called derivation (owner :: active) now target

/-- The schema is new in this state, in which it was called for. -/
structure Derives (derivation : Derivation) (active : List Nat) (start : Session) (id : Nat)
    (message : Message) (schema : Schema) : Prop where
  called : derivation.Called active start id
  fresh : start.finished.lookup id = none
  ended : ∃ stop, (derivation.messageBody (derivation.messageSlot (id :: active)) message).runFrom
    start = (.ok schema, stop)

/-- The schema was new in some state in which it was called for. -/
def Synthesized (derivation : Derivation) (id : Nat) (schema : Schema) : Prop :=
  ∃ active start message, derivation.model.message? id = some message ∧
    derivation.Derives active start id message schema

/-! ## Runs -/

theorem messageSchema_eq_schemaWithin {id : Nat} {message : Message}
    (found : derivation.model.message? id = some message) (plain : message.mapEntry = false) :
    derivation.messageSchema id = some <$> derivation.schemaWithin [] id message :=
  messageSchema_eq_once found plain

theorem messageBody_runFrom (active : List Nat) (id : Nat) (message : Message) (session : Session) :
    (derivation.messageBody (derivation.messageSlot (id :: active)) message).runFrom session =
      match derivation.objectOf message with
      | .error failure => (.error failure, session)
      | .ok own =>
        match (derivation.fieldsWithin active id message message.fields).runFrom session with
        | (.error failure, after) => (.error failure, after)
        | (.ok properties, after) =>
          (.ok (derivation.assemble message own properties),
            { after with
              events := after.events ++ [.derived message.absoluteName
                (derivation.assemble message own properties).properties.length] }) := by
  unfold messageBody fieldsWithin
  cases derivation.objectOf message with
  | error failure => rfl
  | ok own =>
      simp only [Deriving.liftM_ok, pure_bind]
      rw [Deriving.runFrom_bind]
      rcases (message.fields.mapM (derivation.property (derivation.messageSlot (id :: active))
        message.absoluteName)).runFrom session with ⟨_ | properties, after⟩ <;> rfl

theorem exists_fields_of_messageBody {active : List Nat} {id : Nat} {message : Message}
    {session stop : Session} {schema : Schema}
    (ended : (derivation.messageBody (derivation.messageSlot (id :: active)) message).runFrom session =
      (.ok schema, stop)) :
    ∃ own properties after, derivation.objectOf message = .ok own ∧
      (derivation.fieldsWithin active id message message.fields).runFrom session =
        (.ok properties, after) ∧
      schema = derivation.assemble message own properties := by
  rw [messageBody_runFrom] at ended
  cases owned : derivation.objectOf message with
  | error failure =>
      rw [owned] at ended
      cases ended
  | ok own =>
      cases ran : (derivation.fieldsWithin active id message message.fields).runFrom session with
      | mk result after =>
          simp only [owned, ran] at ended
          cases result with
          | error failure => cases ended
          | ok properties =>
              cases ended
              exact ⟨own, properties, after, rfl, rfl, rfl⟩

/-- Of a field, only what it asks for changes the session. -/
theorem session_property (resolve : Resolver) (owner : String) (field : Field) (session : Session) :
    ((derivation.property resolve owner field).runFrom session).2 =
      match derivation.fieldOutline owner field with
      | .error _ => session
      | .ok outline => ((outline.content.resolvedBy resolve).runFrom session).2 := by
  rw [property_eq]
  cases derivation.fieldOutline owner field with
  | error failure => rfl
  | ok outline =>
      simp only [Deriving.runFrom_bind]
      rcases (outline.content.resolvedBy resolve).runFrom session with ⟨_ | slot, after⟩ <;> rfl

/-! ## What a session keeps -/

variable {active : List Nat} {id : Nat} {message : Message} {start session : Session}

section

variable {own : Schema} (called : derivation.Called active start id)
  (fresh : start.finished.lookup id = none) (found : derivation.model.message? id = some message)
  (plain : message.mapEntry = false) (kept : start.Holds derivation.Synthesized)
  (slots : ∀ target (referenceAllowed : Bool) now, now.Holds derivation.Synthesized →
    derivation.Inlinable target →
    (¬ (referenceAllowed ∧ target ∈ derivation.components ∧ derivation.settings.useRef) →
      target ∉ id :: active → derivation.Called (id :: active) now target) →
    ((derivation.messageSlot (id :: active) target referenceAllowed).runFrom now).2.Holds
      derivation.Synthesized)

include called fresh found plain kept slots

theorem synthesized_fields {fields others : List Field} (owned : derivation.objectOf message = .ok own)
    (first : message.fields = fields ++ others) :
    ((derivation.fieldsWithin active id message fields).runFrom start).2.Holds
      derivation.Synthesized := by
  refine Deriving.mapM_keeps kept fun earlier field later properties now split before here => ?_
  have whole : message.fields = earlier ++ field :: (later ++ others) := by simp [first, split]
  have member : field ∈ message.fields := by simp [whole]
  rw [session_property]
  cases outlined : derivation.fieldOutline message.absoluteName field with
  | error failure => exact here
  | ok outline =>
      simp only
      cases asked : outline.content with
      | written schema => exact here
      | message target referenceAllowed =>
          have asks : derivation.Asks message target referenceAllowed :=
            ⟨field, member, outline, outlined, asked⟩
          exact slots target referenceAllowed now here (asks.leads found plain).2 fun apart new =>
            .field called fresh found plain owned ⟨earlier, later ++ others, properties, whole, before⟩
              outlined asked apart new

theorem synthesized_body :
    ((derivation.messageBody (derivation.messageSlot (id :: active)) message).runFrom start).2.Holds
      derivation.Synthesized := by
  rw [messageBody_runFrom]
  cases owned : derivation.objectOf message with
  | error failure => exact kept
  | ok own =>
      have fields := synthesized_fields called fresh found plain kept slots owned
        (List.append_nil message.fields).symm
      simp only
      cases ended : (derivation.fieldsWithin active id message message.fields).runFrom start with
      | mk result after =>
          rw [ended] at fields
          cases result <;> exact fields

omit fresh in
theorem synthesized_schemaWithin :
    ((derivation.schemaWithin active id message).runFrom start).2.Holds derivation.Synthesized := by
  refine Deriving.holds_once kept (fun fresh => ?_) fun schema stop fresh ended => ?_
  · exact synthesized_body called fresh found plain kept slots
  · exact ⟨active, start, message, found, called, fresh, stop, ended⟩

end

theorem synthesized_slot {referenceAllowed : Bool} (kept : session.Holds derivation.Synthesized)
    (inlinable : derivation.Inlinable id)
    (called : ¬ (referenceAllowed ∧ id ∈ derivation.components ∧ derivation.settings.useRef) →
      id ∉ active → derivation.Called active session id) :
    ((derivation.messageSlot active id referenceAllowed).runFrom session).2.Holds
      derivation.Synthesized := by
  obtain ⟨message, found, plain⟩ := inlinable
  fun_induction messageSlot derivation active id referenceAllowed generalizing session message with
  | case1 => exact kept
  | case2 => exact kept
  | case3 => exact (recursionSlot_meets fun _ => Deriving.meets_report rfl) session kept |>.2
  | case4 active id referenceAllowed other same apart entered _ ih =>
      cases same.symm.trans found
      -- The message is entered: its own fields have their turns with it in progress.
      rw [Deriving.runFrom_map]
      refine synthesized_schemaWithin (called apart entered) found plain kept ?_
      intro target allowed now here inlinable calls
      obtain ⟨message, found, plain⟩ := inlinable
      exact ih target allowed here calls message found plain

/-- Every schema that a session keeps was new in a state in which it was called for. -/
theorem synthesized_answers (calls : List Nat) :
    (derivation.answers calls {}).2.Holds derivation.Synthesized := by
  induction calls using List.reverseRecOn with
  | nil => exact Session.holds_start
  | append_singleton calls id ih =>
      rw [answers_append_singleton]
      by_cases inlinable : derivation.Inlinable id
      · obtain ⟨message, found, plain⟩ := inlinable
        have called : derivation.Called [] (derivation.answers calls {}).2 id := .outside calls id
        rw [messageSchema_eq_schemaWithin found plain, Deriving.runFrom_map]
        exact synthesized_schemaWithin called found plain ih fun _ _ _ here => synthesized_slot here
      · rw [messageSchema_eq_none inlinable]
        exact ih

theorem Called.kept (called : derivation.Called active session id) :
    session.Holds derivation.Synthesized := by
  induction called with
  | outside calls id => exact synthesized_answers calls
  | field calls fresh found plain owned turn _ _ _ _ ih =>
      obtain ⟨earlier, later, properties, split, before⟩ := turn
      have here := synthesized_fields calls fresh found plain ih
        (fun _ _ _ here => synthesized_slot here) owned split
      rw [before] at here
      exact here

/-- A call that succeeds returns a schema that is new in its own state or was new in an earlier one. -/
theorem Called.derives {schema : Schema} (called : derivation.Called active session id)
    (found : derivation.model.message? id = some message)
    (ended : ((derivation.schemaWithin active id message).runFrom session).1 = .ok schema) :
    ∃ around start, derivation.Derives around start id message schema ∧
      (session.finished.lookup id = none → around = active ∧ start = session) := by
  rw [schemaWithin, Deriving.runFrom_once] at ended
  cases kept : session.finished.lookup id with
  | some earlier =>
      rw [kept] at ended
      cases ended
      obtain ⟨around, start, other, same, derives⟩ := called.kept id _ (mem_of_lookup kept)
      cases same.symm.trans found
      exact ⟨around, start, derives, nofun⟩
  | none =>
      cases ran : (derivation.messageBody (derivation.messageSlot (id :: active)) message).runFrom
          session with
      | mk result stop =>
          simp only [kept, ran] at ended
          cases result with
          | error failure => cases ended
          | ok new =>
              cases ended
              exact ⟨active, session, ⟨called, kept, stop, ran⟩, fun _ => ⟨rfl, rfl⟩⟩

end ProtoSchema.Derivation
