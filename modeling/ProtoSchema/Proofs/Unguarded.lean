import ProtoSchema.Proofs.Account

/-!
The recursion without a guard for maps. Here the messages in progress are part of the state, entered
and left as the recursion goes, and the entry types of maps are followed wherever they lead. Nothing but
a limit keeps the recursion from going on forever: one limit on the bodies inside each other, one on the
entry types inside each other. `Simulates` compares it with the recursion that has a guard.
-/
namespace ProtoSchema

/-- What the calls of an unguarded derivation share. -/
structure Workshop where
  session : Session
  inProgress : List Nat

/-- A computation of an unguarded derivation. It has no result where it hits its limit. -/
abbrev Limited := ExceptT Failure (StateT Workshop Option)

theorem filter_ne_cons {id : Nat} {active : List Nat} (fresh : id ∉ active) :
    (id :: active).filter (· ≠ id) = active := by
  rw [List.filter_cons_of_neg (by simp)]
  refine List.filter_eq_self.2 fun other member => ?_
  simp only [decide_eq_true_eq]
  rintro rfl
  exact fresh member

namespace Limited

variable {α β : Type}

/-- How a computation ends, if it stays within its limit. -/
def runFrom (limited : Limited α) (workshop : Workshop) : Option (Except Failure α × Workshop) :=
  limited.run.run workshop

def stop : Limited α := ExceptT.mk fun _ => none

/-- A computation that has nothing to do with the messages in progress. -/
def ofDeriving (derived : Deriving α) : Limited α :=
  ExceptT.mk fun workshop =>
    let (result, session) := derived.runFrom workshop.session
    some (result, { workshop with session })

/-- Work on a message that is in progress until the work ends, also when it fails. -/
def inside (id : Nat) (limited : Limited α) : Limited α :=
  ExceptT.mk fun workshop =>
    (limited.runFrom { workshop with inProgress := id :: workshop.inProgress }).map
      fun (result, after) =>
        (result, { after with inProgress := after.inProgress.filter (· ≠ id) })

end Limited

namespace Derivation

variable (derivation : Derivation)

def typeSlotWithin (resolve : (id : Nat) → (referenceAllowed : Bool) → Limited (Slot Schema))
    (links : Nat) (declaration description : String) (referenceAllowed : Bool) (field : Field) :
    Limited (Slot Schema) :=
  match derivation.declaredType declaration field with
  | .error failure => throw failure
  | .ok (.scalar schema) => pure (fieldSlot field.repeated description schema)
  | .ok (.enum enum) =>
    pure (fieldSlot field.repeated description (derivation.enumSchema enum))
  | .ok (.message id message _) =>
    match derivation.catalog.find? message.absoluteName with
    | some schema => pure (fieldSlot field.repeated description schema)
    | none =>
      if message.mapEntry then
        match message.fields[1]?, links with
        | none, _ => throw (.mapWithoutValue declaration)
        | some _, 0 => Limited.stop
        | some value, links + 1 => do
          let reading := derivation.settings.readComment value.comment
          let values ← typeSlotWithin resolve links (declaration ++ "." ++ value.name)
            reading.description true value
          pure (fieldSlot false description (Schema.mapOf values))
      else fieldSlot field.repeated description <$> resolve id referenceAllowed

def propertyWithin (resolve : (id : Nat) → (referenceAllowed : Bool) → Limited (Slot Schema))
    (links : Nat) (owner : String) (field : Field) : Limited Property := do
  let declaration := owner ++ "." ++ field.name
  let ⟨description, directives⟩ := derivation.settings.readComment field.comment
  let required ← guilty declaration (derivation.registry.isRequired directives)
  let slot ←
    match ← guilty declaration (derivation.registry.typeOverride? .field directives) with
    | some override => pure (fieldSlot field.repeated description (overriding override))
    | none =>
      derivation.typeSlotWithin resolve links declaration description directives.isEmpty field
  let slot ← guilty declaration (derivation.applyToSlot directives slot)
  pure { name := field.wireName, required, slot }

/-- What stands for a message that a field names, with a call for its schema. -/
def messageSlotWithin (schemaOf : Nat → Limited (Option Schema)) (id : Nat)
    (referenceAllowed : Bool) : Limited (Slot Schema) :=
  match derivation.model.message? id with
  | none => pure Schema.object
  | some message => do
    if referenceAllowed ∧ id ∈ derivation.components ∧ derivation.settings.useRef then
      pure (Slot.component message.absoluteName)
    else if id ∈ (← get).inProgress then
      Limited.ofDeriving (derivation.recursionSlot id message.absoluteName referenceAllowed)
    else
      let schema ← schemaOf id
      pure (Slot.inline (schema.getD Schema.object))

/-- A new schema of a message, which is in progress while its fields are worked on. -/
def messageBodyWithin (resolve : (id : Nat) → (referenceAllowed : Bool) → Limited (Slot Schema))
    (links id : Nat) (message : Message) : Limited Schema := do
  let name := message.absoluteName
  let own ← derivation.objectOf message
  let properties ← Limited.inside id
    (message.fields.mapM (derivation.propertyWithin resolve links name))
  let schema := derivation.assemble message own properties
  Limited.ofDeriving (Deriving.report (.derived name schema.properties.length))
  pure schema

/-- The schema of a message: the one kept from before, or else a new one, which is kept. -/
def messageSchemaWithin (links bodies id : Nat) : Limited (Option Schema) :=
  match derivation.model.message? id with
  | none => pure none
  | some message =>
    if message.mapEntry then pure none
    else do
      match (← get).session.finished.lookup id with
      | some schema => pure (some schema)
      | none =>
        match bodies with
        | 0 => Limited.stop
        | bodies + 1 =>
          let resolve := derivation.messageSlotWithin (messageSchemaWithin links bodies)
          let schema ← derivation.messageBodyWithin resolve links id message
          modify fun workshop =>
            { workshop with session.finished := (id, schema) :: workshop.session.finished }
          pure (some schema)

/-- One call after the other; a call that fails does not end them. -/
def answersWithin (links bodies : Nat) :
    List Nat → Workshop → Option (List (Except Failure (Option Schema)) × Workshop)
  | [], workshop => some ([], workshop)
  | id :: calls, workshop => do
    let (answer, next) ← (derivation.messageSchemaWithin links bodies id).runFrom workshop
    let (others, last) ← answersWithin links bodies calls next
    some (answer :: others, last)

end Derivation

/-! ## The same with a guard -/

namespace Limited

variable {α β : Type}

theorem runFrom_bind (limited : Limited α) (next : α → Limited β) (workshop : Workshop) :
    runFrom (limited >>= next) workshop =
      match limited.runFrom workshop with
      | none => none
      | some (.ok value, after) => (next value).runFrom after
      | some (.error failure, after) => some (.error failure, after) := by
  change runFrom (ExceptT.bind limited next) workshop = _
  unfold runFrom ExceptT.run StateT.run
  simp only [ExceptT.bind, ExceptT.mk, bind, StateT.bind]
  cases limited workshop with
  | none => rfl
  | some ended => rcases ended with ⟨_ | _, _⟩ <;> rfl

/-- With these messages in progress the computation stays within its limit, does what the other one
does, and leaves the same messages in progress. -/
def Simulates (active : List Nat) (limited : Limited α) (derived : Deriving α) : Prop :=
  ∀ session, limited.runFrom { session, inProgress := active } =
    some ((derived.runFrom session).1, { session := (derived.runFrom session).2, inProgress := active })

variable {active : List Nat} {limited : Limited α} {derived : Deriving α}

theorem simulates_pure {value : α} : Simulates active (pure value) (pure value) :=
  fun _ => rfl

theorem simulates_throw {failure : Failure} :
    Simulates active (throw failure : Limited α) (throw failure) :=
  fun _ => rfl

theorem simulates_lift {result : Except Failure α} :
    Simulates active (liftM result : Limited α) (liftM result) := by
  intro session
  cases result <;> rfl

theorem simulates_ofDeriving : Simulates active (ofDeriving derived) derived :=
  fun _ => rfl

theorem Simulates.bind {next : α → Limited β} {following : α → Deriving β}
    (first : Simulates active limited derived)
    (second : ∀ value, Simulates active (next value) (following value)) :
    Simulates active (limited >>= next) (derived >>= following) := by
  intro session
  rw [runFrom_bind, first session, Deriving.runFrom_bind]
  rcases derived.runFrom session with ⟨failure | value, after⟩
  · rfl
  · exact second value after

theorem Simulates.map {change : α → β} (simulates : Simulates active limited derived) :
    Simulates active (change <$> limited) (change <$> derived) := by
  rw [map_eq_pure_bind, map_eq_pure_bind]
  exact simulates.bind fun _ => simulates_pure

theorem simulates_mapM {γ : Type} {perform : γ → Limited β} {follow : γ → Deriving β} {steps : List γ}
    (simulates : ∀ step ∈ steps, Simulates active (perform step) (follow step)) :
    Simulates active (steps.mapM perform) (steps.mapM follow) := by
  induction steps with
  | nil => exact simulates_pure
  | cons step rest ih =>
      rw [List.mapM_cons, List.mapM_cons]
      refine (simulates step List.mem_cons_self).bind fun value => ?_
      exact (ih fun other member => simulates other (List.mem_cons_of_mem step member)).bind
        fun _ => simulates_pure

theorem Simulates.inside {id : Nat} (simulates : Simulates (id :: active) limited derived)
    (fresh : id ∉ active) : Simulates active (inside id limited) derived := by
  intro session
  have ran := simulates session
  change (limited.runFrom { session, inProgress := id :: active }).map _ = _
  simp only [ran, Option.map_some, filter_ne_cons fresh]

end Limited

end ProtoSchema
