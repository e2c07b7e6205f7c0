import ProtoSchema.Derivation.Field
import ProtoSchema.Schema.Exclusive

/-!
The schemas of messages. A message that a field names is written out in its place, unless the
document may point at its component. A message that is reached again from its own fields is never
written out a second time: it is pointed at where the document has a component for it, and left open
where it has none.
-/
namespace ProtoSchema.Derivation

variable (derivation : Derivation)

def assemble (message : Message) (schema : Schema) (properties : List Property) : Schema :=
  let filled :=
    { schema with
      required := (properties.filter (·.required)).map (·.name)
      properties := Entries.ofList (properties.map fun property => (property.name, property.slot)) }
  if derivation.settings.protoOneof then filled.withExclusive message.exclusiveGroups else filled

def messageBody (resolve : Resolver) (message : Message) : Deriving Schema := do
  let name := message.absoluteName
  let own ← derivation.objectOf message
  let properties ← message.fields.mapM (derivation.property resolve name)
  let schema := derivation.assemble message own properties
  Deriving.report (.derived name schema.properties.length)
  pure schema

/-- What stands for a message inside its own schema. Rules need an inline schema to land on. -/
def recursionSlot (id : Nat) (name : String) (referenceAllowed : Bool) :
    Deriving (Slot Schema) := do
  if id ∈ derivation.components then
    Deriving.report (.recursionReferenced name)
    if referenceAllowed then pure (Slot.component name)
    else pure (Slot.inline { Schema.object with allOf := [Slot.component name] })
  else
    Deriving.report (.recursionOpened name)
    pure (Slot.inline Schema.openObject)

/-- What stands for a message that a field names, inside the schemas of the `active` messages. -/
def messageSlot (active : List Nat) (id : Nat) (referenceAllowed : Bool) : Deriving (Slot Schema) :=
  match found : derivation.model.message? id with
  | none => pure Schema.object
  | some message =>
    if referenceAllowed ∧ id ∈ derivation.components ∧ derivation.settings.useRef then
      pure (Slot.component message.absoluteName)
    else if entered : id ∈ active then
      derivation.recursionSlot id message.absoluteName referenceAllowed
    else
      have := unvisited_cons_lt (Model.lt_of_message? found) entered
      Slot.inline <$>
        Deriving.once id (derivation.messageBody (messageSlot (id :: active)) message)
termination_by unvisited derivation.model.messages.length active

/-- The schema of a message. The entry type of a map has none: it is written out by the map
field. -/
def messageSchema (id : Nat) : Deriving (Option Schema) :=
  match derivation.model.message? id with
  | none => pure none
  | some message =>
    if message.mapEntry then pure none
    else
      some <$> Deriving.once id (derivation.messageBody (derivation.messageSlot [id]) message)

end ProtoSchema.Derivation
