import ProtoSchema.Derivation.Basic

/-!
The schemas of fields. A field has the schema of its declared type, in an array if it is repeated; a
map is an object whose further properties follow the type of its values. How a message that a field
names is shown is left to the caller, as `resolve`.
-/
namespace ProtoSchema.Derivation

variable (derivation : Derivation)

/-- What stands for a message that a field names; a bare reference only where one is allowed. -/
abbrev Resolver := (id : Nat) → (referenceAllowed : Bool) → Deriving (Slot Schema)

inductive DeclaredType (model : Model) where
  | scalar (schema : Schema)
  | enum (enum : Enum)
  | message (id : Nat) (message : Message) (found : model.message? id = some message)

def declaredType (declaration : String) (field : Field) :
    Except Failure (DeclaredType derivation.model) :=
  match field.kind.scalar? derivation.settings.nativeIntegers with
  | some schema => .ok (.scalar schema)
  | none =>
    match field.kind, field.link with
    | .enum, some (.enum id) =>
      match derivation.model.enum? id with
      | some enum => .ok (.enum enum)
      | none => .error (.unresolvedType declaration "<unlinked enum>")
    | .enum, _ => .error (.unresolvedType declaration "<unlinked enum>")
    | _, some (.message id) =>
      match found : derivation.model.message? id with
      | some message => .ok (.message id message found)
      | none => .error (.unresolvedType declaration "<unlinked message>")
    | _, _ => .error (.unresolvedType declaration "<unlinked message>")

/-- The slot of a field around the slot of its type: in an array if the field is repeated, and
described as the field is. A reference cannot be described. -/
def fieldSlot (repeated : Bool) (description : String) (slot : Slot Schema) : Slot Schema :=
  (if repeated then Slot.inline (Schema.arrayOf slot) else slot).mapInline
    (Schema.describedAs description)

/-- The slot for the declared type of a field. `maps` are the entry types of the maps around it. -/
def typeSlot (resolve : Resolver) (maps : List Nat) (declaration description : String)
    (referenceAllowed : Bool) (field : Field) : Deriving (Slot Schema) :=
  match derivation.declaredType declaration field with
  | .error failure => throw failure
  | .ok (.scalar schema) => pure (fieldSlot field.repeated description schema)
  | .ok (.enum enum) =>
    pure (fieldSlot field.repeated description (derivation.enumSchema enum))
  | .ok (.message id message found) =>
    match derivation.catalog.find? message.absoluteName with
    | some schema => pure (fieldSlot field.repeated description schema)
    | none =>
      if message.mapEntry then
        match message.fields[1]? with
        | none => throw (.mapWithoutValue declaration)
        | some value =>
          if visited : id ∈ maps then throw (.endlessMap declaration)
          else do
            have := unvisited_cons_lt (Model.lt_of_message? found) visited
            let reading := derivation.settings.readComment value.comment
            let values ← typeSlot resolve (id :: maps) (declaration ++ "." ++ value.name)
              reading.description true value
            pure (fieldSlot false description (Schema.mapOf values))
      else fieldSlot field.repeated description <$> resolve id referenceAllowed
termination_by unvisited derivation.model.messages.length maps

def overriding : TypeOverride → Schema
  | .object => Schema.openObject
  | .value => Schema.anyValue

/-- Apply the directives of a field to its schema. A reference has no room for rules. -/
def applyToSlot (directives : List String) : Slot Schema → Except DirectiveError (Slot Schema)
  | .reference path => .ok (.reference path)
  | .inline schema =>
    (derivation.registry.applyAll .field directives schema).map Slot.inline

structure Property where
  name : String
  required : Bool
  slot : Slot Schema

def property (resolve : Resolver) (owner : String) (field : Field) : Deriving Property := do
  let declaration := owner ++ "." ++ field.name
  let ⟨description, directives⟩ := derivation.settings.readComment field.comment
  let required ← guilty declaration (derivation.registry.isRequired directives)
  let slot ←
    match ← guilty declaration (derivation.registry.typeOverride? .field directives) with
    | some override => pure (fieldSlot field.repeated description (overriding override))
    | none => derivation.typeSlot resolve [] declaration description directives.isEmpty field
  let slot ← guilty declaration (derivation.applyToSlot directives slot)
  pure { name := field.wireName, required, slot }

end ProtoSchema.Derivation
