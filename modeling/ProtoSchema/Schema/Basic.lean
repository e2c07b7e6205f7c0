import ProtoSchema.Json.Value

/-!
Object schemas. A schema is a set of keywords of its own and the schemas below it; every place below
it is a `Slot` that holds a schema or points at a component of the document.
-/
namespace ProtoSchema

inductive Kind where
  | object
  | array
  | string
  | number
  | integer
  | boolean
deriving DecidableEq, Repr

def Kind.name : Kind → String
  | .object => "object"
  | .array => "array"
  | .string => "string"
  | .number => "number"
  | .integer => "integer"
  | .boolean => "boolean"

structure Keywords where
  kind : Option Kind := none
  format : Option String := none
  description : String := ""
  allowed : List Json := []
  defaultValue : Option Json := none
  exampleValue : Option Json := none
  nullable : Bool := false
  minimum : Option Binary64 := none
  maximum : Option Binary64 := none
  exclusiveMinimum : Bool := false
  exclusiveMaximum : Bool := false
  multipleOf : Option Binary64 := none
  minLength : Option Nat := none
  maxLength : Option Nat := none
  pattern : Option String := none
  minItems : Option Nat := none
  maxItems : Option Nat := none
  uniqueItems : Bool := false
  required : List String := []
  minProperties : Option Nat := none
  maxProperties : Option Nat := none
  extensions : List (String × Json) := []

/-- A place for a schema, filled by the schema itself or by the path of a component. -/
inductive Slot (α : Type) where
  | reference (path : String)
  | inline (schema : α)

structure Schema extends Keywords where
  items : Option (Slot Schema) := none
  properties : List (String × Slot Schema) := []
  additionalProperties : Option (Slot Schema) := none
  oneOf : List (Slot Schema) := []
  anyOf : List (Slot Schema) := []
  allOf : List (Slot Schema) := []
  negated : Option (Slot Schema) := none

instance : Inhabited Schema := ⟨{}⟩

instance : Coe Schema (Slot Schema) := ⟨Slot.inline⟩

namespace Extension

def preserveUnknownFields : String := "x-kubernetes-preserve-unknown-fields"
def embeddedResource : String := "x-kubernetes-embedded-resource"
def intOrString : String := "x-kubernetes-int-or-string"
def validations : String := "x-kubernetes-validations"

def names : List String := [preserveUnknownFields, embeddedResource, intOrString, validations]

end Extension

namespace Slot

def componentPath (absoluteName : String) : String := "#/components/schemas/" ++ absoluteName

def component {α : Type} (absoluteName : String) : Slot α :=
  .reference (componentPath absoluteName)

/-- Change the schema that stands in the slot itself; a reference stays as it is. -/
def mapInline {α : Type} (change : α → α) : Slot α → Slot α
  | .reference path => .reference path
  | .inline schema => .inline (change schema)

end Slot

namespace Schema

def ofKind (kind : Kind) : Schema := { kind := some kind }

def object : Schema := ofKind .object
def string : Schema := ofKind .string
def boolean : Schema := ofKind .boolean
def integer : Schema := ofKind .integer

def withFormat (format : String) (schema : Schema) : Schema := { schema with format := some format }
def withMinimum (bound : Int) (schema : Schema) : Schema :=
  { schema with minimum := some (Binary64.ofInt bound) }
def withMaximum (bound : Int) (schema : Schema) : Schema :=
  { schema with maximum := some (Binary64.ofInt bound) }
def asNullable (schema : Schema) : Schema := { schema with nullable := true }
def describedAs (description : String) (schema : Schema) : Schema :=
  { schema with description := description }
def withExtension (key : String) (value : Json) (schema : Schema) : Schema :=
  { schema with extensions := Entries.put key value schema.extensions }

def float64 : Schema := ofKind .number |>.withFormat "double"
def int32 : Schema := integer.withFormat "int32"
def int64 : Schema := integer.withFormat "int64"
def bytes : Schema := string.withFormat "byte"

def arrayOf (items : Slot Schema) : Schema := { kind := some .array, items := some items }

def mapOf (values : Slot Schema) : Schema :=
  { kind := some .object, additionalProperties := some values }

/-- A value of any shape, whose unknown fields are kept. -/
def anyValue : Schema := ({} : Schema).withExtension Extension.preserveUnknownFields (.boolean true)

/-- An object of any shape, whose unknown fields are kept. -/
def openObject : Schema := object.withExtension Extension.preserveUnknownFields (.boolean true)

/-- A 64-bit integer that may also be written as a string. -/
def intOrString64 : Schema := int64.withExtension Extension.intOrString (.boolean true)

def requiring (field : String) : Schema := { required := [field] }

def kindName (schema : Schema) : String :=
  match schema.kind with
  | some kind => kind.name
  | none => "untyped"

def isNumeric (schema : Schema) : Bool :=
  schema.kind == some .integer || schema.kind == some .number

end Schema

end ProtoSchema
