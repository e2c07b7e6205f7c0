import ProtoSchema.Schema.Basic

/-!
Constraint rules. A rule belongs to one family, its `RuleKind`, which fixes the form of its argument
and the kind of schema it applies to.
-/
namespace ProtoSchema

inductive Target where
  | type
  | field
deriving DecidableEq

def Target.name : Target → String
  | .type => "type"
  | .field => "field"

/-- Which schema a rule is meant for: the one it is written on, or the items of that array. -/
inductive Scope where
  | node
  | items
deriving DecidableEq

inductive RuleKind where
  | maximum
  | minimum
  | exclusiveMaximum
  | exclusiveMinimum
  | multipleOf
  | maxProperties
  | minProperties
  | maxLength
  | minLength
  | pattern
  | maxItems
  | minItems
  | uniqueItems
  | enumeration
  | format
  | type
  | preserveUnknownFields
  | embeddedResource
  | intOrString
  | validation
  | required
  | nullable
  | defaultValue
  | exampleValue
  | schemaless
deriving DecidableEq

inductive TypeOverride where
  | object
  | value
deriving DecidableEq

/-- An expression that has to hold, and what to say when it does not. -/
structure Validation where
  rule : String := ""
  message : String := ""
  messageExpression : String := ""
deriving DecidableEq

inductive Rule where
  | maximum (bound : Binary64)
  | minimum (bound : Binary64)
  | exclusiveMaximum (on : Bool)
  | exclusiveMinimum (on : Bool)
  | multipleOf (factor : Binary64)
  | maxProperties (count : Nat)
  | minProperties (count : Nat)
  | maxLength (count : Nat)
  | minLength (count : Nat)
  | pattern (text : String)
  | maxItems (count : Nat)
  | minItems (count : Nat)
  | uniqueItems (on : Bool)
  | enumeration (values : List Json)
  | format (name : String)
  | type (override : TypeOverride)
  | preserveUnknownFields
  | embeddedResource
  | intOrString
  | validation (expression : Validation)
  | required
  | nullable
  | defaultValue (value : Json)
  | exampleValue (value : Json)
  | schemaless

namespace RuleKind

def all : List RuleKind :=
  [.maximum, .minimum, .exclusiveMaximum, .exclusiveMinimum, .multipleOf, .maxProperties,
    .minProperties, .maxLength, .minLength, .pattern, .maxItems, .minItems, .uniqueItems,
    .enumeration, .format, .type, .preserveUnknownFields, .embeddedResource, .intOrString,
    .validation, .required, .nullable, .defaultValue, .exampleValue, .schemaless]

def name : RuleKind → String
  | .maximum => "Maximum"
  | .minimum => "Minimum"
  | .exclusiveMaximum => "ExclusiveMaximum"
  | .exclusiveMinimum => "ExclusiveMinimum"
  | .multipleOf => "MultipleOf"
  | .maxProperties => "MaxProperties"
  | .minProperties => "MinProperties"
  | .maxLength => "MaxLength"
  | .minLength => "MinLength"
  | .pattern => "Pattern"
  | .maxItems => "MaxItems"
  | .minItems => "MinItems"
  | .uniqueItems => "UniqueItems"
  | .enumeration => "Enum"
  | .format => "Format"
  | .type => "Type"
  | .preserveUnknownFields => "PreserveUnknownFields"
  | .embeddedResource => "EmbeddedResource"
  | .intOrString => "IntOrString"
  | .validation => "XValidation"
  | .required => "Required"
  | .nullable => "Nullable"
  | .defaultValue => "Default"
  | .exampleValue => "Example"
  | .schemaless => "Schemaless"

def ofName? (name : String) : Option RuleKind := all.find? (·.name == name)

end RuleKind

def Rule.kind : Rule → RuleKind
  | .maximum _ => .maximum
  | .minimum _ => .minimum
  | .exclusiveMaximum _ => .exclusiveMaximum
  | .exclusiveMinimum _ => .exclusiveMinimum
  | .multipleOf _ => .multipleOf
  | .maxProperties _ => .maxProperties
  | .minProperties _ => .minProperties
  | .maxLength _ => .maxLength
  | .minLength _ => .minLength
  | .pattern _ => .pattern
  | .maxItems _ => .maxItems
  | .minItems _ => .minItems
  | .uniqueItems _ => .uniqueItems
  | .enumeration _ => .enumeration
  | .format _ => .format
  | .type _ => .type
  | .preserveUnknownFields => .preserveUnknownFields
  | .embeddedResource => .embeddedResource
  | .intOrString => .intOrString
  | .validation _ => .validation
  | .required => .required
  | .nullable => .nullable
  | .defaultValue _ => .defaultValue
  | .exampleValue _ => .exampleValue
  | .schemaless => .schemaless

def Validation.toJson (validation : Validation) : Json :=
  let optional (key value : String) : List (String × Json) :=
    if value.isEmpty then [] else [(key, .text value)]
  .object (("rule", .text validation.rule) :: optional "message" validation.message
    ++ optional "messageExpression" validation.messageExpression)

structure Directive where
  rule : Rule
  scope : Scope

end ProtoSchema
