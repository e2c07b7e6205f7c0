import ProtoSchema.Directive.Fault

/-!
Applying rules to schemas. `Rule.write` sets the keyword of a rule; `Rule.apply` first makes sure
that the schema is of the kind the rule needs; `Directive.apply` picks the schema that the directive
is meant for.
-/
namespace ProtoSchema

def RuleKind.requirement? : RuleKind → Option Requirement
  | .maximum | .minimum | .exclusiveMaximum | .exclusiveMinimum | .multipleOf => some .numeric
  | .maxProperties | .minProperties => some (.kind .object)
  | .maxLength | .minLength | .pattern => some (.kind .string)
  | .maxItems | .minItems | .uniqueItems => some (.kind .array)
  | _ => none

def Requirement.holds (requirement : Requirement) (schema : Schema) : Bool :=
  match requirement with
  | .numeric => schema.isNumeric
  | .kind wanted => schema.kind == some wanted

/-- The list of validations with one more; what is not a list gives way to a new one. -/
def Validation.appendTo (validation : Validation) : Option Json → Json
  | some (.array earlier) => .array (earlier ++ [validation.toJson])
  | _ => .array [validation.toJson]

namespace Rule

/-- Set what the rule says. A type override is settled before, and a required field is noted by the
message that holds it. -/
def write (rule : Rule) (schema : Schema) : Schema :=
  match rule with
  | .maximum bound => { schema with maximum := some bound }
  | .minimum bound => { schema with minimum := some bound }
  | .exclusiveMaximum on => { schema with exclusiveMaximum := on }
  | .exclusiveMinimum on => { schema with exclusiveMinimum := on }
  | .multipleOf factor => { schema with multipleOf := some factor }
  | .maxProperties count => { schema with maxProperties := some count }
  | .minProperties count => { schema with minProperties := some count }
  | .maxLength count => { schema with maxLength := some count }
  | .minLength count => { schema with minLength := some count }
  | .pattern text => { schema with pattern := some text }
  | .maxItems count => { schema with maxItems := some count }
  | .minItems count => { schema with minItems := some count }
  | .uniqueItems on => { schema with uniqueItems := on }
  | .enumeration values => { schema with allowed := values }
  | .format name => { schema with format := some name }
  | .type _ => schema
  | .preserveUnknownFields => schema.withExtension Extension.preserveUnknownFields (.boolean true)
  | .embeddedResource => schema.withExtension Extension.embeddedResource (.boolean true)
  | .intOrString => schema.withExtension Extension.intOrString (.boolean true)
  | .validation expression =>
    schema.withExtension Extension.validations
      (expression.appendTo (schema.extensions.lookup Extension.validations))
  | .required => schema
  | .nullable => { schema with nullable := true }
  | .defaultValue value => { schema with defaultValue := some value }
  | .exampleValue value => { schema with exampleValue := some value }
  | .schemaless => { description := schema.description }

def fractionOn? (rule : Rule) (schema : Schema) : Option Binary64 :=
  match rule with
  | .multipleOf factor =>
    if schema.kind = some .integer ∧ factor.toInt? = none then some factor else none
  | _ => none

def apply (rule : Rule) (schema : Schema) : Except DirectiveError Schema :=
  match rule.kind.requirement? with
  | some requirement =>
    if !requirement.holds schema then
      .error (.kindMismatch rule.kind requirement schema.kindName)
    else match rule.fractionOn? schema with
      | some factor => .error (.fractionalMultiple factor)
      | none => .ok (rule.write schema)
  | none => .ok (rule.write schema)

end Rule

/-- The schema of the items of an array, if it stands in the array itself. -/
def Schema.inlineItems? (schema : Schema) : Option Schema :=
  match schema.kind, schema.items with
  | some .array, some (.inline items) => some items
  | _, _ => none

def Directive.apply (directive : Directive) (schema : Schema) : Except DirectiveError Schema :=
  match directive.scope with
  | .node => directive.rule.apply schema
  | .items =>
    match schema.inlineItems? with
    | some items =>
      (directive.rule.apply items).map fun changed =>
        { schema with items := some (.inline changed) }
    | none => .error (.itemsMismatch schema.kindName)

end ProtoSchema
