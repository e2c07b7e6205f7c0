import ProtoSchema.Directive.Application
import ProtoSchema.Directive.Argument
import ProtoSchema.Text.Split

/-!
The directives that are known, by name and target. A directive is found by the longest name that it
starts with, followed by its end, an equals sign or a colon. A name under `validation:` may be given
to the items of an array by writing `items:` in front of it.
-/
namespace ProtoSchema

structure Definition where
  name : String
  target : Target
  kind : RuleKind
deriving DecidableEq

/-- Definitions in the order in which their names were first registered. -/
abbrev Registry := List Definition

namespace Registry

/-- Add a definition, or give a known name and target a new kind. -/
def register (name : String) (target : Target) (kind : RuleKind) : Registry → Registry
  | [] => [⟨name, target, kind⟩]
  | known :: rest =>
    if known.name = name ∧ known.target = target then { known with kind } :: rest
    else known :: register name target kind rest

def validationLead : String := "kubebuilder:validation:"

def itemsLead : String := "items:"

/-- The rules under `validation:` that may stand on fields and on types. -/
def validationRules : List (String × RuleKind) :=
  [("Maximum", .maximum), ("Minimum", .minimum), ("ExclusiveMaximum", .exclusiveMaximum),
    ("ExclusiveMinimum", .exclusiveMinimum), ("MultipleOf", .multipleOf),
    ("MinProperties", .minProperties), ("MaxProperties", .maxProperties),
    ("MaxLength", .maxLength), ("MinLength", .minLength), ("Pattern", .pattern),
    ("MaxItems", .maxItems), ("MinItems", .minItems), ("UniqueItems", .uniqueItems),
    ("Enum", .enumeration), ("Format", .format), ("Type", .type),
    ("XPreserveUnknownFields", .preserveUnknownFields), ("XEmbeddedResource", .embeddedResource),
    ("XIntOrString", .intOrString), ("XValidation", .validation)]

def fieldRules : List (String × RuleKind) :=
  [("kubebuilder:validation:Required", .required),
    ("kubebuilder:validation:Nullable", .nullable),
    ("kubebuilder:default", .defaultValue),
    ("kubebuilder:example", .exampleValue),
    ("kubebuilder:validation:EmbeddedResource", .embeddedResource),
    ("kubebuilder:validation:Schemaless", .schemaless),
    ("kubebuilder:pruning:PreserveUnknownFields", .preserveUnknownFields)]

def builtin : Registry :=
  validationRules.map (fun (name, kind) => ⟨validationLead ++ name, .field, kind⟩)
    ++ validationRules.map (fun (name, kind) => ⟨validationLead ++ name, .type, kind⟩)
    ++ fieldRules.map (fun (name, kind) => ⟨name, .field, kind⟩)
    ++ [⟨"kubebuilder:pruning:PreserveUnknownFields", .type, .preserveUnknownFields⟩]

end Registry

/-- What follows the name of a definition in a directive that starts with it. -/
def Definition.argumentsIn? (definition : Definition) (marker : List Char) : Option (List Char) :=
  match Text.after? definition.name.toList marker with
  | some [] => some []
  | some (c :: rest) => if c = '=' ∨ c = ':' then some (c :: rest) else none
  | none => none

def Definition.appliesToItems (definition : Definition) : Bool :=
  match Text.after? Registry.validationLead.toList definition.name.toList with
  | some name => (Entries.names Registry.validationRules).contains (String.ofList name)
  | none => false

namespace Registry

/-- The definition of the target with the longest name that the directive starts with. -/
def lookup (registry : Registry) (marker : List Char) (target : Target) : Option Definition :=
  registry.foldl (fun best definition =>
    if definition.target = target ∧ (definition.argumentsIn? marker).isSome then
      match best with
      | some known => if known.name.length ≤ definition.name.length then some definition else best
      | none => some definition
    else best) none

/-- A directive without blanks at its ends and without the plus sign in front. -/
def markerOf (raw : String) : List Char :=
  match Text.trim raw.toList with
  | '+' :: rest => rest
  | text => text

/-- The scope of a directive, and the directive as it would be written for that scope alone. -/
def addressed (marker : List Char) : Scope × List Char :=
  match Text.after? (validationLead ++ itemsLead).toList marker with
  | some inner => (.items, validationLead.toList ++ inner)
  | none => (.node, marker)

def parse (registry : Registry) (raw : String) (target : Target) :
    Except DirectiveError Directive :=
  let (scope, marker) := addressed (markerOf raw)
  match registry.lookup marker target with
  | none => .error (.noDefinition raw target)
  | some definition =>
    if scope = .items ∧ !definition.appliesToItems then .error (.noDefinition raw target)
    else
      match definition.kind.read ((definition.argumentsIn? marker).getD []) with
      | .ok rule => .ok ⟨rule, scope⟩
      | .error reason => .error (.malformed raw reason)

def applyLine (registry : Registry) (target : Target) (schema : Schema) (raw : String) :
    Except DirectiveError Schema := do
  (← registry.parse raw target).apply schema

/-- Apply directive lines in order up to the first that fails: the schema reached, and the error if
there was one. -/
def applyUntilError (registry : Registry) (target : Target) :
    (raws : List String) → (schema : Schema) → Schema × Option DirectiveError
  | [], schema => (schema, none)
  | raw :: raws, schema =>
    match registry.applyLine target schema raw with
    | .ok changed => applyUntilError registry target raws changed
    | .error error => (schema, some error)

/-- Apply directive lines in order; one that fails fails them all. -/
def applyAll (registry : Registry) (target : Target) (raws : List String) (schema : Schema) :
    Except DirectiveError Schema :=
  raws.foldlM (registry.applyLine target) schema

/-- Whether a field is required: whether one of its directives says so for the field itself.
Directives behind that one are not looked at. -/
def isRequired (registry : Registry) : List String → Except DirectiveError Bool
  | [] => .ok false
  | raw :: raws => do
    match ← registry.parse raw .field with
    | ⟨.required, .node⟩ => .ok true
    | _ => isRequired registry raws

/-- The first type override among the directives. Directives behind it are not looked at. -/
def typeOverride? (registry : Registry) (target : Target) :
    List String → Except DirectiveError (Option TypeOverride)
  | [] => .ok none
  | raw :: raws => do
    match ← registry.parse raw target with
    | ⟨.type override, .node⟩ => .ok (some override)
    | _ => typeOverride? registry target raws

end Registry

end ProtoSchema
