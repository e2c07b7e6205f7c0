import ProtoSchema.Proofs.DirectiveKinds

/-!
What a list of rules writes into one schema. Every family has a place of its own, so a keyword shows
what the last rule of its family says, whatever rules of other families stand around it; of all
families only that of validations adds to what is there.
-/
namespace ProtoSchema

/-- The extension that rules of the family write. -/
def RuleKind.extension? : RuleKind → Option String
  | .preserveUnknownFields => some Extension.preserveUnknownFields
  | .embeddedResource => some Extension.embeddedResource
  | .intOrString => some Extension.intOrString
  | .validation => some Extension.validations
  | _ => none

/-- No two families write the same extension. -/
theorem RuleKind.extension?_inj {one other : RuleKind} {key : String}
    (first : one.extension? = some key) (second : other.extension? = some key) : one = other := by
  unfold extension? at first second
  split at first <;> cases first <;> split at second <;>
    first | rfl | cases second | exact absurd (Option.some.inj second) (by decide)

namespace Rule

variable {α : Type} {family : RuleKind} {said? : Rule → Option α} {rule : Rule} {rules : List Rule}

def number? : Rule → Option Binary64
  | .maximum number | .minimum number | .multipleOf number => some number
  | _ => none

def switch? : Rule → Option Bool
  | .exclusiveMaximum on | .exclusiveMinimum on | .uniqueItems on => some on
  | .nullable => some true
  | _ => none

def count? : Rule → Option Nat
  | .maxProperties count | .minProperties count | .maxLength count | .minLength count
  | .maxItems count | .minItems count => some count
  | _ => none

def text? : Rule → Option String
  | .pattern text | .format text => some text
  | _ => none

def values? : Rule → Option (List Json)
  | .enumeration values => some values
  | _ => none

def value? : Rule → Option Json
  | .defaultValue value | .exampleValue value => some value
  | .preserveUnknownFields | .embeddedResource | .intOrString => some (.boolean true)
  | _ => none

def validation? : Rule → Option Validation
  | .validation expression => some expression
  | _ => none

/-- What the last rule of the family says, if there is a rule of the family. -/
def last? (family : RuleKind) (said? : Rule → Option α) (rules : List Rule) : Option α :=
  (rules.filter (·.kind = family)).getLast?.bind said?

theorem last?_concat :
    last? family said? (rules ++ [rule]) =
      if rule.kind = family then said? rule else last? family said? rules := by
  unfold last?
  rw [List.filter_append]
  by_cases own : rule.kind = family
  · simp [own]
  · simp [own]

theorem last?_congr {others : List Rule}
    (same : rules.filter (·.kind = family) = others.filter (·.kind = family)) :
    last? family said? rules = last? family said? others := by
  rw [last?, last?, same]

theorem filterMap_validation? :
    rules.filterMap validation? = (rules.filter (·.kind = .validation)).filterMap validation? := by
  rw [List.filterMap_filter]
  refine List.filterMap_congr fun rule _ => ?_
  cases rule <;> rfl

end Rule

namespace Validation

/-- The validations that are there already. What is not a list holds none. -/
def listed : Option Json → List Json
  | some (.array earlier) => earlier
  | _ => []

/-- The list of validations with more of them at its end. -/
def addedTo (earlier : Option Json) (added : List Validation) : Option Json :=
  if added.isEmpty then earlier else some (.array (listed earlier ++ added.map toJson))

/-- What an entry of the list holds: the rule always, each message where it is not empty, and nothing else. -/
structure Spells (validation : Validation) (entries : List (String × Json)) : Prop where
  rule : entries.lookup "rule" = some (.text validation.rule)
  message : entries.lookup "message" =
    if validation.message = "" then none else some (.text validation.message)
  messageExpression : entries.lookup "messageExpression" =
    if validation.messageExpression = "" then none else some (.text validation.messageExpression)
  names : (Entries.names entries).Sublist ["rule", "message", "messageExpression"]

theorem exists_spells_toJson (validation : Validation) :
    ∃ entries, validation.toJson = .object entries ∧ validation.Spells entries := by
  refine ⟨_, rfl, ?_⟩
  -- Which of the three entries there are depends on the two messages alone.
  by_cases message : validation.message = "" <;> by_cases expression : validation.messageExpression = "" <;>
    constructor <;> simp [message, expression, Entries.names, List.lookup_cons]

theorem appendTo_eq (validation : Validation) (earlier : Option Json) :
    validation.appendTo earlier = .array (listed earlier ++ [validation.toJson]) := by
  unfold appendTo listed
  split <;> simp_all

theorem addedTo_concat (earlier : Option Json) (added : List Validation) (validation : Validation) :
    addedTo earlier (added ++ [validation]) = some (validation.appendTo (addedTo earlier added)) := by
  cases added with
  | nil => simp [addedTo, appendTo_eq]
  | cons first rest => simp [addedTo, appendTo_eq, listed]

end Validation

/-- The schema with every keyword as the last rule of its family says. Extensions are left out here. -/
def Schema.ruled (rules : List Rule) (schema : Schema) : Schema :=
  { schema with
    format := (Rule.last? .format Rule.text? rules).or schema.format
    allowed := (Rule.last? .enumeration Rule.values? rules).getD schema.allowed
    defaultValue := (Rule.last? .defaultValue Rule.value? rules).or schema.defaultValue
    exampleValue := (Rule.last? .exampleValue Rule.value? rules).or schema.exampleValue
    nullable := (Rule.last? .nullable Rule.switch? rules).getD schema.nullable
    minimum := (Rule.last? .minimum Rule.number? rules).or schema.minimum
    maximum := (Rule.last? .maximum Rule.number? rules).or schema.maximum
    exclusiveMinimum :=
      (Rule.last? .exclusiveMinimum Rule.switch? rules).getD schema.exclusiveMinimum
    exclusiveMaximum :=
      (Rule.last? .exclusiveMaximum Rule.switch? rules).getD schema.exclusiveMaximum
    multipleOf := (Rule.last? .multipleOf Rule.number? rules).or schema.multipleOf
    minLength := (Rule.last? .minLength Rule.count? rules).or schema.minLength
    maxLength := (Rule.last? .maxLength Rule.count? rules).or schema.maxLength
    pattern := (Rule.last? .pattern Rule.text? rules).or schema.pattern
    minItems := (Rule.last? .minItems Rule.count? rules).or schema.minItems
    maxItems := (Rule.last? .maxItems Rule.count? rules).or schema.maxItems
    uniqueItems := (Rule.last? .uniqueItems Rule.switch? rules).getD schema.uniqueItems
    minProperties := (Rule.last? .minProperties Rule.count? rules).or schema.minProperties
    maxProperties := (Rule.last? .maxProperties Rule.count? rules).or schema.maxProperties }

/-- A schema after rules, compared with the one before: keywords and marks show the last rule of their
family, the validations are added in order, and nothing else has changed. -/
structure Schema.Ruled (rules : List Rule) (before after : Schema) : Prop where
  keywords : { after with extensions := [] } = { before.ruled rules with extensions := [] }
  marks : ∀ family key, family.extension? = some key → family ≠ .validation →
    after.extensions.lookup key =
      (Rule.last? family Rule.value? rules).or (before.extensions.lookup key)
  validations : after.extensions.lookup Extension.validations =
    Validation.addedTo (before.extensions.lookup Extension.validations)
      (rules.filterMap Rule.validation?)
  others : ∀ key, (∀ family : RuleKind, family.extension? ≠ some key) →
    after.extensions.lookup key = before.extensions.lookup key

variable {schema before after : Schema} {rule : Rule} {rules : List Rule} {key : String}

theorem Schema.Ruled.nil (schema : Schema) : schema.Ruled [] schema where
  keywords := by simp [ruled, Rule.last?]
  marks _ _ _ _ := rfl
  validations := rfl
  others _ _ := rfl

/-! ## One more rule -/

theorem Rule.write_ruled (formed : rule.kind ≠ .schemaless) :
    { rule.write (schema.ruled rules) with extensions := [] } =
      { schema.ruled (rules ++ [rule]) with extensions := [] } := by
  cases rule with
  | schemaless => exact absurd rfl formed
  | _ =>
    simp [write, Schema.withExtension, Schema.ruled, last?_concat, kind, number?, switch?, count?,
      text?, values?, value?]

theorem Rule.keywords_write (formed : rule.kind ≠ .schemaless) (schema : Schema) :
    { rule.write schema with extensions := [] } =
      { rule.write { schema with extensions := [] } with extensions := [] } := by
  cases rule with
  | schemaless => exact absurd rfl formed
  | _ => rfl

theorem Rule.lookup_write (formed : rule.kind ≠ .schemaless) (schema : Schema) (key : String) :
    (rule.write schema).extensions.lookup key =
      if rule.kind.extension? = some key then
        match rule with
        | .validation expression => some (expression.appendTo (schema.extensions.lookup key))
        | _ => rule.value?
      else schema.extensions.lookup key := by
  cases rule with
  | schemaless => exact absurd rfl formed
  | preserveUnknownFields | embeddedResource | intOrString =>
      simp [write, Schema.withExtension, Entries.lookup_put, kind, RuleKind.extension?, value?, eq_comm]
  | validation expression =>
      by_cases here : key = Extension.validations
      · simp [write, Schema.withExtension, Entries.lookup_put, kind, RuleKind.extension?, here]
      · simp [write, Schema.withExtension, Entries.lookup_put, kind, RuleKind.extension?, here,
          Ne.symm here]
  | _ => rfl

/-- One rule more changes the place of its family and no other. -/
theorem Schema.Ruled.write (ruled : before.Ruled rules after) (formed : rule.kind ≠ .schemaless) :
    before.Ruled (rules ++ [rule]) (rule.write after) where
  keywords := by
    rw [Rule.keywords_write formed, ruled.keywords, ← Rule.keywords_write formed,
      Rule.write_ruled formed]
  marks family key writes mark := by
    rw [Rule.lookup_write formed, Rule.last?_concat, ruled.marks family key writes mark]
    by_cases own : rule.kind = family
    · rw [if_pos (own ▸ writes), if_pos own]
      cases rule with
      | validation => exact absurd own.symm mark
      | preserveUnknownFields | embeddedResource | intOrString => rfl
      | _ => subst own; cases writes
    · rw [if_neg fun again => own (RuleKind.extension?_inj again writes), if_neg own]
  validations := by
    rw [Rule.lookup_write formed, ruled.validations, List.filterMap_append]
    by_cases own : rule.kind = .validation
    · cases rule with
      | validation expression =>
          exact (Validation.addedTo_concat _ _ expression).symm
      | _ => cases own
    · have silent : rule.validation? = none := by
        cases rule with
        | validation => exact absurd rfl own
        | _ => rfl
      rw [if_neg fun again => own (RuleKind.extension?_inj again rfl), List.filterMap_cons, silent]
      simp
  others key free := by
    rw [Rule.lookup_write formed, if_neg (free rule.kind), ruled.others key free]

end ProtoSchema
