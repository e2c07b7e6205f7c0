import ProtoSchema.Proofs.DirectiveNames
import ProtoSchema.Proofs.DirectiveSuccess

/-!
The kind of a schema under directives. A directive either leaves the kind as it is or takes all form
from the schema that it is written on; directives of the second sort are known for fields only.
-/
namespace ProtoSchema

variable {schema changed : Schema}

/-- The directive takes all form from the schema that it is written on. -/
def Directive.clears (directive : Directive) : Bool :=
  match directive with
  | ⟨.schemaless, .node⟩ => true
  | _ => false

theorem Rule.kind_write_of_ne {rule : Rule} (formed : rule.kind ≠ .schemaless) (schema : Schema) :
    (rule.write schema).kind = schema.kind := by
  cases rule with
  | schemaless => exact absurd rfl formed
  | _ => rfl

theorem Directive.kind_of_apply {directive : Directive}
    (applied : directive.apply schema = .ok changed) :
    changed.kind = if directive.clears then none else schema.kind := by
  obtain ⟨rule, scope⟩ := directive
  unfold Directive.apply at applied
  cases scope with
  | node =>
      rw [Rule.eq_write_of_apply applied]
      cases rule with
      | schemaless => rfl
      | _ => exact Rule.kind_write_of_ne (by simp [Rule.kind]) schema
  | items =>
      have form : Directive.clears ⟨rule, .items⟩ = false := by cases rule <;> rfl
      simp only at applied
      split at applied
      · obtain ⟨items, -, rfl⟩ := exists_of_map_ok applied
        rw [form]
        rfl
      · cases applied

namespace Registry

variable {registry : Registry} {target : Target} {raw : String} {raws : List String}

/-- One of the directive lines takes all form from the schema. -/
def clears (registry : Registry) (target : Target) (raws : List String) : Bool :=
  raws.any fun raw => (registry.parse raw target).toOption.any Directive.clears

theorem clears_cons {directive : Directive} (read : registry.parse raw target = .ok directive) :
    registry.clears target (raw :: raws) = (directive.clears || registry.clears target raws) := by
  unfold clears
  rw [List.any_cons, read]
  rfl

theorem kind_of_applyAll (applied : registry.applyAll target raws schema = .ok changed) :
    changed.kind = if registry.clears target raws then none else schema.kind := by
  induction raws generalizing schema with
  | nil => cases applied; rfl
  | cons raw raws ih =>
      obtain ⟨directive, next, read, first, others⟩ := applyAll_cons_ok.1 applied
      rw [ih others, Directive.kind_of_apply first, clears_cons read]
      cases directive.clears <;> cases registry.clears target raws <;> rfl

/-- A directive that was read is of the family of a definition for its target. -/
theorem exists_definition_of_parse {directive : Directive}
    (read : registry.parse raw target = .ok directive) :
    ∃ definition ∈ registry, definition.target = target ∧ directive.rule.kind = definition.kind := by
  unfold parse at read
  simp only at read
  split at read
  · cases read
  · rename_i definition found
    obtain ⟨member, fits⟩ := fits_of_lookup found
    split at read
    · cases read
    · split at read
      · rename_i rule ended
        cases read
        exact ⟨definition, member, fits.1, RuleKind.kind_of_read ended⟩
      · cases read

/-- No directive for a message takes its form. -/
theorem clears_builtin_type : builtin.clears .type raws = false := by
  have formed : ∀ definition ∈ builtin, definition.target = .type → definition.kind ≠ .schemaless := by
    decide
  refine List.any_eq_false.2 fun raw _ => ?_
  cases read : builtin.parse raw .type with
  | error error => simp [Except.toOption]
  | ok directive =>
      obtain ⟨definition, member, aimed, family⟩ := exists_definition_of_parse read
      have kept : directive.clears = false := by
        obtain ⟨rule, scope⟩ := directive
        cases rule with
        | schemaless => exact absurd family.symm (formed definition member aimed)
        | _ => rfl
      simp [Except.toOption, kept]

end Registry

end ProtoSchema
