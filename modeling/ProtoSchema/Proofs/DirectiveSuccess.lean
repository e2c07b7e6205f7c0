import ProtoSchema.Proofs.Mentions

/-!
When directives succeed. A rule looks at the kind of the schema it is applied to and at nothing else, so
directives that succeed on one schema succeed on every schema of the same kind, with items of the same
kind where there are any in place.
-/
namespace ProtoSchema

variable {left right changed : Schema}

/-- The same kind, in the schemas and in their items. -/
structure Schema.SameKind (left right : Schema) : Prop where
  kind : left.kind = right.kind
  items : left.inlineItems?.map (·.kind) = right.inlineItems?.map (·.kind)

theorem Schema.SameKind.refl (schema : Schema) : schema.SameKind schema := ⟨rfl, rfl⟩

theorem Schema.sameKind_of_items (kind : left.kind = right.kind) (items : left.items = right.items) :
    left.SameKind right := by
  refine ⟨kind, ?_⟩
  unfold Schema.inlineItems?
  rw [kind, items]

theorem Schema.SameKind.describedAs (same : left.SameKind right) (description : String) :
    (left.describedAs description).SameKind (right.describedAs description) :=
  ⟨same.kind, same.items⟩

theorem Schema.sameKind_arrayOf (kind : left.kind = right.kind) :
    (Schema.arrayOf (.inline left)).SameKind (Schema.arrayOf (.inline right)) :=
  ⟨rfl, congrArg some kind⟩

theorem Schema.sameKind_mapOf {one two : Slot Schema} :
    (Schema.mapOf one).SameKind (Schema.mapOf two) := ⟨rfl, rfl⟩

theorem Schema.sameKind_withItems {items others : Schema} (schema : left.kind = right.kind)
    (kind : items.kind = others.kind) :
    ({ left with items := some (.inline items) } : Schema).SameKind
      { right with items := some (.inline others) } := by
  refine ⟨schema, ?_⟩
  unfold Schema.inlineItems?
  simp only [schema]
  cases right.kind with
  | none => rfl
  | some known => cases known <;> simp [kind]

theorem Rule.kind_write (rule : Rule) (kind : left.kind = right.kind) :
    (rule.write left).kind = (rule.write right).kind := by
  cases rule with
  | schemaless => rfl
  | _ => exact kind

theorem Rule.sameKind_write (rule : Rule) (same : left.SameKind right) :
    (rule.write left).SameKind (rule.write right) := by
  cases rule with
  | schemaless => exact ⟨rfl, rfl⟩
  | _ => exact ⟨same.kind, same.items⟩

theorem Rule.apply_of_kind {rule : Rule} (kind : left.kind = right.kind)
    (applied : rule.apply left = .ok changed) : rule.apply right = .ok (rule.write right) := by
  have holds (requirement : Requirement) : requirement.holds left = requirement.holds right := by
    cases requirement <;> simp only [Requirement.holds, Schema.isNumeric, kind]
  have fraction : rule.fractionOn? left = rule.fractionOn? right := by
    cases rule <;> simp only [Rule.fractionOn?, kind]
  unfold Rule.apply at applied ⊢
  cases needed : rule.kind.requirement? with
  | none => rfl
  | some requirement =>
      simp only [needed, holds, fraction] at applied ⊢
      split at applied
      · cases applied
      · rename_i met
        rw [if_neg met]
        split at applied
        · cases applied
        · rfl

theorem Directive.apply_of_sameKind {directive : Directive} (same : left.SameKind right)
    (applied : directive.apply left = .ok changed) :
    ∃ altered, directive.apply right = .ok altered ∧ changed.SameKind altered := by
  unfold Directive.apply at applied ⊢
  cases level : directive.scope with
  | node =>
      simp only [level] at applied ⊢
      rw [Rule.eq_write_of_apply applied]
      exact ⟨_, Rule.apply_of_kind same.kind applied, Rule.sameKind_write directive.rule same⟩
  | items =>
      simp only [level] at applied ⊢
      cases found : left.inlineItems? with
      | none =>
          simp only [found] at applied
          cases applied
      | some items =>
          simp only [found] at applied
          obtain ⟨inner, ruled, rfl⟩ := exists_of_map_ok applied
          have kinds := same.items
          rw [found, Option.map_some] at kinds
          obtain ⟨others, likewise, kind⟩ := Option.map_eq_some_iff.1 kinds.symm
          simp only [likewise, Rule.eq_write_of_apply ruled, Rule.apply_of_kind kind.symm ruled]
          exact ⟨_, rfl, Schema.sameKind_withItems same.kind (Rule.kind_write directive.rule kind.symm)⟩

theorem Registry.applyAll_of_sameKind {registry : Registry} {target : Target} {directives : List String}
    (same : left.SameKind right) (applied : registry.applyAll target directives left = .ok changed) :
    ∃ altered, registry.applyAll target directives right = .ok altered := by
  induction directives generalizing left right with
  | nil => exact ⟨right, rfl⟩
  | cons directive rest ih =>
      obtain ⟨parsed, _, read, first, others⟩ := applyAll_cons_ok.1 applied
      obtain ⟨_, likewise, kind⟩ := Directive.apply_of_sameKind same first
      obtain ⟨last, succeeds⟩ := ih kind others
      exact ⟨last, applyAll_cons_ok.2 ⟨parsed, _, read, likewise, succeeds⟩⟩

end ProtoSchema
