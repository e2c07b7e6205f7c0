import ProtoSchema.Proofs.DirectiveKinds

/-!
Directives that fail. An `Amending` changes a schema where it stands, so what it has written by the time
it fails stays written. A directive looks at the kind of its schema before it writes, so one that fails
has written nothing; of directives in a row, those before the first that fails have done their work.
-/
namespace ProtoSchema

/-! ## Changing a schema where it stands -/

/-- A change of the schema in place, which may fail halfway. -/
abbrev Amending := ExceptT DirectiveError (StateM Schema)

namespace Amending

variable {α β : Type}

/-- How a change ends, and the schema as it stands then. -/
def runOn (amending : Amending α) (schema : Schema) : Except DirectiveError α × Schema :=
  (amending.run.run schema).run

@[simp] theorem runOn_get (schema : Schema) : runOn get schema = (.ok schema, schema) := rfl

@[simp] theorem runOn_set (written schema : Schema) : runOn (set written) schema = (.ok ⟨⟩, written) :=
  rfl

@[simp] theorem runOn_liftExcept (result : Except DirectiveError α) (schema : Schema) :
    runOn (liftExcept result) schema = (result, schema) := by
  cases result <;> rfl

theorem runOn_bind (first : Amending α) (next : α → Amending β) (schema : Schema) :
    runOn (first >>= next) schema =
      match first.runOn schema with
      | (.ok value, after) => (next value).runOn after
      | (.error error, after) => (.error error, after) := by
  rw [runOn, run_bind, ← runOn]
  rcases first.runOn schema with ⟨_ | _, _⟩ <;> rfl

/-- Change the items of an array, if they stand in the array itself. -/
def inItems (amending : Amending Unit) : Amending Unit := do
  let schema ← get
  match schema.inlineItems? with
  | none => throw (.itemsMismatch schema.kindName)
  | some items =>
    let (result, changed) := amending.runOn items
    set { schema with items := some (.inline changed) }
    liftExcept result

end Amending

/-- Whether the schema is fit for the rule. A family with a requirement makes one check, for the kind of the
schema; multiples make a second one behind it, for a fraction on an integer; the other families make none. -/
def Rule.check (rule : Rule) (schema : Schema) : Except DirectiveError Unit :=
  match rule.kind.requirement? with
  | some requirement =>
    if !requirement.holds schema then .error (.kindMismatch rule.kind requirement schema.kindName)
    else match rule.fractionOn? schema with
      | some factor => .error (.fractionalMultiple factor)
      | none => .ok ()
  | none => .ok ()

/-- Look at the schema, then write into it. Every family makes all its checks before its single write, multiples
both of theirs, so this is the body of each: `check` says what is checked and in which order, `write` what is
written. -/
def Rule.amend (rule : Rule) : Amending Unit := do
  liftExcept (rule.check (← get))
  modify rule.write

def Directive.amend (directive : Directive) : Amending Unit :=
  match directive.scope with
  | .node => directive.rule.amend
  | .items => directive.rule.amend.inItems

/-- Read and apply directive lines one after the other. -/
def Registry.amend (registry : Registry) (target : Target) (raws : List String) : Amending Unit :=
  forM raws fun raw => do
    let directive ← liftExcept (registry.parse raw target)
    directive.amend

variable {schema changed reached start node : Schema} {rule : Rule} {directive : Directive}
  {registry : Registry} {target : Target} {raw : String} {raws : List String} {error : DirectiveError}

/-- How a change in place ends where the changed schema is computed aside: if that fails, there is none. -/
def Amending.ended (schema : Schema) :
    Except DirectiveError Schema → Except DirectiveError Unit × Schema
  | .ok changed => (.ok (), changed)
  | .error error => (.error error, schema)

theorem Rule.apply_eq (rule : Rule) (schema : Schema) :
    rule.apply schema = (rule.check schema).map fun _ => rule.write schema := by
  unfold apply check
  cases rule.kind.requirement? with
  | none => rfl
  | some requirement =>
      simp only
      split
      · rfl
      · cases rule.fractionOn? schema <;> rfl

theorem Rule.amend_runOn (rule : Rule) (schema : Schema) :
    rule.amend.runOn schema = Amending.ended schema (rule.apply schema) := by
  unfold amend
  rw [apply_eq]
  simp only [Amending.runOn_bind, Amending.runOn_get, Amending.runOn_liftExcept]
  cases rule.check schema <;> rfl

theorem Schema.withItems_self {slot : Slot Schema} (stands : schema.items = some slot) :
    { schema with items := some slot } = schema := by
  cases schema
  cases stands
  rfl

/-- What a change left in the items before it failed is put back, so it is there that nothing may have
been written. -/
theorem Amending.inItems_runOn (amending : Amending Unit) (schema : Schema) :
    amending.inItems.runOn schema =
      match schema.inlineItems? with
      | none => (.error (.itemsMismatch schema.kindName), schema)
      | some items =>
        ((amending.runOn items).1,
          { schema with items := some (.inline (amending.runOn items).2) }) := by
  unfold inItems
  simp only [runOn_bind, runOn_get]
  cases schema.inlineItems? with
  | none => rfl
  | some items => simp only [runOn_bind, runOn_set, runOn_liftExcept]

theorem Directive.amend_runOn (directive : Directive) (schema : Schema) :
    directive.amend.runOn schema = Amending.ended schema (directive.apply schema) := by
  obtain ⟨rule, scope⟩ := directive
  cases scope with
  | node => exact rule.amend_runOn schema
  | items =>
      unfold amend apply
      simp only [Amending.inItems_runOn, rule.amend_runOn]
      cases found : schema.inlineItems? with
      | none => rfl
      | some items =>
          simp only
          cases rule.apply items with
          | ok changed => rfl
          | error error =>
              have kept := Schema.withItems_self (Schema.inlineItems?_eq found)
              simp only [Amending.ended, kept]
              rfl

/-! ## When a directive fails -/

/-- The kinds of schema that a family can be applied to; without any, it can be applied to all. -/
def RuleKind.kinds? : RuleKind → Option (List Kind)
  | .maximum | .minimum | .exclusiveMaximum | .exclusiveMinimum | .multipleOf =>
    some [.integer, .number]
  | .maxProperties | .minProperties => some [.object]
  | .maxLength | .minLength | .pattern => some [.string]
  | .maxItems | .minItems | .uniqueItems => some [.array]
  | .enumeration | .format | .type | .preserveUnknownFields | .embeddedResource | .intOrString
  | .validation | .required | .nullable | .defaultValue | .exampleValue | .schemaless => none

/-- The schema has not the kind for the rule, or is to be a multiple of a fraction as an integer. -/
inductive Rule.Unfit (rule : Rule) (node : Schema) : Prop
  | kind {kinds : List Kind} : rule.kind.kinds? = some kinds →
      (∀ kind ∈ kinds, node.kind ≠ some kind) → Unfit rule node
  | fraction {factor : Binary64} : rule = .multipleOf factor → node.kind = some .integer →
      factor.toInt? = none → Unfit rule node

/-- The schema that a directive is about: the one it is written on, or the items of that array. -/
def Directive.node? (directive : Directive) (schema : Schema) : Option Schema :=
  match directive.scope with
  | .node => some schema
  | .items => schema.inlineItems?

def Directive.Refused (directive : Directive) (schema : Schema) : Prop :=
  directive.node? schema = none ∨
    ∃ node, directive.node? schema = some node ∧ directive.rule.Unfit node

theorem RuleKind.kinds?_eq_none_iff {family : RuleKind} :
    family.kinds? = none ↔ family.requirement? = none := by
  cases family <;> simp [kinds?, requirement?]

theorem Requirement.holds_iff {family : RuleKind} {requirement : Requirement} {kinds : List Kind}
    (needed : family.requirement? = some requirement) (allowed : family.kinds? = some kinds) :
    requirement.holds node = true ↔ ∃ kind ∈ kinds, node.kind = some kind := by
  unfold RuleKind.requirement? at needed
  unfold RuleKind.kinds? at allowed
  split at needed <;> cases needed <;> cases allowed <;>
    simp [Requirement.holds, Schema.isNumeric]

theorem Rule.fractionOn?_eq_some {factor : Binary64} :
    rule.fractionOn? node = some factor ↔
      rule = .multipleOf factor ∧ node.kind = some .integer ∧ factor.toInt? = none := by
  unfold fractionOn?
  cases rule with
  | multipleOf other =>
      simp only [Option.ite_none_right_eq_some, Option.some.injEq, Rule.multipleOf.injEq]
      constructor
      · rintro ⟨⟨integer, fraction⟩, rfl⟩
        exact ⟨rfl, integer, fraction⟩
      · rintro ⟨rfl, integer, fraction⟩
        exact ⟨⟨integer, fraction⟩, rfl⟩
  | _ => simp

theorem Rule.apply_error_iff :
    (∃ error, rule.apply node = .error error) ↔ rule.Unfit node := by
  unfold apply
  cases needed : rule.kind.requirement? with
  | none =>
      have free := RuleKind.kinds?_eq_none_iff.2 needed
      constructor
      · rintro ⟨error, impossible⟩
        cases impossible
      · rintro (⟨allowed, -⟩ | ⟨rfl, -, -⟩)
        · cases allowed.symm.trans free
        · cases needed
  | some requirement =>
      obtain ⟨kinds, allowed⟩ : ∃ kinds, rule.kind.kinds? = some kinds := by
        rw [← Option.isSome_iff_exists, ← Option.ne_none_iff_isSome, Ne,
          RuleKind.kinds?_eq_none_iff, needed]
        exact Option.some_ne_none _
      have met : requirement.holds node = true ↔ _ := Requirement.holds_iff needed allowed
      simp only
      split
      · rename_i missed
        refine iff_of_true ⟨_, rfl⟩ (.kind allowed fun kind member same => ?_)
        simp [met.2 ⟨kind, member, same⟩] at missed
      · rename_i holds
        cases fraction : rule.fractionOn? node with
        | some factor =>
            obtain ⟨asks, integer, whole⟩ := Rule.fractionOn?_eq_some.1 fraction
            exact iff_of_true ⟨_, rfl⟩ (.fraction asks integer whole)
        | none =>
            constructor
            · rintro ⟨error, impossible⟩
              cases impossible
            · rintro (⟨others, outside⟩ | ⟨asks, integer, whole⟩)
              · cases others.symm.trans allowed
                obtain ⟨kind, member, same⟩ := met.1 (by simpa using holds)
                exact absurd same (outside kind member)
              · cases (Rule.fractionOn?_eq_some.2 ⟨asks, integer, whole⟩).symm.trans fraction

theorem Directive.apply_error_iff :
    (∃ error, directive.apply schema = .error error) ↔ directive.Refused schema := by
  obtain ⟨rule, scope⟩ := directive
  unfold apply Refused node?
  cases scope with
  | node => simp [Rule.apply_error_iff]
  | items =>
      cases schema.inlineItems? with
      | none => simp
      | some items =>
          have mapped : (∃ error, ((rule.apply items).map fun changed =>
              { schema with items := some (.inline changed) }) = .error error) ↔
              ∃ error, rule.apply items = .error error := by
            cases rule.apply items <;> simp [Except.map]
          simp [mapped, Rule.apply_error_iff]

theorem Directive.amend_error_iff :
    (∃ error, (directive.amend.runOn schema).1 = .error error) ↔ directive.Refused schema := by
  rw [← apply_error_iff, amend_runOn]
  cases directive.apply schema <;> simp [Amending.ended]

theorem Directive.amend_of_refused (refused : directive.Refused schema) :
    (directive.amend.runOn schema).2 = schema := by
  obtain ⟨error, failed⟩ := apply_error_iff.2 refused
  rw [amend_runOn, failed]
  rfl

/-! ## Directives in a row -/

namespace Registry

/-- The line cannot be read, or the directive on it cannot be applied to the schema. -/
inductive FailsOn (registry : Registry) (target : Target) (raw : String) (schema : Schema)
    (error : DirectiveError) : Prop
  | reading : registry.parse raw target = .error error → FailsOn registry target raw schema error
  | applying {directive : Directive} : registry.parse raw target = .ok directive →
      directive.apply schema = .error error → FailsOn registry target raw schema error

theorem applyLine_error_iff :
    registry.applyLine target schema raw = .error error ↔
      registry.FailsOn target raw schema error := by
  unfold applyLine
  constructor
  · intro failed
    cases read : registry.parse raw target with
    | error other =>
        rw [read] at failed
        cases failed
        exact .reading read
    | ok directive =>
        rw [read] at failed
        exact .applying read failed
  · rintro (read | ⟨read, failed⟩)
    · rw [read]
      rfl
    · rw [read]
      exact failed

theorem amend_nil (start : Schema) : (registry.amend target []).runOn start = (.ok (), start) := rfl

/-- The first line is read and applied; what is behind it starts from where that ends. -/
theorem amend_cons (raw : String) (raws : List String) (start : Schema) :
    (registry.amend target (raw :: raws)).runOn start =
      match registry.applyLine target start raw with
      | .ok changed => (registry.amend target raws).runOn changed
      | .error error => (.error error, start) := by
  rw [amend, List.forM_cons, ← amend]
  simp only [Amending.runOn_bind, Amending.runOn_liftExcept, applyLine]
  cases registry.parse raw target with
  | error error => rfl
  | ok directive =>
      simp only [directive.amend_runOn]
      change _ = match directive.apply start with
        | .ok changed => (registry.amend target raws).runOn changed
        | .error error => (.error error, start)
      cases directive.apply start <;> rfl

theorem amend_append_of_ok {before behind : List String}
    (done : (registry.amend target before).runOn start = (.ok (), reached)) :
    (registry.amend target (before ++ behind)).runOn start =
      (registry.amend target behind).runOn reached := by
  unfold amend at done ⊢
  rw [List.forM_append, Amending.runOn_bind, done]

/-- A row of directives fails at one of them, with all before it done and none behind it begun. -/
theorem amend_error_iff :
    (registry.amend target raws).runOn start = (.error error, reached) ↔
      ∃ before raw behind, raws = before ++ raw :: behind ∧
        (registry.amend target before).runOn start = (.ok (), reached) ∧
        registry.FailsOn target raw reached error := by
  constructor
  · intro failed
    induction raws generalizing start with
    | nil => cases failed
    | cons raw raws ih =>
        rw [amend_cons] at failed
        cases line : registry.applyLine target start raw with
        | error other =>
            rw [line] at failed
            cases failed
            exact ⟨[], raw, raws, rfl, amend_nil _, applyLine_error_iff.1 line⟩
        | ok changed =>
            rw [line] at failed
            obtain ⟨before, first, behind, rfl, done, fails⟩ := ih failed
            refine ⟨raw :: before, first, behind, rfl, ?_, fails⟩
            rw [amend_cons, line]
            exact done
  · rintro ⟨before, raw, behind, rfl, done, fails⟩
    rw [amend_append_of_ok done, amend_cons, applyLine_error_iff.2 fails]

theorem amend_eq_applyUntilError (raws : List String) (start : Schema) :
    (registry.amend target raws).runOn start =
      match registry.applyUntilError target raws start with
      | (reached, none) => (.ok (), reached)
      | (reached, some error) => (.error error, reached) := by
  induction raws generalizing start with
  | nil => rfl
  | cons raw raws ih =>
      rw [amend_cons, applyUntilError]
      cases registry.applyLine target start raw with
      | error error => rfl
      | ok changed => exact ih changed

theorem applyAll_eq_amend (raws : List String) (start : Schema) :
    registry.applyAll target raws start =
      ((registry.amend target raws).runOn start).1.map fun _ =>
        ((registry.amend target raws).runOn start).2 := by
  induction raws generalizing start with
  | nil => rfl
  | cons raw raws ih =>
      rw [amend_cons, applyAll, List.foldlM_cons]
      cases registry.applyLine target start raw with
      | error error => rfl
      | ok changed => exact ih changed

/-- A directive fails where its schema is not fit for its rule, and has changed nothing then; so directives in
a row that fail leave the work of those before the first that fails. Where changes are computed aside, they
come to the same. -/
theorem failure_writes_nothing (registry : Registry) :
    (∀ (directive : Directive) (schema : Schema),
      ((∃ error, (directive.amend.runOn schema).1 = .error error) ↔ directive.Refused schema) ∧
        (directive.Refused schema → (directive.amend.runOn schema).2 = schema) ∧
        directive.amend.runOn schema = Amending.ended schema (directive.apply schema)) ∧
      ∀ (target : Target) (raws : List String) (start : Schema),
        (∀ error reached, (registry.amend target raws).runOn start = (.error error, reached) ↔
          ∃ before raw behind, raws = before ++ raw :: behind ∧
            (registry.amend target before).runOn start = (.ok (), reached) ∧
            registry.FailsOn target raw reached error) ∧
        ((registry.amend target raws).runOn start =
          match registry.applyUntilError target raws start with
          | (reached, none) => (.ok (), reached)
          | (reached, some error) => (.error error, reached)) ∧
        registry.applyAll target raws start =
          ((registry.amend target raws).runOn start).1.map fun _ =>
            ((registry.amend target raws).runOn start).2 := by
  refine ⟨fun directive schema => ?_, fun target raws start => ?_⟩
  · exact ⟨directive.amend_error_iff, directive.amend_of_refused, directive.amend_runOn schema⟩
  · exact ⟨fun _ _ => amend_error_iff, amend_eq_applyUntilError raws start, applyAll_eq_amend raws start⟩

end Registry

end ProtoSchema
