import ProtoSchema.Proofs.DirectiveWriting

/-!
Directives on the items of an array. Behind `items:`, a text is read by the definition that it is read by
without, if that is one of the rules under `validation:`; and what the directive does to the items is what
it does to a schema of its own.
-/
namespace ProtoSchema

namespace Registry

variable {registry : Registry} {target : Target} {raw text : String} {scope : Scope}
  {definition : Definition}

/-! ## The definition that a directive is read by -/

/-- The schema that a directive line is for, and the definition that it is read by. -/
def resolve? (registry : Registry) (raw : String) (target : Target) : Option (Scope × Definition) :=
  let (scope, marker) := addressed (markerOf raw)
  match registry.lookup marker target with
  | some definition =>
    if scope = .items ∧ !definition.appliesToItems then none else some (scope, definition)
  | none => none

/-- What stands behind the name of the definition in a directive line. -/
def argumentsOf (raw : String) (definition : Definition) : List Char :=
  (definition.argumentsIn? (addressed (markerOf raw)).2).getD []

theorem parse_eq_resolve (registry : Registry) (raw : String) (target : Target) :
    registry.parse raw target =
      match registry.resolve? raw target with
      | none => .error (.noDefinition raw target)
      | some (scope, definition) =>
        match definition.kind.read (argumentsOf raw definition) with
        | .ok rule => .ok ⟨rule, scope⟩
        | .error reason => .error (.malformed raw reason) := by
  unfold parse resolve? argumentsOf
  simp only
  cases registry.lookup (addressed (markerOf raw)).2 target with
  | none => rfl
  | some definition =>
      simp only
      split <;> rfl

theorem fits_of_resolve (resolved : registry.resolve? raw target = some (scope, definition)) :
    definition ∈ registry ∧ Fits (addressed (markerOf raw)).2 target definition := by
  unfold resolve? at resolved
  simp only at resolved
  split at resolved
  · rename_i found
    split at resolved
    · cases resolved
    · cases resolved
      exact fits_of_lookup found
  · cases resolved

/-! ## The two spellings -/

/-- A directive line for a name under `validation:`. -/
def nodeLine (text : String) : String := "+" ++ validationLead ++ text

/-- The same name, for the items of an array. -/
def itemsLine (text : String) : String := "+" ++ validationLead ++ itemsLead ++ text

theorem markerOf_behind {lead : List Char} (text : List Char) (closes : Scanner.Closes lead)
    (spelled : raw.toList = '+' :: lead ++ text) : markerOf raw = lead ++ Text.trimEnd text := by
  have signed : Scanner.Closes ('+' :: lead) := closes.prepend ['+']
  have trimmed : Text.trim ('+' :: lead ++ text) = '+' :: (lead ++ Text.trimEnd text) := by
    rw [Text.trim, Text.trimStart_of_head (by rintro _ ⟨⟩; decide), signed.trimEnd_append,
      List.cons_append]
  simp only [markerOf, spelled, trimmed]

theorem markerOf_nodeLine (text : String) :
    markerOf (nodeLine text) = validationLead.toList ++ Text.trimEnd text.toList := by
  refine markerOf_behind text.toList ⟨"kubebuilder:validation".toList, ':', ?_, by decide⟩ ?_
  · simp [validationLead]
  · simp [nodeLine]

theorem markerOf_itemsLine (text : String) :
    markerOf (itemsLine text) = (validationLead ++ itemsLead).toList ++ Text.trimEnd text.toList := by
  refine markerOf_behind text.toList ⟨"kubebuilder:validation:items".toList, ':', ?_, by decide⟩ ?_
  · simp [validationLead, itemsLead]
  · simp [itemsLine]

theorem addressed_items (rest : List Char) :
    addressed ((validationLead ++ itemsLead).toList ++ rest) = (.items, validationLead.toList ++ rest) := by
  unfold addressed
  rw [Text.after?_eq_some.2 rfl]

theorem addressed_itemsLine (text : String) :
    addressed (markerOf (itemsLine text)) =
      (.items, validationLead.toList ++ Text.trimEnd text.toList) := by
  rw [markerOf_itemsLine, addressed_items]

/-- No built-in name begins with `items:`. -/
theorem lookup_under_items (rest : List Char) (target : Target) :
    builtin.lookup ((validationLead ++ itemsLead).toList ++ rest) target = none := by
  cases found : builtin.lookup ((validationLead ++ itemsLead).toList ++ rest) target with
  | none => rfl
  | some definition =>
      obtain ⟨member, fits⟩ := fits_of_lookup found
      obtain ⟨arguments, given⟩ := Option.isSome_iff_exists.1 fits.2
      obtain ⟨spelled, -⟩ := Definition.argumentsIn?_eq_some.1 given
      have own := addressed_builtin member arguments
      rw [← spelled, addressed_items] at own
      cases own

theorem addressed_nodeLine (text : String) :
    addressed (markerOf (nodeLine text)) = (.node, validationLead.toList ++ Text.trimEnd text.toList) ∨
      (addressed (markerOf (nodeLine text))).1 = .items ∧
        ∀ target, builtin.lookup (validationLead.toList ++ Text.trimEnd text.toList) target = none := by
  rw [markerOf_nodeLine]
  unfold addressed
  split
  · rename_i inner nested
    refine .inr ⟨rfl, fun target => ?_⟩
    rw [Text.after?_eq_some.1 nested]
    exact lookup_under_items inner target
  · exact .inl rfl

/-- Behind `items:`, a text is for the items where it is for a schema without, by a definition that applies to
items. -/
theorem resolve_itemsLine (text : String) (target : Target) :
    builtin.resolve? (itemsLine text) target =
      (builtin.resolve? (nodeLine text) target).bind fun (scope, definition) =>
        if scope = .node ∧ definition.appliesToItems then some (.items, definition) else none := by
  unfold resolve?
  rw [addressed_itemsLine]
  rcases addressed_nodeLine text with plain | ⟨nested, missing⟩
  · rw [plain]
    simp only
    cases builtin.lookup (validationLead.toList ++ Text.trimEnd text.toList) target with
    | none => rfl
    | some definition => cases applies : definition.appliesToItems <;> simp [applies]
  · simp only [missing, nested]
    split
    · rename_i definition found
      split <;> simp
    · rfl

theorem argumentsOf_itemsLine
    (resolved : builtin.resolve? (nodeLine text) target = some (.node, definition)) :
    argumentsOf (itemsLine text) definition = argumentsOf (nodeLine text) definition := by
  rcases addressed_nodeLine text with plain | ⟨nested, -⟩
  · rw [argumentsOf, argumentsOf, addressed_itemsLine, plain]
  · unfold resolve? at resolved
    simp only [nested] at resolved
    split at resolved
    · split at resolved <;> cases resolved
    · cases resolved

/-! ## Reading for items -/

theorem appliesToItems_fieldRules : ∀ rule ∈ fieldRules, ∀ target,
    (⟨rule.1, target, rule.2⟩ : Definition).appliesToItems = false := by
  have apart : ∀ rule ∈ fieldRules,
      (⟨rule.1, .field, rule.2⟩ : Definition).appliesToItems = false := by decide
  exact fun rule listed target => apart rule listed

theorem appliesToItems_iff (member : definition ∈ builtin) :
    definition.appliesToItems = true ↔
      ∃ rule ∈ validationRules, definition = ⟨validationLead ++ rule.1, definition.target, rule.2⟩ := by
  have forward : ¬ definition.appliesToItems = true →
      ¬ ∃ rule ∈ validationRules, definition = ⟨validationLead ++ rule.1, definition.target, rule.2⟩ := by
    rintro other ⟨rule, listed, same⟩
    rw [same] at other
    exact other (appliesToItems_of_mem _ listed)
  rcases mem_builtin.1 member with ⟨rule, listed, target, rfl⟩ | ⟨rule, listed, rfl⟩ | rfl
  · exact iff_of_true (appliesToItems_of_mem target listed) ⟨rule, listed, rfl⟩
  · have other := Bool.eq_false_iff.1 (appliesToItems_fieldRules rule listed .field)
    exact iff_of_false other (forward other)
  · have other := Bool.eq_false_iff.1 (appliesToItems_fieldRules
      ("kubebuilder:pruning:PreserveUnknownFields", .preserveUnknownFields) (by decide) .type)
    exact iff_of_false other (forward other)

/-- A directive line is read for the schema it is written on, by one of the rules under `validation:`. -/
def ReadByRule (raw : String) (target : Target) : Prop :=
  ∃ rule ∈ validationRules,
    builtin.resolve? raw target = some (.node, ⟨validationLead ++ rule.1, target, rule.2⟩)

/-- A directive line is read by one of the definitions for fields alone. -/
def ReadByFieldRule (raw : String) (target : Target) : Prop :=
  ∃ rule ∈ fieldRules, builtin.resolve? raw target = some (.node, ⟨rule.1, .field, rule.2⟩)

theorem readByRule_iff :
    ReadByRule raw target ↔
      ∃ definition, builtin.resolve? raw target = some (.node, definition) ∧
        definition.appliesToItems = true := by
  constructor
  · rintro ⟨rule, listed, resolved⟩
    exact ⟨_, resolved, appliesToItems_of_mem target listed⟩
  · rintro ⟨definition, resolved, applies⟩
    obtain ⟨member, rfl, -⟩ := fits_of_resolve resolved
    obtain ⟨rule, listed, same⟩ := (appliesToItems_iff member).1 applies
    exact ⟨rule, listed, by rw [resolved, ← same]⟩

theorem parse_itemsLine (read : ReadByRule (nodeLine text) target) :
    (∃ rule, builtin.parse (nodeLine text) target = .ok ⟨rule, .node⟩ ∧
        builtin.parse (itemsLine text) target = .ok ⟨rule, .items⟩) ∨
      ∃ reason, builtin.parse (nodeLine text) target = .error (.malformed (nodeLine text) reason) ∧
        builtin.parse (itemsLine text) target = .error (.malformed (itemsLine text) reason) := by
  obtain ⟨definition, resolved, applies⟩ := readByRule_iff.1 read
  have within : builtin.resolve? (itemsLine text) target = some (.items, definition) := by
    rw [resolve_itemsLine, resolved]
    simp [applies]
  simp only [parse_eq_resolve, resolved, within, argumentsOf_itemsLine resolved]
  cases definition.kind.read (argumentsOf (nodeLine text) definition) with
  | ok rule => exact .inl ⟨rule, rfl, rfl⟩
  | error reason => exact .inr ⟨reason, rfl, rfl⟩

theorem parse_itemsLine_eq_noDefinition (other : ¬ ReadByRule (nodeLine text) target) :
    builtin.parse (itemsLine text) target = .error (.noDefinition (itemsLine text) target) := by
  have missing : builtin.resolve? (itemsLine text) target = none := by
    rw [resolve_itemsLine, Option.bind_eq_none_iff]
    rintro ⟨scope, definition⟩ resolved
    refine if_neg ?_
    rintro ⟨rfl, applies⟩
    exact other (readByRule_iff.2 ⟨definition, resolved, applies⟩)
  rw [parse_eq_resolve, missing]

theorem not_readByRule_of_noDefinition
    (unknown : builtin.parse raw target = .error (.noDefinition raw target)) :
    ¬ ReadByRule raw target := by
  rintro ⟨rule, listed, resolved⟩
  rw [parse_eq_resolve, resolved] at unknown
  simp only at unknown
  split at unknown <;> cases unknown

theorem not_readByRule_of_readByFieldRule (field : ReadByFieldRule raw target) :
    ¬ ReadByRule raw target := by
  obtain ⟨rule, listed, resolved⟩ := field
  intro read
  obtain ⟨definition, known, applies⟩ := readByRule_iff.1 read
  cases known.symm.trans resolved
  rw [appliesToItems_fieldRules rule listed] at applies
  cases applies

/-- A text behind `items:` is a directive on the items of an array if without `items:` it is the same
directive by one of the rules under `validation:`, and it is none if without `items:` it is none or for
fields alone. On the array around a schema it does what it does on the schema. -/
theorem itemsLine_mirrors_nodeLine (target : Target) (text : String) :
    (∀ rule, builtin.parse (itemsLine text) target = .ok ⟨rule, .items⟩ ↔
        builtin.parse (nodeLine text) target = .ok ⟨rule, .node⟩ ∧ ReadByRule (nodeLine text) target) ∧
      (∀ directive, builtin.parse (itemsLine text) target = .ok directive → directive.scope = .items) ∧
      (∀ reason, builtin.parse (itemsLine text) target = .error (.malformed (itemsLine text) reason) ↔
        builtin.parse (nodeLine text) target = .error (.malformed (nodeLine text) reason) ∧
          ReadByRule (nodeLine text) target) ∧
      (builtin.parse (nodeLine text) target = .error (.noDefinition (nodeLine text) target) ∨
          ReadByFieldRule (nodeLine text) target →
        builtin.parse (itemsLine text) target = .error (.noDefinition (itemsLine text) target)) ∧
      ∀ (rule : Rule) (array items : Schema),
        Directive.apply ⟨rule, .items⟩
            { array with kind := some .array, items := some (.inline items) } =
          (Directive.apply ⟨rule, .node⟩ items).map fun changed =>
            { array with kind := some .array, items := some (.inline changed) } := by
  refine ⟨fun rule => ?_, fun directive => ?_, fun reason => ?_, ?_, fun rule array items => rfl⟩
  · by_cases read : ReadByRule (nodeLine text) target
    · rcases parse_itemsLine read with ⟨known, plain, within⟩ | ⟨reason, plain, within⟩ <;>
        simp [plain, within, read]
    · simp [parse_itemsLine_eq_noDefinition read, read]
  · by_cases read : ReadByRule (nodeLine text) target
    · rcases parse_itemsLine read with ⟨known, plain, within⟩ | ⟨reason, plain, within⟩
      · rw [within]
        rintro ⟨⟩
        rfl
      · rw [within]
        rintro ⟨⟩
    · rw [parse_itemsLine_eq_noDefinition read]
      rintro ⟨⟩
  · by_cases read : ReadByRule (nodeLine text) target
    · rcases parse_itemsLine read with ⟨known, plain, within⟩ | ⟨reason, plain, within⟩ <;>
        simp [plain, within, read]
    · simp [parse_itemsLine_eq_noDefinition read, read]
  · rintro (unknown | field)
    · exact parse_itemsLine_eq_noDefinition (not_readByRule_of_noDefinition unknown)
    · exact parse_itemsLine_eq_noDefinition (not_readByRule_of_readByFieldRule field)

end Registry

end ProtoSchema
