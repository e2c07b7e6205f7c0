import ProtoSchema.Proofs.Arguments
import ProtoSchema.Proofs.DirectiveNames

/-!
Directives are read back. A rule that is written behind a built-in name of its family, or behind the name
for the items of an array, is parsed as this rule.
-/
namespace ProtoSchema.Registry

variable {layout : Layout} {rule : Rule} {definition : Definition} {marker : List Char} {raw : String}

/-- The plus sign in front of a directive may be left out. -/
theorem markerOf_signed (first : ∃ rest, marker = 'k' :: rest) (closes : Scanner.Closes marker)
    (signed : raw.toList = '+' :: marker ∨ raw.toList = marker) : markerOf raw = marker := by
  obtain ⟨rest, split⟩ := first
  rcases signed with spelled | spelled
  · have trimmed : Text.trim ('+' :: marker) = '+' :: marker :=
      Scanner.trim_of_begins ⟨_, _, rfl, by decide⟩ (closes.prepend ['+'])
    simp only [markerOf, spelled, trimmed]
  · have trimmed : Text.trim marker = marker :=
      Scanner.trim_of_begins ⟨_, _, split, by decide⟩ closes
    rw [markerOf, spelled, trimmed, split]
    rfl

theorem closes_written {lead : List Char} (canonical : rule.Canonical layout) (filled : lead ≠ [])
    (last : (lead.getLast?.all fun c => !Text.isBlank c) = true) :
    Scanner.Closes (lead ++ rule.written layout) := by
  by_cases nothing : rule.written layout = []
  · rw [List.getLast?_eq_some_getLast filled] at last
    rw [nothing, List.append_nil]
    exact ⟨_, _, (List.dropLast_concat_getLast filled).symm, by simpa using last⟩
  · exact (Rule.written_closes canonical nothing).prepend lead

section

variable (member : definition ∈ builtin)

include member

/-- No directive for a built-in name is taken for one on the items of an array. -/
theorem addressed_builtin (arguments : List Char) :
    addressed (definition.name.toList ++ arguments) = (.node, definition.name.toList ++ arguments) := by
  have clear := clear_builtin member
  unfold addressed
  split
  · rename_i inner found
    have under : itemsName <+: definition.name.toList ++ arguments :=
      ⟨inner, by rw [Text.after?_eq_some.1 found, toList_itemsName]⟩
    -- Two prefixes of one text: the shorter of them begins the longer.
    rcases List.prefix_or_prefix_of_prefix under (List.prefix_append _ arguments) with inside | around
    · exact absurd inside clear.notUnderItems
    · exact absurd around clear.notItems
  · rfl

section

variable {arguments : List Char}
  (set : ∀ c ∈ arguments.head?, c = '=' ∨ c = ':' ∧ definition.kind = .validation)

include set

/-- What a directive says is what its arguments are read as. -/
theorem parse_of_addressed {scope : Scope}
    (aimed : addressed (markerOf raw) = (scope, definition.name.toList ++ arguments))
    (applies : scope = .items → definition.appliesToItems = true) :
    builtin.parse raw definition.target =
      match definition.kind.read arguments with
      | .ok rule => .ok ⟨rule, scope⟩
      | .error reason => .error (.malformed raw reason) := by
  have found := lookup_builtin member set
  have given : definition.argumentsIn? (definition.name.toList ++ arguments) = some arguments :=
    Definition.argumentsIn?_eq_some.2 ⟨rfl, fun c first => (set c first).imp_right And.left⟩
  have allowed : ¬ (scope = .items ∧ (!definition.appliesToItems) = true) := by
    rintro ⟨items, refused⟩
    rw [applies items] at refused
    cases refused
  cases read : definition.kind.read arguments <;>
    simp only [parse, aimed, found, given, if_neg allowed, Option.getD_some, read]

theorem parse_of_spelled (closes : Scanner.Closes (definition.name.toList ++ arguments))
    (spelled : raw.toList = '+' :: (definition.name.toList ++ arguments) ∨
      raw.toList = definition.name.toList ++ arguments) :
    builtin.parse raw definition.target =
      match definition.kind.read arguments with
      | .ok rule => .ok ⟨rule, .node⟩
      | .error reason => .error (.malformed raw reason) := by
  obtain ⟨rest, split⟩ := (clear_builtin member).first
  have stripped : markerOf raw = definition.name.toList ++ arguments :=
    markerOf_signed ⟨rest ++ arguments, by rw [split, List.cons_append]⟩ closes spelled
  refine parse_of_addressed member set ?_ nofun
  rw [stripped, addressed_builtin member]

end

theorem name_ne_nil : definition.name.toList ≠ [] := by
  obtain ⟨rest, split⟩ := (clear_builtin member).first
  rw [split]
  exact List.cons_ne_nil _ _

variable (family : definition.kind = rule.kind)

include family

theorem parse_written (canonical : rule.Canonical layout)
    (spelled : raw.toList = '+' :: (definition.name.toList ++ rule.written layout) ∨
      raw.toList = definition.name.toList ++ rule.written layout) :
    builtin.parse raw definition.target = .ok ⟨rule, .node⟩ := by
  have closes := closes_written canonical (name_ne_nil member) (clear_builtin member).last
  rw [parse_of_spelled member (family ▸ Rule.head_written layout rule) closes spelled, family,
    Rule.read_written canonical]

end

theorem appliesToItems_of_mem {short : String} {kind : RuleKind} (target : Target)
    (listed : (short, kind) ∈ validationRules) :
    (⟨validationLead ++ short, target, kind⟩ : Definition).appliesToItems = true := by
  have behind : Text.after? validationLead.toList (validationLead ++ short).toList = some short.toList := by
    rw [Text.after?_eq_some, String.toList_append]
  have known : short ∈ Entries.names validationRules := List.mem_map_of_mem listed
  rw [Definition.appliesToItems, behind]
  simpa only [String.ofList_toList, List.contains_iff_mem] using known

/-- A rule on the items of an array is found under the name of the rule itself. -/
theorem parse_written_items {short : String} (target : Target)
    (listed : (short, rule.kind) ∈ validationRules) (canonical : rule.Canonical layout)
    (spelled : raw.toList = '+' :: ((validationLead ++ itemsLead ++ short).toList ++ rule.written layout) ∨
      raw.toList = (validationLead ++ itemsLead ++ short).toList ++ rule.written layout) :
    builtin.parse raw target = .ok ⟨rule, .items⟩ := by
  have member : (⟨validationLead ++ short, target, rule.kind⟩ : Definition) ∈ builtin :=
    mem_builtin.2 (.inl ⟨_, listed, target, rfl⟩)
  have nonempty : short.toList ≠ [] := by
    have named : ∀ rule ∈ validationRules, rule.1 ≠ "" := by decide
    exact fun nothing => named _ listed (String.toList_eq_nil_iff.1 nothing)
  have marked : (validationLead ++ itemsLead ++ short).toList = itemsName ++ short.toList := by
    rw [String.toList_append, toList_itemsName]
  have closes : Scanner.Closes (itemsName ++ short.toList ++ rule.written layout) := by
    have last := (clear_validationRules _ listed).last
    rw [String.toList_append, List.getLast?_append_of_ne_nil _ nonempty] at last
    refine closes_written canonical (by simp [nonempty]) ?_
    rwa [List.getLast?_append_of_ne_nil _ nonempty]
  have stripped : markerOf raw = itemsName ++ short.toList ++ rule.written layout := by
    rw [marked] at spelled
    exact markerOf_signed ⟨_, rfl⟩ closes spelled
  have under : Text.after? (validationLead ++ itemsLead).toList (markerOf raw) =
      some (short.toList ++ rule.written layout) := by
    rw [Text.after?_eq_some, stripped, toList_itemsName, List.append_assoc]
  have aimed : addressed (markerOf raw) =
      (.items, (validationLead ++ short).toList ++ rule.written layout) := by
    rw [addressed, under, String.toList_append, List.append_assoc]
  rw [parse_of_addressed member (Rule.head_written layout rule) aimed fun _ =>
    appliesToItems_of_mem target listed, Rule.read_written canonical]

/-- Every family has a name for fields. -/
theorem exists_name (kind : RuleKind) : ∃ name, ⟨name, .field, kind⟩ ∈ builtin := by
  have named : ∃ definition ∈ builtin, definition.target = .field ∧ definition.kind = kind := by
    cases kind <;> decide
  obtain ⟨⟨name, _, _⟩, member, rfl, rfl⟩ := named
  exact ⟨name, member⟩

end ProtoSchema.Registry

namespace ProtoSchema.Rule

variable {layout : Layout} {rule : Rule} {sign : String}

/-- The directive for a rule: its name behind the sign, and its argument behind the name. -/
def directive (layout : Layout) (sign name : String) (rule : Rule) : String :=
  sign ++ name ++ String.ofList (rule.written layout)

theorem toList_directive (signed : sign = "+" ∨ sign = "") (name : String) :
    (rule.directive layout sign name).toList = '+' :: (name.toList ++ rule.written layout) ∨
      (rule.directive layout sign name).toList = name.toList ++ rule.written layout := by
  rcases signed with rfl | rfl
  · exact .inl (by simp [directive])
  · exact .inr (by simp [directive])

/-- A canonical directive is parsed as the rule that it was written for, under every name that its family
has for the target, and on the items of an array under the names that may stand there. -/
theorem parse_directive (canonical : rule.Canonical layout) (signed : sign = "+" ∨ sign = "") :
    (∃ name, ⟨name, .field, rule.kind⟩ ∈ Registry.builtin) ∧
      (∀ name target, ⟨name, target, rule.kind⟩ ∈ Registry.builtin →
        Registry.builtin.parse (rule.directive layout sign name) target = .ok ⟨rule, .node⟩) ∧
      ∀ short target, (short, rule.kind) ∈ Registry.validationRules →
        Registry.builtin.parse (rule.directive layout sign (Registry.validationLead ++ short)) target =
            .ok ⟨rule, .node⟩ ∧
          Registry.builtin.parse (rule.directive layout sign
              (Registry.validationLead ++ Registry.itemsLead ++ short)) target =
            .ok ⟨rule, .items⟩ := by
  have named : ∀ name target, ⟨name, target, rule.kind⟩ ∈ Registry.builtin →
      Registry.builtin.parse (rule.directive layout sign name) target = .ok ⟨rule, .node⟩ :=
    fun name target member => Registry.parse_written member rfl canonical (toList_directive signed name)
  refine ⟨Registry.exists_name rule.kind, named, fun short target listed => ⟨?_, ?_⟩⟩
  · exact named _ target (Registry.mem_builtin.2 (.inl ⟨_, listed, target, rfl⟩))
  · exact Registry.parse_written_items target listed canonical (toList_directive signed _)

theorem parse_directive_default_and_validation :
    Registry.builtin.parse "+kubebuilder:default=\x7b\x60a:b\x60: \x7btrue, \x60x, y\x60, \x7b\x7d\x7d\x7d"
        .field =
        .ok ⟨.defaultValue (.object [("a:b", .array [.boolean true, .text "x, y", .array []])]), .node⟩ ∧
      Registry.builtin.parse
          "kubebuilder:validation:items:XValidation:message=\"say \\\"no\\\"\", rule=\"self > 1\"" .type =
        .ok ⟨.validation { rule := "self > 1", message := "say \"no\"" }, .items⟩ := by
  let layout : Layout := ⟨[' '], List.forall_mem_singleton.2 rfl, [.message, .rule]⟩
  constructor
  · have items : ∀ item ∈ [Json.boolean true, .text "x, y", .array []], item.Literal := by
      simp only [List.forall_mem_cons]
      exact ⟨.boolean true, .text (by decide), .list nofun, nofun⟩
    have canonical : (Rule.defaultValue
        (.object [("a:b", .array [.boolean true, .text "x, y", .array []])])).Canonical layout :=
      .map (by decide) (by decide) (by decide) (by simpa using Json.Literal.list items)
    have listed : ("kubebuilder:default", RuleKind.defaultValue) ∈ Registry.fieldRules := by decide
    have parsed := (parse_directive canonical (.inl rfl)).2.1 "kubebuilder:default" .field
      (Registry.mem_builtin.2 (.inr (.inl ⟨_, listed, rfl⟩)))
    exact parsed
  · have canonical : (Rule.validation
        { rule := "self > 1", message := "say \"no\"" }).Canonical layout := by
      refine ⟨by decide, fun parameter missing => ?_⟩
      cases parameter <;> simp_all [layout, Validation.argument]
    have listed : ("XValidation", RuleKind.validation) ∈ Registry.validationRules := by decide
    exact ((parse_directive canonical (.inr rfl)).2.2 "XValidation" .type listed).2

end ProtoSchema.Rule
