import ProtoSchema.Proofs.DirectiveSuccess
import ProtoSchema.Proofs.Unfolding

/-!
Descriptions at any depth. `Schema.redescribed` changes all of them in one way. Where an empty description
stays empty, every way of building schemas goes along with such a change, and so do directives: they never
read a description.
-/
namespace ProtoSchema

mutual

/-- The schema with every description changed, its own and those below it. -/
def Schema.redescribed (tell : String → String) : Schema → Schema
  | ⟨own, items, properties, additional, oneOf, anyOf, allOf, negated⟩ =>
    ⟨{ own with description := tell own.description }, Schema.redescribedPlace tell items,
      Schema.redescribedEntries tell properties, Schema.redescribedPlace tell additional,
      Schema.redescribedSlots tell oneOf, Schema.redescribedSlots tell anyOf,
      Schema.redescribedSlots tell allOf, Schema.redescribedPlace tell negated⟩

def Slot.redescribed (tell : String → String) : Slot Schema → Slot Schema
  | .reference path => .reference path
  | .inline schema => .inline (schema.redescribed tell)

def Schema.redescribedPlace (tell : String → String) : Option (Slot Schema) → Option (Slot Schema)
  | none => none
  | some slot => some (slot.redescribed tell)

def Schema.redescribedSlots (tell : String → String) : List (Slot Schema) → List (Slot Schema)
  | [] => []
  | slot :: rest => slot.redescribed tell :: Schema.redescribedSlots tell rest

def Schema.redescribedEntries (tell : String → String) :
    List (String × Slot Schema) → List (String × Slot Schema)
  | [] => []
  | (name, slot) :: rest => (name, slot.redescribed tell) :: Schema.redescribedEntries tell rest

end

mutual

theorem Schema.redescribed_id : (schema : Schema) → schema.redescribed id = schema
  | ⟨own, items, properties, additional, oneOf, anyOf, allOf, negated⟩ => by
      rw [Schema.redescribed, Schema.redescribedPlace_id items, Schema.redescribedEntries_id properties,
        Schema.redescribedPlace_id additional, Schema.redescribedSlots_id oneOf,
        Schema.redescribedSlots_id anyOf, Schema.redescribedSlots_id allOf,
        Schema.redescribedPlace_id negated]
      rfl

theorem Slot.redescribed_id : (slot : Slot Schema) → slot.redescribed id = slot
  | .reference _ => rfl
  | .inline schema => congrArg Slot.inline schema.redescribed_id

theorem Schema.redescribedPlace_id :
    (place : Option (Slot Schema)) → Schema.redescribedPlace id place = place
  | none => rfl
  | some slot => congrArg some slot.redescribed_id

theorem Schema.redescribedSlots_id :
    (slots : List (Slot Schema)) → Schema.redescribedSlots id slots = slots
  | [] => rfl
  | slot :: rest => by
      rw [Schema.redescribedSlots, slot.redescribed_id, Schema.redescribedSlots_id rest]

theorem Schema.redescribedEntries_id :
    (entries : List (String × Slot Schema)) → Schema.redescribedEntries id entries = entries
  | [] => rfl
  | (name, slot) :: rest => by
      rw [Schema.redescribedEntries, slot.redescribed_id, Schema.redescribedEntries_id rest]

end

variable {tell : String → String} {schema : Schema} {slot : Slot Schema}

namespace Schema

theorem redescribedPlace_eq (place : Option (Slot Schema)) :
    redescribedPlace tell place = place.map (Slot.redescribed tell) := by
  cases place <;> rfl

theorem redescribedSlots_eq (slots : List (Slot Schema)) :
    redescribedSlots tell slots = slots.map (Slot.redescribed tell) := by
  induction slots with
  | nil => rfl
  | cons slot rest ih => rw [redescribedSlots, ih, List.map_cons]

theorem redescribedEntries_eq (entries : List (String × Slot Schema)) :
    redescribedEntries tell entries = Entries.mapValues (Slot.redescribed tell) entries := by
  induction entries with
  | nil => rfl
  | cons entry rest ih =>
      obtain ⟨name, slot⟩ := entry
      rw [redescribedEntries, ih]
      rfl

/-- One level of the change: what is below goes through it, and the description is told anew. -/
theorem redescribed_eq (schema : Schema) :
    schema.redescribed tell =
      (schema.seen (Slot.redescribed tell)).describedAs (tell schema.description) := by
  obtain ⟨own, items, properties, additional, oneOf, anyOf, allOf, negated⟩ := schema
  rw [redescribed]
  simp only [redescribedPlace_eq, redescribedSlots_eq, redescribedEntries_eq]
  rfl

theorem slots_redescribed (schema : Schema) :
    (schema.redescribed tell).slots = schema.slots.map (Slot.redescribed tell) := by
  rw [redescribed_eq]
  have options (place : Option (Slot Schema)) :
      (place.map (Slot.redescribed tell)).toList = place.toList.map (Slot.redescribed tell) := by
    cases place <;> rfl
  simp [slots, seen, describedAs, options, Entries.mapValues, Function.comp_def]

@[simp] theorem redescribed_describedAs (description : String) :
    (schema.describedAs description).redescribed tell =
      (schema.redescribed tell).describedAs (tell description) := by
  rw [redescribed_eq, redescribed_eq]
  rfl

theorem redescribed_withExtension (key : String) (value : Json) :
    (schema.withExtension key value).redescribed tell =
      (schema.redescribed tell).withExtension key value := by
  rw [redescribed_eq, redescribed_eq]
  rfl

theorem redescribed_withAllowed (values : List Json) :
    ({ schema with allowed := values } : Schema).redescribed tell =
      { schema.redescribed tell with allowed := values } := by
  rw [redescribed_eq, redescribed_eq]
  rfl

theorem redescribed_withItems :
    ({ schema with items := some slot } : Schema).redescribed tell =
      { schema.redescribed tell with items := some (slot.redescribed tell) } := by
  rw [redescribed_eq, redescribed_eq]
  rfl

theorem kind_redescribed : (schema.redescribed tell).kind = schema.kind := by
  rw [redescribed_eq]
  rfl

theorem length_properties_redescribed :
    (schema.redescribed tell).properties.length = schema.properties.length := by
  rw [redescribed_eq]
  exact List.length_map _

end Schema

/-! ## Directives -/

theorem Rule.write_redescribed (rule : Rule) :
    rule.write (schema.redescribed tell) = (rule.write schema).redescribed tell := by
  rw [Schema.redescribed_eq, Schema.redescribed_eq, Schema.seen_write]
  cases rule <;> rfl

theorem Rule.apply_redescribed (rule : Rule) :
    rule.apply (schema.redescribed tell) = (rule.apply schema).map (Schema.redescribed tell) := by
  have kind : (schema.redescribed tell).kind = schema.kind := Schema.kind_redescribed
  have holds (requirement : Requirement) :
      requirement.holds (schema.redescribed tell) = requirement.holds schema := by
    cases requirement <;> simp only [Requirement.holds, Schema.isNumeric, kind]
  have fraction : rule.fractionOn? (schema.redescribed tell) = rule.fractionOn? schema := by
    cases rule <;> simp only [Rule.fractionOn?, kind]
  have named : (schema.redescribed tell).kindName = schema.kindName := by
    simp only [Schema.kindName, kind]
  unfold Rule.apply
  rw [rule.write_redescribed, fraction, named]
  cases rule.kind.requirement? with
  | none => rfl
  | some requirement =>
      simp only [holds]
      split
      · rfl
      · cases rule.fractionOn? schema <;> rfl

theorem Schema.inlineItems?_redescribed :
    (schema.redescribed tell).inlineItems? = schema.inlineItems?.map (Schema.redescribed tell) := by
  have items : (schema.redescribed tell).items = schema.items.map (Slot.redescribed tell) := by
    rw [redescribed_eq]
    rfl
  unfold inlineItems?
  rw [kind_redescribed, items]
  rcases schema.kind with _ | kind
  · rfl
  · cases kind with
    | array => rcases schema.items with _ | _ | _ <;> rfl
    | _ => rfl

theorem Directive.apply_redescribed (directive : Directive) :
    directive.apply (schema.redescribed tell) =
      (directive.apply schema).map (Schema.redescribed tell) := by
  unfold Directive.apply
  cases directive.scope with
  | node => exact directive.rule.apply_redescribed
  | items =>
      simp only [Schema.inlineItems?_redescribed]
      cases schema.inlineItems? with
      | none => simp only [Option.map_none, Schema.kindName, Schema.kind_redescribed, Except.map]
      | some items =>
          simp only [Option.map_some, directive.rule.apply_redescribed]
          cases directive.rule.apply items with
          | error fault => rfl
          | ok changed =>
              simp only [Except.map, Schema.redescribed_withItems]
              rfl

theorem Registry.applyAll_redescribed (registry : Registry) (target : Target) (directives : List String) :
    registry.applyAll target directives (schema.redescribed tell) =
      (registry.applyAll target directives schema).map (Schema.redescribed tell) := by
  have line (raw : String) (schema : Schema) :
      registry.applyLine target (schema.redescribed tell) raw =
        (registry.applyLine target schema raw).map (Schema.redescribed tell) := by
    unfold Registry.applyLine
    cases registry.parse raw target with
    | error fault => rfl
    | ok directive => exact directive.apply_redescribed
  unfold Registry.applyAll
  induction directives generalizing schema with
  | nil => rfl
  | cons raw rest ih =>
      rw [List.foldlM_cons, List.foldlM_cons, line]
      cases registry.applyLine target schema raw with
      | error fault => rfl
      | ok next => exact ih

/-! ## Fields -/

section

variable (silent : tell "" = "")

include silent

namespace Schema

theorem redescribed_arrayOf : (arrayOf slot).redescribed tell = arrayOf (slot.redescribed tell) := by
  rw [redescribed_eq, seen_arrayOf]
  exact congrArg (fun told => (arrayOf (slot.redescribed tell)).describedAs told) silent

theorem redescribed_mapOf : (mapOf slot).redescribed tell = mapOf (slot.redescribed tell) := by
  rw [redescribed_eq, seen_mapOf]
  exact congrArg (fun told => (mapOf (slot.redescribed tell)).describedAs told) silent

/-- Nothing changes where nothing is described, in the schema and below it. -/
theorem redescribed_of_slots (plain : schema.description = "")
    (below : ∀ slot ∈ schema.slots, slot.redescribed tell = slot) : schema.redescribed tell = schema := by
  have same : schema.seen (fun slot => slot) = { schema with description := "" } := by
    simp [seen, Entries.mapValues]
  rw [redescribed_eq, plain, silent, seen_congr below, same, ← plain]
  cases schema
  rfl

theorem redescribed_of_bare (plain : schema.description = "") (bare : schema.slots = []) :
    schema.redescribed tell = schema :=
  redescribed_of_slots silent plain (by simp [bare])

end Schema

namespace Derivation

theorem redescribed_fieldSlot (repeated : Bool) (description : String) :
    (fieldSlot repeated description slot).redescribed tell =
      fieldSlot repeated (tell description) (slot.redescribed tell) := by
  have described (slot : Slot Schema) : (slot.mapInline (Schema.describedAs description)).redescribed tell =
      (slot.redescribed tell).mapInline (Schema.describedAs (tell description)) := by
    cases slot with
    | reference path => rfl
    | inline schema => exact congrArg Slot.inline (Schema.redescribed_describedAs description)
  unfold fieldSlot
  rw [described]
  cases repeated with
  | true =>
      have array : (Schema.arrayOf slot).redescribed tell = Schema.arrayOf (slot.redescribed tell) :=
        Schema.redescribed_arrayOf silent
      simp only [if_true, Slot.redescribed, array]
  | false => rfl

omit silent in
theorem applyToSlot_redescribed {one two : Derivation} (known : two.registry = one.registry)
    (directives : List String) :
    two.applyToSlot directives (slot.redescribed tell) =
      (one.applyToSlot directives slot).map (Slot.redescribed tell) := by
  cases slot with
  | reference path => rfl
  | inline schema =>
      unfold applyToSlot
      simp only [Slot.redescribed, known, Registry.applyAll_redescribed]
      cases one.registry.applyAll .field directives schema <;> rfl

def Frame.redescribed (tell : String → String) : Frame → Frame
  | .field repeated description => .field repeated (tell description)
  | .map description values => .map (tell description) (values.redescribed tell)

theorem Frame.around_redescribed (frame : Frame) :
    (frame.redescribed tell).around (slot.redescribed tell) = (frame.around slot).redescribed tell := by
  induction frame with
  | field repeated description => exact (redescribed_fieldSlot silent repeated description).symm
  | map description values ih =>
      have inner : (Schema.mapOf (values.around slot)).redescribed tell =
          Schema.mapOf ((values.around slot).redescribed tell) := Schema.redescribed_mapOf silent
      simp only [Frame.redescribed, Frame.around, ih, redescribed_fieldSlot silent, Slot.redescribed, inner]

end Derivation

/-! ## What is described nowhere -/

theorem Schema.redescribed_requiring (name : String) :
    (requiring name).redescribed tell = requiring name :=
  redescribed_of_bare silent rfl rfl

theorem Schema.redescribed_forbidding (names : List String) :
    (forbidding names).redescribed tell = forbidding names := by
  refine redescribed_of_slots silent rfl fun slot member => ?_
  rw [slots_forbidding] at member
  rw [List.mem_singleton.1 member]
  refine congrArg Slot.inline (redescribed_of_slots silent rfl fun alternative member => ?_)
  rw [slots_anyOf] at member
  obtain ⟨name, -, rfl⟩ := List.mem_map.1 member
  exact congrArg Slot.inline (redescribed_requiring silent name)

theorem Schema.redescribed_exclusiveArms {names : List String} :
    ∀ slot ∈ exclusiveArms names, slot.redescribed tell = slot := by
  intro slot member
  rcases mem_exclusiveArms.1 member with rfl | ⟨name, -, rfl⟩
  · exact congrArg Slot.inline (redescribed_forbidding silent names)
  · exact congrArg Slot.inline (redescribed_requiring silent name)

theorem Schema.redescribed_withExclusive (groups : List (List String)) :
    (schema.withExclusive groups).redescribed tell = (schema.redescribed tell).withExclusive groups := by
  rcases groups with _ | ⟨group, _ | ⟨other, rest⟩⟩
  · rfl
  · have placed (arms : List (Slot Schema)) : ({ schema with oneOf := arms } : Schema).redescribed tell =
        { schema.redescribed tell with oneOf := arms.map (Slot.redescribed tell) } := by
      rw [redescribed_eq, redescribed_eq]
      rfl
    unfold withExclusive
    rw [placed, List.map_congr_left (redescribed_exclusiveArms silent), List.map_id']
  · have placed (more : List (Slot Schema)) :
        ({ schema with allOf := schema.allOf ++ more } : Schema).redescribed tell =
          { schema.redescribed tell with
            allOf := (schema.redescribed tell).allOf ++ more.map (Slot.redescribed tell) } := by
      rw [redescribed_eq, redescribed_eq]
      simp only [seen, describedAs, List.map_append]
    have added (group : List String) :
        ({ oneOf := exclusiveArms group } : Schema).redescribed tell = { oneOf := exclusiveArms group } := by
      refine redescribed_of_slots silent rfl fun slot member => ?_
      rw [slots_oneOf] at member
      exact redescribed_exclusiveArms silent slot member
    unfold withExclusive
    simp only [placed, List.map_map, Function.comp_def, Slot.redescribed, added]

theorem Catalog.redescribed_of_withEmpty {names : List String} {name : String}
    (listed : (Catalog.withEmpty names).find? name = some schema) : schema.redescribed tell = schema := by
  have wellKnown : ∀ entry ∈ Catalog.wellKnown, entry.2.redescribed tell = entry.2 := by
    simp only [Catalog.wellKnown, List.forall_mem_cons]
    refine ⟨?_, ?_, ?_, ?_, ?_, ?_, ?_, ?_, ?_, ?_, ?_, ?_, ?_, ?_, ?_, by simp⟩
    · rw [Schema.redescribed_arrayOf silent]
      exact congrArg (fun object => Schema.arrayOf (.inline object))
        (Schema.redescribed_of_bare silent rfl rfl)
    all_goals exact Schema.redescribed_of_bare silent rfl rfl
  rcases Catalog.mem_withEmpty listed with rfl | member
  · exact Schema.redescribed_of_bare silent rfl rfl
  · exact wellKnown (name, schema) member

namespace Derivation

theorem redescribed_of_scalar? {kind : FieldKind} {native : Bool}
    (scalar : kind.scalar? native = some schema) : schema.redescribed tell = schema := by
  refine Schema.redescribed_of_bare silent ?_ (slots_eq_nil_of_scalar? scalar)
  cases kind <;> cases native <;> cases scalar <;> rfl

theorem redescribed_overriding (override : TypeOverride) :
    (overriding override).redescribed tell = overriding override := by
  cases override <;> exact Schema.redescribed_of_bare silent rfl rfl

/-! ## Messages -/

def Property.redescribed (tell : String → String) (property : Property) : Property :=
  { property with slot := property.slot.redescribed tell }

theorem assemble_redescribed (derivation : Derivation) (message : Message) (properties : List Property) :
    derivation.assemble message (schema.redescribed tell) (properties.map (Property.redescribed tell)) =
      (derivation.assemble message schema properties).redescribed tell := by
  have body : filled (schema.redescribed tell) (properties.map (Property.redescribed tell)) =
      (filled schema properties).redescribed tell := by
    rw [Schema.redescribed_eq, Schema.redescribed_eq, seen_filled]
    simp only [filled, Schema.describedAs, List.filter_map, List.map_map]
    rfl
  rw [assemble_eq, assemble_eq, body]
  split
  · exact (Schema.redescribed_withExclusive silent message.exclusiveGroups).symm
  · rfl

end Derivation

end

end ProtoSchema
