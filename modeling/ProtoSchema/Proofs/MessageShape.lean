import ProtoSchema.Proofs.ExclusiveFields
import ProtoSchema.Proofs.FieldDirectives
import ProtoSchema.Proofs.KindConsistency

/-!
The shape of the schema of a message: an object with one property for every field, in declared order, that
requires exactly the fields with a directive for it. What its groups of exclusive fields speak of are
properties as well.
-/
namespace ProtoSchema

/-! ## Required fields -/

namespace Registry

variable {registry : Registry} {raws : List String} {required : Bool}

/-- The directive line makes the field that it stands on required. -/
def requires (registry : Registry) (raw : String) : Bool :=
  match registry.parse raw .field with
  | .ok ⟨.required, .node⟩ => true
  | _ => false

/-- The scan may end early, but not before it has its answer. -/
theorem any_of_isRequired (ended : registry.isRequired raws = .ok required) :
    raws.any registry.requires = required := by
  induction raws with
  | nil => cases ended; rfl
  | cons raw raws ih =>
      unfold isRequired at ended
      obtain ⟨directive, read, rest⟩ := exists_of_bind_ok ended
      rw [List.any_cons, requires, read]
      split at rest
      · cases rest
        rfl
      · rename_i other
        rw [ih rest]
        obtain ⟨rule, scope⟩ := directive
        cases rule with
        | required =>
            cases scope with
            | node => exact absurd rfl other
            | items => rfl
        | _ => rfl

end Registry

/-! ## Properties that a schema asks for -/

namespace Schema

variable {schema : Schema} {slot : Slot Schema} {name : String} {group : List String}
  {groups : List (List String)}

/-- The schemas that are combined into this one. -/
def combinedSlots (schema : Schema) : List (Slot Schema) :=
  schema.oneOf ++ schema.anyOf ++ schema.allOf ++ schema.negated.toList

/-- The presence of a property matters to the schema, or to one of those that are combined into it. -/
inductive AsksFor (name : String) : Schema → Prop
  | here {schema : Schema} : name ∈ schema.required → AsksFor name schema
  | combined {schema inner : Schema} :
      .inline inner ∈ schema.combinedSlots → inner.AsksFor name → AsksFor name schema

theorem asksFor_iff : schema.AsksFor name ↔
    name ∈ schema.required ∨ ∃ inner, .inline inner ∈ schema.combinedSlots ∧ inner.AsksFor name := by
  constructor
  · intro asks
    cases asks with
    | here listed => exact .inl listed
    | combined member asks => exact .inr ⟨_, member, asks⟩
  · rintro (listed | ⟨inner, member, asks⟩)
    · exact .here listed
    · exact .combined member asks

theorem asksFor_requiring {field : String} : (requiring field).AsksFor name ↔ name = field := by
  rw [asksFor_iff]
  simp [requiring, combinedSlots]

theorem asksFor_forbidding : (forbidding group).AsksFor name ↔ name ∈ group := by
  have inner : Schema.AsksFor name { anyOf := group.map fun field => .inline (requiring field) } ↔
      name ∈ group := by
    rw [asksFor_iff]
    simp [combinedSlots, asksFor_requiring]
  rw [asksFor_iff, ← inner]
  simp [forbidding, combinedSlots]

theorem mem_of_exclusiveArms {arm : Schema} (member : .inline arm ∈ exclusiveArms group)
    (asks : arm.AsksFor name) : name ∈ group := by
  rcases mem_exclusiveArms.1 member with same | ⟨field, listed, same⟩
  · cases same
    exact asksFor_forbidding.1 asks
  · cases same
    exact asksFor_requiring.1 asks ▸ listed

theorem mem_of_oneOf_exclusiveArms (asks : Schema.AsksFor name { oneOf := exclusiveArms group }) :
    name ∈ group := by
  rcases asksFor_iff.1 asks with listed | ⟨arm, member, asks⟩
  · cases listed
  · exact mem_of_exclusiveArms (by simpa [combinedSlots] using member) asks

theorem required_withExclusive : (schema.withExclusive groups).required = schema.required := by
  unfold withExclusive
  split <;> rfl

theorem properties_withExclusive : (schema.withExclusive groups).properties = schema.properties := by
  unfold withExclusive
  split <;> rfl

theorem kind_withExclusive : (schema.withExclusive groups).kind = schema.kind := by
  unfold withExclusive
  split <;> rfl

theorem mem_combinedSlots_withExclusive (bare : schema.combinedSlots = [])
    (member : slot ∈ (schema.withExclusive groups).combinedSlots) :
    ∃ group ∈ groups, slot ∈ exclusiveArms group ∨ slot = .inline { oneOf := exclusiveArms group } := by
  unfold withExclusive at member
  simp only [combinedSlots, List.append_eq_nil_iff] at bare
  split at member <;> simp only [combinedSlots, bare] at member <;> grind

/-- Groups of exclusive fields ask for their own members only. -/
theorem asksFor_withExclusive (bare : schema.combinedSlots = [])
    (asks : (schema.withExclusive groups).AsksFor name) :
    name ∈ schema.required ∨ ∃ group ∈ groups, name ∈ group := by
  rcases asksFor_iff.1 asks with listed | ⟨inner, member, asks⟩
  · exact .inl (required_withExclusive ▸ listed)
  · obtain ⟨group, given, arm | whole⟩ := mem_combinedSlots_withExclusive bare member
    · exact .inr ⟨group, given, mem_of_exclusiveArms arm asks⟩
    · cases whole
      exact .inr ⟨group, given, mem_of_oneOf_exclusiveArms asks⟩

end Schema

theorem Message.mem_fields_of_exclusiveGroups {message : Message} {group : List String} {name : String}
    (given : group ∈ message.exclusiveGroups) (member : name ∈ group) :
    name ∈ message.fields.map (·.wireName) := by
  obtain ⟨index, -, rfl⟩ := mem_exclusiveGroups.1 given
  obtain ⟨entry, listed, rfl⟩ := List.mem_map.1 member
  obtain ⟨field, declared, found⟩ := List.mem_filterMap.1 (List.mem_of_mem_filter listed)
  refine List.mem_map.2 ⟨field, declared, ?_⟩
  split at found
  · cases found
  · obtain ⟨_, -, rfl⟩ := Option.map_eq_some_iff.1 found
    rfl

namespace Derivation

variable {derivation : Derivation} {resolve : Resolver} {owner : String} {field : Field}
  {message : Message} {id : Nat} {active : List Nat} {start now stop session : Session}
  {schema own : Schema} {property : Property} {properties : List Property}

/-- Among the directives of the field that count there is one that makes it required. -/
def requires (derivation : Derivation) (field : Field) : Bool :=
  (derivation.settings.readComment field.comment).directives.any derivation.registry.requires

theorem required_of_fieldOutline {outline : Outline}
    (outlined : derivation.fieldOutline owner field = .ok outline) :
    outline.required = derivation.requires field := by
  unfold fieldOutline at outlined
  obtain ⟨required, scanned, settled⟩ := exists_of_bind_ok outlined
  have answer : derivation.requires field = required :=
    Registry.any_of_isRequired (ok_of_guilty scanned)
  obtain ⟨override, -, last⟩ := exists_of_bind_ok settled
  rw [answer]
  cases override with
  | some override =>
      cases last
      rfl
  | none =>
      obtain ⟨_, -, same⟩ := exists_of_bind_ok last
      cases same
      rfl

theorem required_of_completed {outline : Outline} {slot : Slot Schema}
    (ended : derivation.completed owner field outline slot = .ok property) :
    property.required = outline.required := by
  obtain ⟨result, -, rfl⟩ := exists_of_map_ok ended
  rfl

theorem required_of_property
    (ended : ((derivation.property resolve owner field).runFrom now).1 = .ok property) :
    property.required = derivation.requires field := by
  rw [property_eq] at ended
  cases outlined : derivation.fieldOutline owner field with
  | error failure =>
      rw [outlined] at ended
      cases ended
  | ok outline =>
      simp only [outlined, Deriving.runFrom_bind] at ended
      split at ended
      · rw [required_of_completed ended, required_of_fieldOutline outlined]
      · cases ended

theorem required_of_forall₂ {fields : List Field}
    (all : List.Forall₂ (fun field property =>
      property.name = field.wireName ∧ property.required = derivation.requires field) fields properties) :
    (properties.filter (·.required)).map (·.name) =
      (fields.filter derivation.requires).map (·.wireName) := by
  induction all with
  | nil => rfl
  | cons first _ ih =>
      obtain ⟨name, required⟩ := first
      rw [List.filter_cons, List.filter_cons, required]
      split
      · rw [List.map_cons, List.map_cons, name, ih]
      · exact ih

theorem required_of_fieldsWithin {fields : List Field}
    (ended : (derivation.fieldsWithin active id message fields).runFrom start = (.ok properties, stop)) :
    (properties.filter (·.required)).map (·.name) =
      (fields.filter derivation.requires).map (·.wireName) := by
  have noted : ∀ field ∈ fields, (derivation.property (derivation.messageSlot (id :: active))
      message.absoluteName field).Meets (fun _ => True) fun result => ∀ property, result = .ok property →
        property.name = field.wireName ∧ property.required = derivation.requires field := by
    refine fun _ _ session _ => ⟨fun property same => ?_, trivial⟩
    exact ⟨name_of_property same, required_of_property same⟩
  have all := (Deriving.meets_mapM noted start trivial).1
  unfold fieldsWithin at ended
  rw [ended] at all
  exact required_of_forall₂ (all.forall₂.imp fun _ _ each => each _ rfl)

/-! ## The shape -/

/-- The schema is an object with a property for every field of the message, and requires those that a
directive asks for. -/
structure Shaped (derivation : Derivation) (message : Message) (schema : Schema) : Prop where
  kind : schema.kind = some .object
  properties : Entries.names schema.properties = message.fields.map (·.wireName)
  required : schema.required = (message.fields.filter derivation.requires).map (·.wireName)
  once : schema.required.Nodup
  /-- Required fields and members of exclusive groups are properties. -/
  present : ∀ name, schema.AsksFor name → name ∈ Entries.names schema.properties

theorem shaped_assemble (kind : own.kind = some .object) (bare : own.slots = [])
    (distinct : (message.fields.map (·.wireName)).Nodup)
    (names : properties.map (·.name) = message.fields.map (·.wireName))
    (required : (properties.filter (·.required)).map (·.name) =
      (message.fields.filter derivation.requires).map (·.wireName)) :
    derivation.Shaped message (derivation.assemble message own properties) := by
  have shown : Entries.names (filled own properties).properties = message.fields.map (·.wireName) := by
    have listed : Entries.names (properties.map fun property => (property.name, property.slot)) =
        message.fields.map (·.wireName) := by
      rw [Entries.names, List.map_map]
      exact names
    rw [filled, Entries.ofList_of_nodup (listed ▸ distinct), listed]
  have demanded : (filled own properties).required =
      (message.fields.filter derivation.requires).map (·.wireName) := required
  have sublist : ((message.fields.filter derivation.requires).map (·.wireName)).Sublist
      (message.fields.map (·.wireName)) := List.filter_sublist.map _
  have alone : (filled own properties).combinedSlots = [] := by
    simp only [Schema.slots, List.append_eq_nil_iff] at bare
    simp [Schema.combinedSlots, filled, bare]
  have groups : ∀ groups : List (List String), (∀ group ∈ groups, group ∈ message.exclusiveGroups) →
      derivation.Shaped message ((filled own properties).withExclusive groups) := by
    intro groups given
    refine ⟨Schema.kind_withExclusive.trans kind, ?_, ?_, ?_, fun name asks => ?_⟩
    · rw [Schema.properties_withExclusive, shown]
    · rw [Schema.required_withExclusive, demanded]
    · rw [Schema.required_withExclusive, demanded]
      exact distinct.sublist sublist
    · rw [Schema.properties_withExclusive, shown]
      rcases Schema.asksFor_withExclusive alone asks with listed | ⟨group, member, inside⟩
      · exact sublist.subset (demanded ▸ listed)
      · exact Message.mem_fields_of_exclusiveGroups (given group member) inside
  rw [assemble_eq]
  split
  · exact groups _ fun _ member => member
  · exact groups [] (List.forall_mem_nil _)

theorem Derives.shaped {model : Model} {settings : Settings} {unit : List Nat}
    (derives : (ofUnit model settings unit).Derives active start id message schema)
    (distinct : (message.fields.map (·.wireName)).Nodup) :
    (ofUnit model settings unit).Shaped message schema := by
  obtain ⟨stop, ended⟩ := derives.ended
  obtain ⟨own, properties, after, owned, ran, rfl⟩ := exists_fields_of_messageBody ended
  exact shaped_assemble (keepsKinds_ofUnit.object message own owned) (slots_eq_nil_of_objectOf owned)
    distinct (names_of_fieldsWithin ran) (required_of_fieldsWithin ran)

/-- Every schema of a message has the shape of the message: what a call from outside returns, after any
other calls, and what a field inside of other messages asks for, whether it is new or was kept. -/
theorem shaped_in_every_state {model : Model} {settings : Settings} {unit : List Nat}
    (found : model.message? id = some message)
    (distinct : (message.fields.map (·.wireName)).Nodup) :
    (∀ calls schema, (((ofUnit model settings unit).messageSchema id).runFrom
        ((ofUnit model settings unit).answers calls {}).2).1 = .ok (some schema) →
      (ofUnit model settings unit).Shaped message schema) ∧
    ∀ active session schema, (ofUnit model settings unit).Called active session id →
      (((ofUnit model settings unit).schemaWithin active id message).runFrom session).1 = .ok schema →
      (ofUnit model settings unit).Shaped message schema := by
  have reached : ∀ active session schema, (ofUnit model settings unit).Called active session id →
      (((ofUnit model settings unit).schemaWithin active id message).runFrom session).1 = .ok schema →
      (ofUnit model settings unit).Shaped message schema := by
    intro active session schema called ended
    obtain ⟨_, _, derives, -⟩ := called.derives found ended
    exact derives.shaped distinct
  refine ⟨fun calls schema ended => ?_, reached⟩
  obtain ⟨⟨other, same, plain⟩, -⟩ := renders_of_call ended
  cases same.symm.trans found
  rw [messageSchema_eq_schemaWithin found plain, Deriving.runFrom_map] at ended
  obtain ⟨shown, within, answer⟩ := exists_of_map_ok ended
  cases answer
  exact reached [] _ schema (.outside calls id) within

end Derivation

def Field.demanded (field : Field) : Field :=
  { field with comment := " +kubebuilder:validation:Required\n" }

/-- A form most of whose fields are required: in a oneof, optional, repeated, a map, under an override, and
the form itself. -/
def Message.form : Message :=
  .holding "Form"
    [.demanded (.choosing "mail" 0), .choosing "phone" 0,
      .demanded { Field.choosing "nick" 1 with proto3Optional := true },
      .demanded { Field.ofKind "tags" .string none with repeated := true },
      .demanded { Field.holding "labels" 1 with repeated := true },
      { Field.holding "extra" 1 with
        comment := " +kubebuilder:validation:Type=value\n +kubebuilder:validation:Required\n" },
      .demanded (.holding "next" 0)]

/-- The second call returns what was kept from the first. -/
theorem Derivation.shaped_in_every_state_form :
    ∃ schema, (((ofUnit (.ofMessages [.form, .mapTo 0 0]) { protoOneof := true } [0]).messageSchema
        0).runFrom ((ofUnit (.ofMessages [.form, .mapTo 0 0]) { protoOneof := true } [0]).answers [0]
          {}).2).1 = .ok (some schema) ∧
      schema.kind = some .object ∧
      Entries.names schema.properties = ["mail", "phone", "nick", "tags", "labels", "extra", "next"] ∧
      schema.required = ["mail", "nick", "tags", "labels", "extra", "next"] ∧
      ∀ name, schema.AsksFor name → name ∈ Entries.names schema.properties := by
  -- One evaluation for both: each of them reads the directives of the form.
  have evaluated : (((ofUnit (.ofMessages [.form, .mapTo 0 0]) { protoOneof := true } [0]).messageSchema
      0).runFrom ((ofUnit (.ofMessages [.form, .mapTo 0 0]) { protoOneof := true } [0]).answers [0]
        {}).2).1.toOption.join.isSome = true ∧
      (Message.form.fields.filter
        (ofUnit (.ofMessages [.form, .mapTo 0 0]) { protoOneof := true } [0]).requires).map (·.wireName) =
          ["mail", "nick", "tags", "labels", "extra", "next"] := by decide +kernel
  obtain ⟨schema, ended⟩ := exists_of_isSome evaluated.1
  have found : (Model.ofMessages [.form, .mapTo 0 0]).message? 0 = some Message.form := rfl
  have distinct : (Message.form.fields.map (·.wireName)).Nodup := by decide
  have shaped := (shaped_in_every_state found distinct).1 _ schema ended
  exact ⟨schema, ended, shaped.kind, shaped.properties, shaped.required.trans evaluated.2, shaped.present⟩

end ProtoSchema
