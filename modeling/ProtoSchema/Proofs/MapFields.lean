import ProtoSchema.Proofs.DirectiveKinds
import ProtoSchema.Proofs.FieldDirectives

/-!
Fields that are maps. A map is declared as a repeated field of entries and shown as an object, but a
type override or a schema of the catalog goes before that, and repetition puts it into an array.
-/
namespace ProtoSchema

/-- The field is a map with entries of the type `entry`. -/
def Model.IsMap (model : Model) (field : Field) (entry : Message) : Prop :=
  ∃ id, field.messageLink? = some id ∧ model.message? id = some entry ∧ entry.mapEntry = true

namespace Derivation

variable {derivation : Derivation} {field : Field} {entry message : Message} {owner : String}
  {outline : Outline} {id : Nat} {slot : Slot Schema} {targets : List Nat} {schema : Schema}

def override? (derivation : Derivation) (field : Field) : Option TypeOverride :=
  (derivation.settings.readComment field.comment).directives.findSome? derivation.registry.override?

def clears (derivation : Derivation) (field : Field) : Bool :=
  derivation.registry.clears .field (derivation.settings.readComment field.comment).directives

/-- The kind of what stands for a map before the directives on it. -/
def mapKind? (derivation : Derivation) (field : Field) (entry : Message) : Option Kind :=
  match derivation.override? field, derivation.catalog.find? entry.absoluteName with
  | some override, _ => if field.repeated then some .array else (overriding override).kind
  | none, some listed => if field.repeated then some .array else listed.kind
  | none, none => some .object

theorem fieldSlot_kind (repeated : Bool) (description : String) (schema : Schema) :
    ∃ shown, fieldSlot repeated description (.inline schema) = .inline shown ∧
      shown.kind = if repeated then some .array else schema.kind := by
  cases repeated <;> exact ⟨_, rfl, rfl⟩

/-- A map is an inline schema of its kind, whatever stands for its values. -/
theorem mapKind?_of_fieldOutline (map : derivation.model.IsMap field entry)
    (outlined : derivation.fieldOutline owner field = .ok outline)
    (stands : derivation.Stands id outline.content slot targets) :
    ∃ base, outline.frame.around slot = .inline base ∧ base.kind = derivation.mapKind? field entry := by
  unfold mapKind? override?
  rcases fieldOutline_cases outlined with ⟨override, ended, frame, content⟩ | ⟨ended, typed⟩
  · rw [content] at stands
    cases stands
    rw [frame, Registry.findSome?_of_typeOverride? ended]
    exact fieldSlot_kind _ _ _
  · rw [Registry.findSome?_of_typeOverride? ended]
    obtain ⟨link, linked, found, isEntry⟩ := map
    rw [typeOutline, declaredType_of_messageLink? linked found] at typed
    generalize outline.frame = frame, outline.content = content at typed stands
    cases listed : derivation.catalog.find? entry.absoluteName with
    | some schema =>
        simp only [listed] at typed
        cases typed
        cases stands
        exact fieldSlot_kind _ _ _
    | none =>
        -- The values of the map do not matter for its kind.
        simp only [listed, isEntry, if_true] at typed
        split at typed
        · cases typed
        · obtain ⟨⟨values, inner⟩, -, same⟩ := exists_of_map_ok typed
          cases same
          exact ⟨_, rfl, rfl⟩

/-- The property of a map is an inline schema of its kind, or of none if a directive takes its form. -/
theorem Renders.map_property (renders : derivation.Renders id schema targets)
    (found : derivation.model.message? id = some message)
    (distinct : (message.fields.map (·.wireName)).Nodup) (member : field ∈ message.fields)
    (map : derivation.model.IsMap field entry) :
    ∃ shown, schema.properties.lookup field.wireName = some (.inline shown) ∧
      shown.kind = if derivation.clears field then none else derivation.mapKind? field entry := by
  obtain ⟨other, own, properties, same, -, fields, rfl⟩ := renders.exists_fields
  cases same.symm.trans found
  obtain ⟨outline, slot, inner, property, outlined, stands, ended, listed⟩ :=
    fields.exists_property member
  obtain ⟨base, around, kind⟩ := mapKind?_of_fieldOutline map outlined stands
  obtain ⟨result, applied, rfl⟩ := exists_of_map_ok ended
  rw [around] at applied
  obtain ⟨shown, ruled, rfl⟩ := exists_of_map_ok (ok_of_guilty applied)
  refine ⟨shown, lookup_assemble (fields.names_eq ▸ distinct) listed, ?_⟩
  rw [Registry.kind_of_applyAll ruled, kind]
  rfl

/-- An array stands for the map: repetition shows around an override or around a schema that the catalog
has for the entries, or that schema is an array itself. No directive takes the form again. -/
def WrapsMap (derivation : Derivation) (field : Field) (entry : Message) : Prop :=
  derivation.clears field = false ∧
    ((derivation.override? field).isSome ∧ field.repeated ∨
      derivation.override? field = none ∧ ∃ listed,
        derivation.catalog.find? entry.absoluteName = some listed ∧
          (field.repeated ∨ listed.kind = some .array))

theorem overriding_kind_ne_array (override : TypeOverride) :
    (overriding override).kind ≠ some .array := by
  cases override <;> nofun

theorem mapKind?_eq_array_iff :
    (if derivation.clears field then none else derivation.mapKind? field entry) = some .array ↔
      derivation.WrapsMap field entry := by
  unfold WrapsMap mapKind?
  cases derivation.clears field with
  | true => simp
  | false =>
      cases derivation.override? field with
      | some override => cases field.repeated <;> simp [overriding_kind_ne_array override]
      | none =>
          cases derivation.catalog.find? entry.absoluteName with
          | some listed => cases field.repeated <;> simp
          | none => simp

/-- A map is an object or has no kind, except where an override or the catalog goes before it. -/
theorem kind_of_map_eq_array_iff {model : Model} {settings : Settings} {unit calls : List Nat}
    (found : model.message? id = some message)
    (distinct : (message.fields.map (·.wireName)).Nodup) (member : field ∈ message.fields)
    (map : model.IsMap field entry)
    (ended : (((ofUnit model settings unit).messageSchema id).runFrom
      ((ofUnit model settings unit).answers calls {}).2).1 = .ok (some schema)) :
    ∃ shown, schema.properties.lookup field.wireName = some (.inline shown) ∧
      (shown.kind = some .array ↔ (ofUnit model settings unit).WrapsMap field entry) := by
  obtain ⟨-, targets, renders⟩ := renders_of_call ended
  obtain ⟨shown, placed, kind⟩ := renders.map_property found distinct member map
  exact ⟨shown, placed, by rw [kind, mapKind?_eq_array_iff]⟩

end Derivation

def Message.labelEntry : Message :=
  { Message.mapTo 0 0 with fields := [.ofKind "key" .string none, .ofKind "value" .string none] }

def Field.labels (comment : String) : Field :=
  { Field.holding "labels" 1 with repeated := true, comment := comment }

def Model.labels (comment : String) : Model :=
  .ofMessages [.holding "Holder" [.labels comment], .labelEntry]

theorem Model.isMap_labels (comment : String) : (Model.labels comment).IsMap (.labels comment) .labelEntry :=
  ⟨1, rfl, rfl, rfl⟩

/-- An empty schema for the entries of a map is put into an array. -/
theorem Derivation.kind_of_map_eq_array_iff_listed :
    ∃ schema shown,
      (((ofUnit (.labels "") { emptySchemas := ["forest.Entry"] } [0]).messageSchema 0).runFrom
        ((ofUnit (.labels "") { emptySchemas := ["forest.Entry"] } [0]).answers [] {}).2).1 =
          .ok (some schema) ∧
      schema.properties.lookup "labels" = some (.inline shown) ∧ shown.kind = some .array := by
  obtain ⟨schema, ended⟩ := exists_of_isSome
    (show (((ofUnit (.labels "") { emptySchemas := ["forest.Entry"] } [0]).messageSchema 0).runFrom
      ((ofUnit (.labels "") { emptySchemas := ["forest.Entry"] } [0]).answers [] {}).2).1.toOption.join.isSome
        = true by decide +kernel)
  obtain ⟨shown, placed, wrapped⟩ := kind_of_map_eq_array_iff rfl (by decide) List.mem_cons_self
    (Model.isMap_labels "") ended
  obtain ⟨listed, found⟩ := Option.isSome_iff_exists.1
    (show ((ofUnit (.labels "") { emptySchemas := ["forest.Entry"] } [0]).catalog.find?
      Message.labelEntry.absoluteName).isSome = true by decide +kernel)
  exact ⟨schema, shown, ended, placed, wrapped.2
    ⟨by decide +kernel, .inr ⟨by decide +kernel, listed, found, .inl rfl⟩⟩⟩

def Slot.isArray : Slot Schema → Bool
  | .inline schema => schema.kind == some .array
  | .reference _ => false

/-- A type override on a map is put into an array. -/
theorem Derivation.exists_array_of_overridden_map :
    (Model.labels " +kubebuilder:validation:Type=object\n").IsMap
        (.labels " +kubebuilder:validation:Type=object\n") .labelEntry ∧ ∃ schema shown,
      (((ofUnit (.labels " +kubebuilder:validation:Type=object\n") {} [0]).messageSchema 0).runFrom
        {}).1 = .ok (some schema) ∧
      schema.properties.lookup "labels" = some (.inline shown) ∧ shown.kind = some .array := by
  refine ⟨Model.isMap_labels _, ?_⟩
  have array : ((((ofUnit (.labels " +kubebuilder:validation:Type=object\n") {} [0]).messageSchema
      0).runFrom {}).1.toOption.join.bind fun schema =>
        schema.properties.lookup "labels").any Slot.isArray = true := by decide +kernel
  obtain ⟨slot, reached, shape⟩ := (Option.any_eq_true _ _).1 array
  obtain ⟨schema, answered, placed⟩ := Option.bind_eq_some_iff.1 reached
  obtain ⟨other, ended⟩ := exists_of_isSome (by rw [answered]; rfl)
  rw [ended] at answered
  cases answered
  cases slot with
  | reference path => cases shape
  | inline shown => exact ⟨schema, shown, ended, placed, eq_of_beq shape⟩

end ProtoSchema
