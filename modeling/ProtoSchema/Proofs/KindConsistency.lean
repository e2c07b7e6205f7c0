import ProtoSchema.Proofs.DirectiveKinds
import ProtoSchema.Schema.Encode

/-!
Every keyword fits the kind of its schema. `Schema.Consistent` says so of one schema, `Everywhere` of
all schemas at any depth. Each way of building schemas keeps to it, and each rule makes sure of the kind
before it sets a keyword that needs one.
-/
namespace ProtoSchema

/-- The schema itself or a schema at any depth below it. -/
inductive Schema.Contains : Schema → Schema → Prop
  | self {schema : Schema} : schema.Contains schema
  | inside {schema inner node : Schema} :
      .inline inner ∈ schema.slots → inner.Contains node → schema.Contains node

def Schema.Everywhere (good : Schema → Prop) (schema : Schema) : Prop :=
  ∀ node, schema.Contains node → good node

def Slot.Everywhere (good : Schema → Prop) (slot : Slot Schema) : Prop :=
  ∀ schema, slot = .inline schema → schema.Everywhere good

/-- What a schema may say is what its kind has room for, and its extensions are known ones that stand
once each. -/
structure Schema.Consistent (schema : Schema) : Prop where
  numeric : schema.minimum.isSome ∨ schema.maximum.isSome ∨ schema.exclusiveMinimum ∨
    schema.exclusiveMaximum ∨ schema.multipleOf.isSome → schema.isNumeric
  whole : schema.kind = some .integer → ∀ factor, schema.multipleOf = some factor →
    factor.toInt?.isSome
  text : schema.minLength.isSome ∨ schema.maxLength.isSome ∨ schema.pattern.isSome →
    schema.kind = some .string
  array : schema.items.isSome ∨ schema.minItems.isSome ∨ schema.maxItems.isSome ∨
    schema.uniqueItems → schema.kind = some .array
  items : schema.kind = some .array → schema.items.isSome
  object : schema.properties ≠ [] ∨ schema.additionalProperties.isSome ∨
    schema.minProperties.isSome ∨ schema.maxProperties.isSome → schema.kind = some .object
  known : ∀ key ∈ Entries.names schema.extensions, key ∈ Extension.names
  once : (Entries.names schema.extensions).Nodup

def Schema.WrittenOnce (schema : Schema) : Prop :=
  ∃ entries, schema.toJson = .object entries ∧ (Entries.names entries).Nodup

variable {good : Schema → Prop} {schema changed : Schema} {slot : Slot Schema}

theorem Slot.everywhere_reference {path : String} : (Slot.reference path).Everywhere good := nofun

@[simp] theorem Slot.everywhere_inline :
    (Slot.inline schema).Everywhere good ↔ schema.Everywhere good := by
  constructor
  · exact fun everywhere => everywhere schema rfl
  · intro everywhere other same
    cases same
    exact everywhere

theorem Schema.everywhere_iff :
    schema.Everywhere good ↔ good schema ∧ ∀ slot ∈ schema.slots, slot.Everywhere good := by
  constructor
  · intro everywhere
    refine ⟨everywhere schema .self, fun slot member inner same node contains => ?_⟩
    subst same
    exact everywhere node (.inside member contains)
  · rintro ⟨here, under⟩ node contains
    cases contains with
    | self => exact here
    | inside member contains => exact under _ member _ rfl node contains

theorem Schema.everywhere_of_bare (bare : schema.slots = []) (here : good schema) :
    schema.Everywhere good :=
  everywhere_iff.2 ⟨here, by simp [bare]⟩

theorem Schema.Everywhere.of_subset (everywhere : schema.Everywhere good) (here : good changed)
    (subset : ∀ slot ∈ changed.slots, slot ∈ schema.slots) : changed.Everywhere good :=
  everywhere_iff.2 ⟨here, fun slot member => (everywhere_iff.1 everywhere).2 slot (subset slot member)⟩

theorem Schema.Everywhere.imp {weaker : Schema → Prop} (everywhere : schema.Everywhere good)
    (weaken : ∀ node, good node → weaker node) : schema.Everywhere weaker :=
  fun node contains => weaken node (everywhere node contains)

namespace Schema

/-! ## One schema -/

theorem Consistent.writtenOnce (consistent : schema.Consistent) : schema.WrittenOnce := by
  obtain ⟨written, same, ordered⟩ := toJson_eq schema
  have apart : ∀ key ∈ Extension.names, key ∉ keywordNames := by decide
  refine ⟨_, same, ?_⟩
  rw [Entries.names, List.map_append]
  refine List.nodup_append.2 ⟨keywordNames_nodup.sublist ordered, consistent.once, ?_⟩
  rintro key one _ two rfl
  exact apart key (consistent.known key two) (ordered.subset one)

theorem consistent_empty : ({} : Schema).Consistent where
  numeric := by simp
  whole := by simp
  text := by simp
  array := by simp
  items := by simp
  object := by simp
  known := by simp [Entries.names]
  once := by simp [Entries.names]

theorem consistent_ofKind {kind : Kind} (plain : kind ≠ .array) : (ofKind kind).Consistent :=
  { consistent_empty with
    numeric := by simp [ofKind]
    whole := by simp [ofKind]
    text := by simp [ofKind]
    array := by simp [ofKind]
    items := fun same => absurd (Option.some.inj same) plain
    object := by simp [ofKind] }

theorem consistent_arrayOf : (arrayOf slot).Consistent :=
  { consistent_empty with
    numeric := by simp [arrayOf]
    whole := by simp [arrayOf]
    text := by simp [arrayOf]
    array := fun _ => rfl
    items := fun _ => rfl
    object := by simp [arrayOf] }

theorem consistent_mapOf : (mapOf slot).Consistent :=
  { consistent_ofKind (show Kind.object ≠ .array by decide) with object := fun _ => rfl }

namespace Consistent

theorem withFormat (consistent : schema.Consistent) (format : String) :
    (schema.withFormat format).Consistent := { consistent with }

theorem asNullable (consistent : schema.Consistent) : schema.asNullable.Consistent :=
  { consistent with }

theorem describedAs (consistent : schema.Consistent) (description : String) :
    (schema.describedAs description).Consistent := { consistent with }

theorem withMinimum (consistent : schema.Consistent) (numeric : schema.isNumeric) (bound : Int) :
    (schema.withMinimum bound).Consistent := { consistent with numeric := fun _ => numeric }

theorem withMaximum (consistent : schema.Consistent) (numeric : schema.isNumeric) (bound : Int) :
    (schema.withMaximum bound).Consistent := { consistent with numeric := fun _ => numeric }

theorem withExtension (consistent : schema.Consistent) {key : String} (known : key ∈ Extension.names)
    (value : Json) : (schema.withExtension key value).Consistent :=
  { consistent with
    known := fun other member => (Entries.mem_names_put.1 member).elim (fun same => same ▸ known)
      (consistent.known other)
    once := Entries.nodup_names_put consistent.once }

end Consistent

theorem consistent_object : object.Consistent := consistent_ofKind nofun

theorem consistent_string : string.Consistent := consistent_ofKind nofun

theorem consistent_boolean : boolean.Consistent := consistent_ofKind nofun

theorem consistent_openObject : openObject.Consistent :=
  consistent_object.withExtension (by decide) _

theorem consistent_anyValue : anyValue.Consistent := consistent_empty.withExtension (by decide) _

theorem consistent_integer : integer.Consistent := consistent_ofKind nofun

theorem consistent_int64 : int64.Consistent := consistent_integer.withFormat _

theorem consistent_intOrString64 : intOrString64.Consistent :=
  consistent_int64.withExtension (by decide) _

theorem consistent_float64 : float64.Consistent :=
  (consistent_ofKind (show Kind.number ≠ .array by decide)).withFormat _

theorem consistent_requiring (name : String) : (requiring name).Consistent := { consistent_empty with }

end Schema

/-! ## Rules -/

/-- A rule that needs a kind is applied to schemas of that kind only. -/
theorem Rule.met_of_apply {rule : Rule} {requirement : Requirement}
    (applied : rule.apply schema = .ok changed)
    (needed : rule.kind.requirement? = some requirement) : requirement.holds schema = true := by
  unfold Rule.apply at applied
  simp only [needed] at applied
  split at applied
  · cases applied
  · rename_i met
    simpa using met

theorem Rule.kind_of_apply {rule : Rule} {kind : Kind} (applied : rule.apply schema = .ok changed)
    (needed : rule.kind.requirement? = some (.kind kind)) : schema.kind = some kind :=
  eq_of_beq (Rule.met_of_apply applied needed)

theorem Rule.whole_of_apply {factor : Binary64}
    (applied : (Rule.multipleOf factor).apply schema = .ok changed)
    (kind : schema.kind = some .integer) : factor.toInt?.isSome := by
  cases whole : factor.toInt? with
  | some n => rfl
  | none =>
      have fraction : (Rule.multipleOf factor).fractionOn? schema = some factor := by
        simp [Rule.fractionOn?, kind, whole]
      have numeric := Rule.met_of_apply applied rfl
      unfold Rule.apply at applied
      simp only [Rule.kind, RuleKind.requirement?, numeric, fraction] at applied
      cases applied

theorem Rule.consistent_apply {rule : Rule} (applied : rule.apply schema = .ok changed)
    (consistent : schema.Consistent) : changed.Consistent := by
  have numeric : rule.kind.requirement? = some .numeric → schema.isNumeric :=
    Rule.met_of_apply applied
  have kind (wanted : Kind) : rule.kind.requirement? = some (.kind wanted) →
      schema.kind = some wanted := Rule.kind_of_apply applied
  rw [Rule.eq_write_of_apply applied]
  cases rule with
  | maximum | minimum | exclusiveMaximum | exclusiveMinimum =>
      exact { consistent with numeric := fun _ => numeric rfl }
  | multipleOf factor =>
      -- A factor with a fraction was refused if the kind is that of whole numbers.
      refine { consistent with numeric := fun _ => numeric rfl, whole := ?_ }
      intro integer other same
      cases same
      exact Rule.whole_of_apply applied integer
  | maxProperties | minProperties =>
      exact { consistent with object := fun _ => kind _ rfl }
  | maxLength | minLength | pattern =>
      exact { consistent with text := fun _ => kind _ rfl }
  | maxItems | minItems | uniqueItems =>
      exact { consistent with array := fun _ => kind _ rfl }
  | preserveUnknownFields | embeddedResource | intOrString | validation =>
      exact consistent.withExtension (by decide) _
  | schemaless => exact { Schema.consistent_empty with }
  | type | required => exact consistent
  | enumeration | format | nullable | defaultValue | exampleValue => exact { consistent with }

theorem Rule.everywhere_apply {rule : Rule} (applied : rule.apply schema = .ok changed)
    (everywhere : schema.Everywhere Schema.Consistent) : changed.Everywhere Schema.Consistent := by
  refine everywhere.of_subset (Rule.consistent_apply applied (everywhere schema .self)) ?_
  rw [Rule.eq_write_of_apply applied]
  exact rule.slots_write schema

/-- A directive for items changes them in place: the array around them stays an array with items. -/
theorem Directive.everywhere_apply {directive : Directive}
    (applied : directive.apply schema = .ok changed)
    (everywhere : schema.Everywhere Schema.Consistent) : changed.Everywhere Schema.Consistent := by
  unfold Directive.apply at applied
  split at applied
  · exact Rule.everywhere_apply applied everywhere
  · split at applied
    · rename_i items found
      obtain ⟨next, ruled, rfl⟩ := exists_of_map_ok applied
      obtain ⟨here, under⟩ := Schema.everywhere_iff.1 everywhere
      have stands := Schema.inlineItems?_eq found
      have kind : schema.kind = some .array := here.array (.inl (by rw [stands]; rfl))
      have inner : items.Everywhere Schema.Consistent :=
        Slot.everywhere_inline.1 (under _ (by simp [Schema.slots, stands]))
      refine Schema.everywhere_iff.2 ⟨?_, fun slot member => ?_⟩
      · exact { here with array := fun _ => kind, items := fun _ => rfl }
      · rcases schema.slots_withItems _ slot member with rfl | other
        · exact Slot.everywhere_inline.2 (Rule.everywhere_apply ruled inner)
        · exact under slot other
    · cases applied

theorem Registry.everywhere_applyAll {registry : Registry} {target : Target}
    {directives : List String} (applied : registry.applyAll target directives schema = .ok changed)
    (everywhere : schema.Everywhere Schema.Consistent) : changed.Everywhere Schema.Consistent := by
  induction directives generalizing schema with
  | nil => cases applied; exact everywhere
  | cons directive rest ih =>
      obtain ⟨_, next, -, first, others⟩ := Registry.applyAll_cons_ok.1 applied
      exact ih others (Directive.everywhere_apply first everywhere)

/-! ## Fields -/

namespace Schema

theorem Everywhere.describedAs (everywhere : schema.Everywhere Consistent) (description : String) :
    (schema.describedAs description).Everywhere Consistent :=
  everywhere.of_subset ((everywhere schema .self).describedAs description) fun _ member => member

theorem everywhere_arrayOf (everywhere : slot.Everywhere Consistent) :
    (arrayOf slot).Everywhere Consistent := by
  refine everywhere_iff.2 ⟨consistent_arrayOf, fun other member => ?_⟩
  simp [arrayOf, slots] at member
  exact member ▸ everywhere

theorem everywhere_mapOf (everywhere : slot.Everywhere Consistent) :
    (mapOf slot).Everywhere Consistent := by
  refine everywhere_iff.2 ⟨consistent_mapOf, fun other member => ?_⟩
  simp [mapOf, slots] at member
  exact member ▸ everywhere

end Schema

namespace Derivation

variable {derivation : Derivation}

theorem everywhere_fieldSlot {repeated : Bool} {description : String}
    (everywhere : slot.Everywhere Schema.Consistent) :
    (fieldSlot repeated description slot).Everywhere Schema.Consistent := by
  cases repeated with
  | true =>
      exact Slot.everywhere_inline.2 ((Schema.everywhere_arrayOf everywhere).describedAs description)
  | false =>
      cases slot with
      | reference path => exact Slot.everywhere_reference
      | inline schema =>
          exact Slot.everywhere_inline.2 ((Slot.everywhere_inline.1 everywhere).describedAs description)

theorem Frame.everywhere_around {frame : Frame} (everywhere : slot.Everywhere Schema.Consistent) :
    (frame.around slot).Everywhere Schema.Consistent := by
  induction frame with
  | field repeated description => exact everywhere_fieldSlot everywhere
  | map description values ih =>
      exact everywhere_fieldSlot (Slot.everywhere_inline.2 (Schema.everywhere_mapOf ih))

theorem everywhere_completed {owner : String} {field : Field} {outline : Outline} {property : Property}
    (ended : derivation.completed owner field outline slot = .ok property)
    (everywhere : slot.Everywhere Schema.Consistent) :
    property.slot.Everywhere Schema.Consistent := by
  obtain ⟨result, applied, rfl⟩ := exists_of_map_ok ended
  have framed := outline.frame.everywhere_around everywhere
  generalize outline.frame.around slot = around at applied framed
  cases around with
  | reference path => cases applied; exact Slot.everywhere_reference
  | inline schema =>
      obtain ⟨changed, ruled, rfl⟩ := exists_of_map_ok (ok_of_guilty applied)
      exact Slot.everywhere_inline.2
        (Registry.everywhere_applyAll ruled (Slot.everywhere_inline.1 framed))

theorem consistent_scalar? {kind : FieldKind} {native : Bool}
    (scalar : kind.scalar? native = some schema) : schema.Consistent := by
  have unsigned : (Schema.integer.withMinimum 0).Consistent :=
    Schema.consistent_integer.withMinimum rfl 0
  cases kind with
  | enum | message | group => cases scalar
  | double | float => cases scalar; exact Schema.consistent_float64
  | int32 | sint32 | sfixed32 | fixed32 =>
      cases scalar
      exact Schema.consistent_integer.withFormat _
  | int64 | sint64 | sfixed64 | fixed64 =>
      cases native with
      | true => cases scalar; exact Schema.consistent_int64
      | false => cases scalar; exact Schema.consistent_intOrString64
  | uint32 => cases scalar; exact unsigned.withMaximum rfl _
  | uint64 =>
      cases native with
      | true => cases scalar; exact unsigned.withFormat _
      | false => cases scalar; exact Schema.consistent_intOrString64
  | bool => cases scalar; exact Schema.consistent_boolean
  | string => cases scalar; exact Schema.consistent_string
  | bytes => cases scalar; exact Schema.consistent_string.withFormat _

theorem consistent_enumSchema {enum : Enum} : (derivation.enumSchema enum).Consistent := by
  have described := Schema.consistent_string.describedAs
    (derivation.settings.readComment enum.comment).description
  unfold enumSchema
  split
  · exact described.withExtension (by decide) _
  · exact { described with }

def CatalogConsistent (derivation : Derivation) : Prop :=
  ∀ name schema, derivation.catalog.find? name = some schema → schema.Everywhere Schema.Consistent

theorem everywhere_of_written (catalog : derivation.CatalogConsistent)
    (written : derivation.Written schema) : schema.Everywhere Schema.Consistent := by
  cases written with
  | scalar scalar =>
      exact Schema.everywhere_of_bare (slots_eq_nil_of_scalar? scalar) (consistent_scalar? scalar)
  | enum enum =>
      exact Schema.everywhere_of_bare slots_enumSchema consistent_enumSchema
  | listed listed => exact catalog _ _ listed
  | override override =>
      cases override with
      | object => exact Schema.everywhere_of_bare rfl Schema.consistent_openObject
      | value => exact Schema.everywhere_of_bare rfl Schema.consistent_anyValue

end Derivation

/-! ## Messages -/

namespace Schema

theorem everywhere_requiring (name : String) : (requiring name).Everywhere Consistent :=
  everywhere_of_bare rfl (consistent_requiring name)

theorem everywhere_forbidding (names : List String) : (forbidding names).Everywhere Consistent := by
  refine everywhere_iff.2 ⟨{ consistent_empty with }, fun slot member => ?_⟩
  rw [slots_forbidding] at member
  rw [List.mem_singleton.1 member, Slot.everywhere_inline]
  refine everywhere_iff.2 ⟨{ consistent_empty with }, fun alternative member => ?_⟩
  rw [slots_anyOf] at member
  obtain ⟨name, -, rfl⟩ := List.mem_map.1 member
  exact Slot.everywhere_inline.2 (everywhere_requiring name)

theorem everywhere_exclusiveArms {names : List String} :
    ∀ slot ∈ exclusiveArms names, slot.Everywhere Consistent := by
  intro slot member
  rcases mem_exclusiveArms.1 member with rfl | ⟨name, -, rfl⟩
  · exact Slot.everywhere_inline.2 (everywhere_forbidding names)
  · exact Slot.everywhere_inline.2 (everywhere_requiring name)

theorem everywhere_oneOf_exclusiveArms (group : List String) :
    Schema.Everywhere Consistent { oneOf := exclusiveArms group } := by
  refine everywhere_iff.2 ⟨{ consistent_empty with }, fun arm member => ?_⟩
  rw [slots_oneOf] at member
  exact everywhere_exclusiveArms arm member

theorem Consistent.withExclusive (consistent : schema.Consistent) (groups : List (List String)) :
    (schema.withExclusive groups).Consistent := by
  unfold Schema.withExclusive
  split
  · exact consistent
  · exact { consistent with }
  · exact { consistent with }

theorem Everywhere.withExclusive (everywhere : schema.Everywhere Consistent)
    (groups : List (List String)) : (schema.withExclusive groups).Everywhere Consistent := by
  obtain ⟨here, under⟩ := everywhere_iff.1 everywhere
  refine everywhere_iff.2 ⟨here.withExclusive groups, fun slot member => ?_⟩
  rcases mem_slots_withExclusive member with other | ⟨group, -, arm⟩ | ⟨group, -, rfl⟩
  · exact under slot other
  · exact everywhere_exclusiveArms slot arm
  · exact Slot.everywhere_inline.2 (everywhere_oneOf_exclusiveArms group)

end Schema

theorem Catalog.everywhere_wellKnown :
    ∀ entry ∈ Catalog.wellKnown, entry.2.Everywhere Schema.Consistent := by
  have whole : Schema.integer.asNullable.Consistent := Schema.consistent_integer.asNullable
  have list : (Schema.arrayOf Schema.object).Everywhere Schema.Consistent :=
    Schema.everywhere_arrayOf (Slot.everywhere_inline.2
      (Schema.everywhere_of_bare rfl Schema.consistent_object))
  simp only [wellKnown, List.forall_mem_cons]
  refine ⟨list, ?_, ?_, ?_, ?_, ?_, ?_, ?_, ?_, ?_, ?_, ?_, ?_, ?_, ?_, by simp⟩
  all_goals refine Schema.everywhere_of_bare rfl ?_
  · exact Schema.consistent_openObject
  · exact Schema.consistent_openObject
  · exact Schema.consistent_anyValue
  · exact Schema.consistent_boolean.asNullable
  · exact Schema.consistent_string.asNullable
  · exact Schema.consistent_float64.asNullable
  · exact Schema.consistent_float64.asNullable
  · exact (whole.withMinimum rfl _).withMaximum rfl _
  · exact (whole.withMinimum rfl _).withMaximum rfl _
  · exact (whole.withMinimum rfl _).withMaximum rfl _
  · exact (whole.withMinimum rfl _).withMaximum rfl _
  · exact Schema.consistent_string
  · exact { Schema.consistent_object with object := fun _ => rfl }
  · exact Schema.consistent_string.withFormat _

namespace Derivation

variable {derivation : Derivation}

/-- What a derivation starts from keeps to the kinds: its catalog does, and directives leave a message
an object. -/
structure KeepsKinds (derivation : Derivation) : Prop where
  catalog : derivation.CatalogConsistent
  object : ∀ message own, derivation.objectOf message = .ok own → own.kind = some .object

theorem keepsKinds_ofUnit {model : Model} {settings : Settings} {unit : List Nat} :
    (ofUnit model settings unit).KeepsKinds where
  catalog name schema listed := by
    rcases Catalog.mem_withEmpty listed with rfl | member
    · exact Schema.everywhere_of_bare rfl Schema.consistent_openObject
    · exact Catalog.everywhere_wellKnown (name, schema) member
  object message own owned := by
    rw [Registry.kind_of_applyAll (ok_of_guilty owned)]
    exact if_neg (by simp [ofUnit, Registry.clears_builtin_type])

theorem everywhere_objectOf {message : Message} {own : Schema}
    (owned : derivation.objectOf message = .ok own) : own.Everywhere Schema.Consistent :=
  Registry.everywhere_applyAll (ok_of_guilty owned)
    (Schema.everywhere_of_bare rfl (Schema.consistent_object.describedAs _))

theorem everywhere_assemble {message : Message} {own : Schema} {properties : List Property}
    (everywhere : own.Everywhere Schema.Consistent) (object : own.kind = some .object)
    (each : ∀ property ∈ properties, property.slot.Everywhere Schema.Consistent) :
    (derivation.assemble message own properties).Everywhere Schema.Consistent := by
  obtain ⟨here, under⟩ := Schema.everywhere_iff.1 everywhere
  have body : (filled own properties).Everywhere Schema.Consistent := by
    refine Schema.everywhere_iff.2 ⟨{ here with object := fun _ => object }, fun slot member => ?_⟩
    rcases mem_slots_filled member with other | ⟨property, given, rfl⟩
    · exact under slot other
    · exact each property given
  rw [assemble_eq]
  split
  · exact body.withExclusive _
  · exact body

mutual

theorem Renders.everywhere {id : Nat} {schema : Schema} {targets : List Nat}
    (keeps : derivation.KeepsKinds) :
    derivation.Renders id schema targets → schema.Everywhere Schema.Consistent
  | .body _ owned fields =>
      everywhere_assemble (everywhere_objectOf owned) (keeps.object _ _ owned) (fields.everywhere keeps)

theorem RendersFields.everywhere {id : Nat} {owner : String} {fields : List Field}
    {properties : List Property} {targets : List Nat} (keeps : derivation.KeepsKinds) :
    derivation.RendersFields id owner fields properties targets →
      ∀ property ∈ properties, property.slot.Everywhere Schema.Consistent
  | .nil => fun _ member => nomatch member
  | .cons outlined stands ended rest => by
      intro property member
      have content := stands.everywhere keeps fun schema written =>
        everywhere_of_written keeps.catalog (written_of_fieldOutline outlined written)
      rcases List.mem_cons.1 member with rfl | later
      · exact everywhere_completed ended content
      · exact rest.everywhere keeps property later

theorem Stands.everywhere {owner : Nat} {content : Content} {slot : Slot Schema} {targets : List Nat}
    (keeps : derivation.KeepsKinds) :
    derivation.Stands owner content slot targets →
      (∀ schema, content = .written schema → schema.Everywhere Schema.Consistent) →
      slot.Everywhere Schema.Consistent
  | .written => fun written => Slot.everywhere_inline.2 (written _ rfl)
  | .pointed _ _ _ _ => fun _ => Slot.everywhere_reference
  | .wrapped _ _ _ _ => fun _ => by
      rw [Slot.everywhere_inline]
      refine Schema.everywhere_iff.2 ⟨{ Schema.consistent_object with }, fun inner member => ?_⟩
      cases List.mem_singleton.1 member
      exact Slot.everywhere_reference
  | .opened _ _ => fun _ =>
      Slot.everywhere_inline.2 (Schema.everywhere_of_bare rfl Schema.consistent_openObject)
  | .inlined renders => fun _ => Slot.everywhere_inline.2 (renders.everywhere keeps)

end

/-- A call that succeeds returns a schema that keeps to the kinds at any depth, and every schema in it
is written with no key twice. -/
theorem everywhere_consistent {model : Model} {settings : Settings} {unit calls : List Nat} {id : Nat}
    (ended : (((ofUnit model settings unit).messageSchema id).runFrom
      ((ofUnit model settings unit).answers calls {}).2).1 = .ok (some schema)) :
    schema.Everywhere fun node => node.Consistent ∧ node.WrittenOnce := by
  obtain ⟨-, targets, renders⟩ := renders_of_call ended
  exact (renders.everywhere keepsKinds_ofUnit).imp fun _ consistent =>
    ⟨consistent, consistent.writtenOnce⟩

end Derivation

/-- A shelf holds another shelf, and a list of at least one number. -/
def Model.shelf : Model :=
  .ofMessages
    [.holding "Shelf"
      [.holding "below" 0,
        { Field.ofKind "sizes" .int32 none with
          repeated := true
          comment := " +kubebuilder:validation:MinItems=1\n" }]]

theorem Derivation.everywhere_consistent_shelf :
    ∃ schema, (((ofUnit Model.shelf {} [0]).messageSchema 0).runFrom
        ((ofUnit Model.shelf {} [0]).answers [0] {}).2).1 = .ok (some schema) ∧
      schema.Everywhere fun node => node.Consistent ∧ node.WrittenOnce := by
  obtain ⟨schema, ended⟩ := exists_of_isSome
    (show (((ofUnit Model.shelf {} [0]).messageSchema 0).runFrom
      ((ofUnit Model.shelf {} [0]).answers [0] {}).2).1.toOption.join.isSome = true by decide +kernel)
  exact ⟨schema, ended, everywhere_consistent ended⟩

end ProtoSchema
