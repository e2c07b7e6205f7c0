import ProtoSchema.Proofs.Entries
import ProtoSchema.Proofs.Rendering

/-!
The references in a schema, at any depth. `Schema.slots` lists what stands directly below a schema, in
whatever keyword; `Slot.Mentions` follows it down to the references. The rest says for each way of
building schemas that it brings in no reference of its own.
-/
namespace ProtoSchema

def Schema.slots (schema : Schema) : List (Slot Schema) :=
  schema.items.toList ++ schema.properties.map (·.2) ++ schema.additionalProperties.toList
    ++ schema.oneOf ++ schema.anyOf ++ schema.allOf ++ schema.negated.toList

/-- The reference `path` stands in the slot itself or below it. -/
inductive Slot.Mentions (path : String) : Slot Schema → Prop
  | here : Slot.Mentions path (.reference path)
  | inside {schema : Schema} {slot : Slot Schema} :
      slot ∈ schema.slots → slot.Mentions path → Slot.Mentions path (.inline schema)

def Schema.Mentions (schema : Schema) (path : String) : Prop := (Slot.inline schema).Mentions path

/-- Only known references stand below the schema. -/
def Slot.Within (known : String → Prop) (slot : Slot Schema) : Prop :=
  ∀ path, slot.Mentions path → known path

def Schema.Within (known : String → Prop) (schema : Schema) : Prop :=
  ∀ slot ∈ schema.slots, slot.Within known

variable {known : String → Prop} {schema changed : Schema} {slot : Slot Schema}

theorem Slot.Within.mono {weaker : String → Prop} (within : slot.Within known)
    (weaken : ∀ path, known path → weaker path) : slot.Within weaker :=
  fun path mentions => weaken path (within path mentions)

theorem Slot.within_reference {path : String} (holds : known path) :
    (Slot.reference path).Within known := by
  intro other mentions
  cases mentions
  exact holds

@[simp] theorem Slot.within_inline : (Slot.inline schema).Within known ↔ schema.Within known := by
  constructor
  · intro within slot member path mentions
    exact within path (.inside member mentions)
  · intro within path mentions
    cases mentions with
    | inside member mentions => exact within _ member path mentions

theorem Schema.within_of_slots_nil (bare : schema.slots = []) : schema.Within known := by
  intro slot member
  rw [bare] at member
  cases member

theorem Schema.Within.of_subset (within : schema.Within known)
    (subset : ∀ slot ∈ changed.slots, slot ∈ schema.slots) : changed.Within known :=
  fun slot member => within slot (subset slot member)

/-! ## Rules -/

theorem Rule.slots_write (rule : Rule) (schema : Schema) :
    ∀ slot ∈ (rule.write schema).slots, slot ∈ schema.slots := by
  intro slot member
  cases rule with
  | schemaless => cases member
  | _ => exact member

theorem Rule.eq_write_of_apply {rule : Rule} (applied : rule.apply schema = .ok changed) :
    changed = rule.write schema := by
  unfold Rule.apply at applied
  split at applied
  · split at applied
    · cases applied
    · split at applied <;> cases applied
      rfl
  · cases applied
    rfl

theorem Rule.within_apply {rule : Rule} (applied : rule.apply schema = .ok changed)
    (within : schema.Within known) : changed.Within known := by
  rw [Rule.eq_write_of_apply applied]
  exact within.of_subset (rule.slots_write schema)

theorem Schema.inlineItems?_eq_some {items : Schema} :
    schema.inlineItems? = some items ↔
      schema.kind = some .array ∧ schema.items = some (.inline items) := by
  unfold Schema.inlineItems?
  constructor
  · intro found
    split at found
    · rename_i array stands
      cases found
      exact ⟨array, stands⟩
    · cases found
  · rintro ⟨array, stands⟩
    rw [array, stands]

theorem Schema.inlineItems?_eq {items : Schema} (found : schema.inlineItems? = some items) :
    schema.items = some (.inline items) :=
  (inlineItems?_eq_some.1 found).2

theorem Schema.slots_withItems (schema : Schema) (items : Slot Schema) :
    ∀ slot ∈ { schema with items := some items }.slots, slot = items ∨ slot ∈ schema.slots := by
  intro slot member
  simp only [Schema.slots, List.mem_append, Option.mem_toList] at member ⊢
  grind

theorem Directive.within_apply {directive : Directive} (applied : directive.apply schema = .ok changed)
    (within : schema.Within known) : changed.Within known := by
  unfold Directive.apply at applied
  split at applied
  · exact Rule.within_apply applied within
  · split at applied
    · rename_i items found
      obtain ⟨next, ruled, rfl⟩ := exists_of_map_ok applied
      have stands := Schema.inlineItems?_eq found
      have inner : items.Within known := by
        rw [← Slot.within_inline]
        exact within _ (by simp [Schema.slots, stands])
      intro slot member
      rcases schema.slots_withItems _ slot member with rfl | other
      · exact Slot.within_inline.2 (Rule.within_apply ruled inner)
      · exact within slot other
    · cases applied

/-- Directives succeed if the first can be read and applied and the others succeed on what it leaves. -/
theorem Registry.applyAll_cons_ok {registry : Registry} {target : Target} {raw : String}
    {raws : List String} :
    registry.applyAll target (raw :: raws) schema = .ok changed ↔
      ∃ directive next, registry.parse raw target = .ok directive ∧
        directive.apply schema = .ok next ∧ registry.applyAll target raws next = .ok changed := by
  unfold Registry.applyAll
  rw [List.foldlM_cons]
  constructor
  · intro applied
    obtain ⟨next, line, rest⟩ := exists_of_bind_ok applied
    obtain ⟨directive, read, first⟩ := exists_of_bind_ok line
    exact ⟨directive, next, read, first, rest⟩
  · rintro ⟨directive, next, read, first, rest⟩
    have line : registry.applyLine target schema raw = .ok next := by
      unfold Registry.applyLine
      rw [read]
      exact first
    rw [line]
    exact rest

theorem Registry.within_applyAll {registry : Registry} {target : Target} {directives : List String}
    (applied : registry.applyAll target directives schema = .ok changed)
    (within : schema.Within known) : changed.Within known := by
  induction directives generalizing schema with
  | nil => cases applied; exact within
  | cons directive rest ih =>
      obtain ⟨_, next, -, first, others⟩ := Registry.applyAll_cons_ok.1 applied
      exact ih others (Directive.within_apply first within)

/-- Directives put nothing below a schema that has nothing below it. -/
theorem Registry.slots_eq_nil_of_applyAll {registry : Registry} {target : Target}
    {directives : List String} (applied : registry.applyAll target directives schema = .ok changed)
    (bare : schema.slots = []) : changed.slots = [] := by
  induction directives generalizing schema with
  | nil => cases applied; exact bare
  | cons raw rest ih =>
      obtain ⟨directive, next, -, first, others⟩ := Registry.applyAll_cons_ok.1 applied
      refine ih others ?_
      unfold Directive.apply at first
      split at first
      · rw [Rule.eq_write_of_apply first]
        refine List.eq_nil_iff_forall_not_mem.2 fun slot member => ?_
        have kept := directive.rule.slots_write schema slot member
        rw [bare] at kept
        cases kept
      · split at first
        · rename_i items found
          have stands : Slot.inline items ∈ schema.slots := by
            simp [Schema.slots, Schema.inlineItems?_eq found]
          rw [bare] at stands
          cases stands
        · cases first

/-! ## Fields and messages -/

theorem Slot.Within.mapInline {change : Schema → Schema} (within : slot.Within known)
    (same : ∀ schema, (change schema).slots = schema.slots) : (slot.mapInline change).Within known := by
  cases slot with
  | reference path => exact within
  | inline schema =>
      rw [Slot.mapInline, Slot.within_inline]
      intro slot member
      rw [same] at member
      exact Slot.within_inline.1 within slot member

theorem Schema.within_arrayOf (within : slot.Within known) : (Schema.arrayOf slot).Within known := by
  intro other member
  simp [Schema.arrayOf, Schema.slots] at member
  exact member ▸ within

theorem Schema.within_mapOf (within : slot.Within known) : (Schema.mapOf slot).Within known := by
  intro other member
  simp [Schema.mapOf, Schema.slots] at member
  exact member ▸ within

namespace Derivation

variable {derivation : Derivation}

theorem within_fieldSlot {repeated : Bool} {description : String} (within : slot.Within known) :
    (fieldSlot repeated description slot).Within known := by
  refine Slot.Within.mapInline ?_ fun schema => rfl
  cases repeated with
  | true => exact Slot.within_inline.2 (Schema.within_arrayOf within)
  | false => exact within

theorem Frame.within_around {frame : Frame} (within : slot.Within known) :
    (frame.around slot).Within known := by
  induction frame with
  | field repeated description => exact within_fieldSlot within
  | map description values ih =>
      exact within_fieldSlot (Slot.within_inline.2 (Schema.within_mapOf ih))

theorem within_applyToSlot {directives : List String} {result : Slot Schema}
    (applied : derivation.applyToSlot directives slot = .ok result) (within : slot.Within known) :
    result.Within known := by
  cases slot with
  | reference path => cases applied; exact within
  | inline schema =>
      obtain ⟨changed, ruled, rfl⟩ := exists_of_map_ok applied
      exact Slot.within_inline.2 (Registry.within_applyAll ruled (Slot.within_inline.1 within))

theorem within_completed {owner : String} {field : Field} {outline : Outline} {property : Property}
    (ended : derivation.completed owner field outline slot = .ok property)
    (within : slot.Within known) : property.slot.Within known := by
  obtain ⟨result, applied, rfl⟩ := exists_of_map_ok ended
  exact within_applyToSlot (ok_of_guilty applied) (Frame.within_around within)

theorem within_objectOf {message : Message} {own : Schema}
    (ended : derivation.objectOf message = .ok own) : own.Within known :=
  Registry.within_applyAll (ok_of_guilty ended) (Schema.within_of_slots_nil rfl)

theorem slots_eq_nil_of_objectOf {message : Message} {own : Schema}
    (ended : derivation.objectOf message = .ok own) : own.slots = [] :=
  Registry.slots_eq_nil_of_applyAll (ok_of_guilty ended) rfl

end Derivation

theorem Schema.within_requiring (name : String) : (Schema.requiring name).Within known :=
  Schema.within_of_slots_nil rfl

theorem Schema.mem_exclusiveArms {names : List String} : slot ∈ exclusiveArms names ↔
    slot = .inline (forbidding names) ∨ ∃ name ∈ names, slot = .inline (requiring name) := by
  simp only [exclusiveArms, List.mem_cons, List.mem_map, eq_comm]

theorem Schema.slots_oneOf (arms : List (Slot Schema)) : Schema.slots { oneOf := arms } = arms := by
  simp [slots]

theorem Schema.slots_forbidding (names : List String) : (forbidding names).slots =
    [.inline { anyOf := names.map fun name => .inline (requiring name) }] := rfl

theorem Schema.slots_anyOf (arms : List (Slot Schema)) : Schema.slots { anyOf := arms } = arms := by
  simp [slots]

theorem Schema.within_forbidding {names : List String} : (forbidding names).Within known := by
  intro inner member
  rw [slots_forbidding] at member
  rw [List.mem_singleton.1 member, Slot.within_inline]
  intro alternative member
  rw [slots_anyOf] at member
  obtain ⟨name, -, rfl⟩ := List.mem_map.1 member
  exact Slot.within_inline.2 (within_requiring name)

theorem Schema.within_exclusiveArms {names : List String} :
    ∀ slot ∈ Schema.exclusiveArms names, slot.Within known := by
  intro slot member
  rcases mem_exclusiveArms.1 member with rfl | ⟨name, -, rfl⟩
  · exact Slot.within_inline.2 within_forbidding
  · exact Slot.within_inline.2 (within_requiring name)

theorem Schema.within_oneOf_exclusiveArms (group : List String) :
    Schema.Within known { oneOf := Schema.exclusiveArms group } := by
  intro arm member
  rw [slots_oneOf] at member
  exact Schema.within_exclusiveArms arm member

/-- Groups of exclusive fields add their alternatives, in a schema around each group if there are
several. -/
theorem Schema.mem_slots_withExclusive {groups : List (List String)}
    (member : slot ∈ (schema.withExclusive groups).slots) :
    slot ∈ schema.slots ∨ (∃ group ∈ groups, slot ∈ exclusiveArms group) ∨
      ∃ group ∈ groups, slot = .inline { oneOf := exclusiveArms group } := by
  unfold Schema.withExclusive at member
  split at member
  · exact .inl member
  · simp only [Schema.slots, List.mem_append, List.mem_singleton] at member ⊢
    grind
  · simp only [Schema.slots, List.mem_append, List.mem_map] at member ⊢
    grind

theorem Schema.Within.withExclusive {groups : List (List String)} (within : schema.Within known) :
    (schema.withExclusive groups).Within known := by
  intro slot member
  rcases mem_slots_withExclusive member with other | ⟨group, -, arm⟩ | ⟨group, -, rfl⟩
  · exact within slot other
  · exact within_exclusiveArms slot arm
  · exact Slot.within_inline.2 (within_oneOf_exclusiveArms group)

/-- The schema of a message with its properties, before it has groups of exclusive fields. -/
def Derivation.filled (own : Schema) (properties : List Derivation.Property) : Schema :=
  { own with
    required := (properties.filter (·.required)).map (·.name)
    properties := Entries.ofList (properties.map fun property => (property.name, property.slot)) }

theorem Derivation.assemble_eq (derivation : Derivation) (message : Message) (own : Schema)
    (properties : List Derivation.Property) :
    derivation.assemble message own properties =
      if derivation.settings.protoOneof then
        (filled own properties).withExclusive message.exclusiveGroups
      else filled own properties := rfl

/-- Where the names differ, every property stands in the schema of the message as it was derived. -/
theorem Derivation.lookup_assemble {derivation : Derivation} {message : Message} {own : Schema}
    {properties : List Derivation.Property} {property : Derivation.Property}
    (distinct : (properties.map (·.name)).Nodup) (member : property ∈ properties) :
    (derivation.assemble message own properties).properties.lookup property.name =
      some property.slot := by
  have same : (derivation.assemble message own properties).properties =
      Entries.ofList (properties.map fun property => (property.name, property.slot)) := by
    rw [assemble_eq]
    split
    · unfold Schema.withExclusive
      split <;> rfl
    · rfl
  have unique : (Entries.names (properties.map fun property => (property.name, property.slot))).Nodup := by
    rw [Entries.names, List.map_map]
    exact distinct
  rw [same, Entries.ofList_of_nodup unique]
  exact Entries.lookup_of_nodup unique (List.mem_map_of_mem member)

theorem Derivation.mem_slots_filled {own : Schema} {properties : List Derivation.Property}
    (member : slot ∈ (filled own properties).slots) :
    slot ∈ own.slots ∨ ∃ property ∈ properties, property.slot = slot := by
  have parts : slot ∈ own.slots ∨ ∃ name, (name, slot) ∈ Entries.ofList
      (properties.map fun property => (property.name, property.slot)) := by
    simp only [Schema.slots, filled, List.mem_append, List.mem_map] at member ⊢
    grind
  refine parts.imp_right fun ⟨name, listed⟩ => ?_
  obtain ⟨property, given, same⟩ := List.mem_map.1 (Entries.mem_of_mem_ofList listed)
  exact ⟨property, given, (Prod.mk.inj same).2⟩

theorem Derivation.within_assemble {derivation : Derivation} {message : Message} {own : Schema}
    {properties : List Derivation.Property} (within : own.Within known)
    (each : ∀ property ∈ properties, property.slot.Within known) :
    (derivation.assemble message own properties).Within known := by
  have body : (filled own properties).Within known := by
    intro slot member
    rcases mem_slots_filled member with other | ⟨property, given, rfl⟩
    · exact within slot other
    · exact each property given
  rw [assemble_eq]
  split
  · exact body.withExclusive
  · exact body

/-! ## Schemas that mention nothing -/

/-- A listed schema is that of a well-known type or an open object. -/
theorem Catalog.mem_withEmpty {names : List String} {name : String}
    (listed : (Catalog.withEmpty names).find? name = some schema) :
    schema = Schema.openObject ∨ (name, schema) ∈ Catalog.wellKnown := by
  have grown : ∀ (names : List String) (catalog : Catalog),
      (name, schema) ∈ names.foldl (fun catalog name => Entries.put name Schema.openObject catalog)
        catalog → schema = Schema.openObject ∨ (name, schema) ∈ catalog := by
    intro names
    induction names with
    | nil => exact fun catalog member => .inr member
    | cons first rest ih =>
        intro catalog member
        rcases ih _ member with same | earlier
        · exact .inl same
        · exact (Entries.mem_of_mem_put earlier).imp_left fun same => (Prod.mk.inj same).2
  exact grown names _ (mem_of_lookup listed)

theorem Catalog.within_withEmpty {names : List String} {name : String}
    (listed : (Catalog.withEmpty names).find? name = some schema) : schema.Within known := by
  have wellKnown : ∀ entry ∈ Catalog.wellKnown, entry.2.Within known := by
    simp only [Catalog.wellKnown, List.forall_mem_cons]
    refine ⟨?_, ?_, ?_, ?_, ?_, ?_, ?_, ?_, ?_, ?_, ?_, ?_, ?_, ?_, ?_, by simp⟩
    · exact Schema.within_arrayOf (Slot.within_inline.2 (Schema.within_of_slots_nil rfl))
    all_goals exact Schema.within_of_slots_nil rfl
  rcases Catalog.mem_withEmpty listed with rfl | member
  · exact Schema.within_of_slots_nil rfl
  · exact wellKnown (name, schema) member

namespace Derivation

variable {derivation : Derivation}

theorem slots_enumSchema {enum : Enum} : (derivation.enumSchema enum).slots = [] := by
  unfold enumSchema
  split <;> rfl

theorem within_enumSchema {enum : Enum} : (derivation.enumSchema enum).Within known :=
  Schema.within_of_slots_nil slots_enumSchema

theorem slots_eq_nil_of_scalar? {kind : FieldKind} {native : Bool}
    (scalar : kind.scalar? native = some schema) : schema.slots = [] := by
  cases kind <;> cases native <;> cases scalar <;> rfl

theorem within_of_written
    (catalog : ∀ name schema, derivation.catalog.find? name = some schema → schema.Within known)
    (written : derivation.Written schema) : schema.Within known := by
  cases written with
  | scalar scalar => exact Schema.within_of_slots_nil (slots_eq_nil_of_scalar? scalar)
  | enum enum => exact within_enumSchema
  | listed listed => exact catalog _ _ listed
  | override override =>
      refine Schema.within_of_slots_nil ?_
      cases override <;> rfl

/-! ## References of a message -/

/-- The reference `path` points at one of the messages. -/
def PointsInto (derivation : Derivation) (targets : List Nat) (path : String) : Prop :=
  ∃ target ∈ targets, ∃ message, derivation.model.message? target = some message ∧
    path = Slot.componentPath message.absoluteName

theorem PointsInto.mono {targets others : List Nat} {path : String}
    (points : derivation.PointsInto targets path) (subset : ∀ target ∈ targets, target ∈ others) :
    derivation.PointsInto others path := by
  obtain ⟨target, member, found⟩ := points
  exact ⟨target, subset target member, found⟩

/-- No schema of the catalog has a reference below it. -/
def CatalogBare (derivation : Derivation) : Prop :=
  ∀ name schema, derivation.catalog.find? name = some schema → ∀ known, schema.Within known

theorem catalogBare_ofUnit {model : Model} {settings : Settings} {unit : List Nat} :
    (ofUnit model settings unit).CatalogBare :=
  fun _ _ listed _ => Catalog.within_withEmpty listed

mutual

theorem Renders.within {id : Nat} {schema : Schema} {targets : List Nat}
    (bare : derivation.CatalogBare) :
    derivation.Renders id schema targets → schema.Within (derivation.PointsInto targets)
  | .body _ owned fields => within_assemble (within_objectOf owned) (fields.within bare)

theorem RendersFields.within {id : Nat} {owner : String} {fields : List Field}
    {properties : List Property} {targets : List Nat} (bare : derivation.CatalogBare) :
    derivation.RendersFields id owner fields properties targets →
      ∀ property ∈ properties, property.slot.Within (derivation.PointsInto targets)
  | .nil => fun _ member => nomatch member
  | .cons outlined stands ended rest => by
      intro property member
      have content := stands.within bare fun schema written =>
        within_of_written (fun name schema listed => bare name schema listed _)
          (written_of_fieldOutline outlined written)
      rcases List.mem_cons.1 member with rfl | later
      · exact (within_completed ended content).mono fun path points =>
          points.mono fun _ => List.mem_append_left _
      · exact (rest.within bare property later).mono fun path points =>
          points.mono fun _ => List.mem_append_right _

theorem Stands.within {owner : Nat} {content : Content} {slot : Slot Schema} {targets : List Nat}
    (bare : derivation.CatalogBare) :
    derivation.Stands owner content slot targets →
      (∀ schema, content = .written schema → schema.Within (derivation.PointsInto targets)) →
      slot.Within (derivation.PointsInto targets)
  | .written => fun written => Slot.within_inline.2 (written _ rfl)
  | .pointed _ found _ _ => fun _ =>
      Slot.within_reference ⟨_, List.mem_singleton_self _, _, found, rfl⟩
  | .wrapped _ found _ _ => fun _ => by
      rw [Slot.within_inline]
      intro inner member
      cases List.mem_singleton.1 member
      exact Slot.within_reference ⟨_, List.mem_singleton_self _, _, found, rfl⟩
  | .opened _ _ => fun _ => Slot.within_inline.2 (Schema.within_of_slots_nil rfl)
  | .inlined renders => fun _ => Slot.within_inline.2 (renders.within bare)

end

mutual

theorem Renders.targets_components {id : Nat} {schema : Schema} {targets : List Nat} :
    derivation.Renders id schema targets →
      ∀ target ∈ targets, target ∈ derivation.components ∧ derivation.Inlinable target
  | .body _ _ fields => fields.targets_components

theorem RendersFields.targets_components {id : Nat} {owner : String} {fields : List Field}
    {properties : List Property} {targets : List Nat} :
    derivation.RendersFields id owner fields properties targets →
      ∀ target ∈ targets, target ∈ derivation.components ∧ derivation.Inlinable target
  | .nil => fun _ member => nomatch member
  | .cons _ stands _ rest => fun target member =>
      (List.mem_append.1 member).elim (stands.targets_components target)
        (rest.targets_components target)

theorem Stands.targets_components {owner : Nat} {content : Content} {slot : Slot Schema}
    {targets : List Nat} :
    derivation.Stands owner content slot targets →
      ∀ target ∈ targets, target ∈ derivation.components ∧ derivation.Inlinable target
  | .written => fun _ member => nomatch member
  | .pointed component found plain _ => fun _ member =>
      List.mem_singleton.1 member ▸ ⟨component, _, found, plain⟩
  | .wrapped component found plain _ => fun _ member =>
      List.mem_singleton.1 member ▸ ⟨component, _, found, plain⟩
  | .opened _ _ => fun _ member => nomatch member
  | .inlined renders => renders.targets_components

end

end Derivation

end ProtoSchema
