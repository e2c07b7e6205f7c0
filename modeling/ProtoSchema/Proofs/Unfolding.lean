import ProtoSchema.Document.Basic
import ProtoSchema.Proofs.Mentions

/-!
Unfolding a document. A reference is followed into the components of the document it stands in, and what
lies deeper than a given depth is cut off, so that a document that refers to itself still has an
unfolding of every depth. Descriptions are left out: a reference has no place for one.
-/
namespace ProtoSchema

variable {through other : Slot Schema → Slot Schema} {schema : Schema} {slot : Slot Schema}

/-- The schema without its description and with something else in every place below it. -/
def Schema.seen (through : Slot Schema → Slot Schema) (schema : Schema) : Schema :=
  { schema with
    description := ""
    items := schema.items.map through
    properties := Entries.mapValues through schema.properties
    additionalProperties := schema.additionalProperties.map through
    oneOf := schema.oneOf.map through
    anyOf := schema.anyOf.map through
    allOf := schema.allOf.map through
    negated := schema.negated.map through }

namespace Schema

theorem seen_congr (same : ∀ slot ∈ schema.slots, through slot = other slot) :
    schema.seen through = schema.seen other := by
  have items : schema.items.map through = schema.items.map other :=
    Option.map_congr fun slot member => same slot (by simp [slots, member])
  have properties : Entries.mapValues through schema.properties =
      Entries.mapValues other schema.properties :=
    List.map_congr_left fun entry member => by
      have below : entry.2 ∈ schema.slots := by
        simp only [slots, List.mem_append, List.mem_map]
        grind
      simp only [same entry.2 below]
  have additional : schema.additionalProperties.map through = schema.additionalProperties.map other :=
    Option.map_congr fun slot member => same slot (by simp [slots, member])
  have oneOf : schema.oneOf.map through = schema.oneOf.map other :=
    List.map_congr_left fun slot member => same slot (by simp [slots, member])
  have anyOf : schema.anyOf.map through = schema.anyOf.map other :=
    List.map_congr_left fun slot member => same slot (by simp [slots, member])
  have allOf : schema.allOf.map through = schema.allOf.map other :=
    List.map_congr_left fun slot member => same slot (by simp [slots, member])
  have negated : schema.negated.map through = schema.negated.map other :=
    Option.map_congr fun slot member => same slot (by simp [slots, member])
  simp only [seen, items, properties, additional, oneOf, anyOf, allOf, negated]

@[simp] theorem seen_arrayOf : (arrayOf slot).seen through = arrayOf (through slot) := rfl

@[simp] theorem seen_mapOf : (mapOf slot).seen through = mapOf (through slot) := rfl

theorem seen_withItems : ({ schema with items := some slot } : Schema).seen through =
    { schema.seen through with items := some (through slot) } := rfl

theorem seen_write (rule : Rule) : (rule.write schema).seen through = rule.write (schema.seen through) := by
  cases rule <;> rfl

end Schema

theorem map_eq_of_bare {slots : List (Slot Schema)}
    (agree : ∀ slot : Slot Schema, (slot.Within fun _ => False) → through slot = other slot)
    (bare : ∀ slot ∈ slots, slot.Within fun _ => False) : slots.map through = slots.map other :=
  List.map_congr_left fun slot member => agree slot (bare slot member)

theorem Schema.seen_withExclusive {left right : Schema} (groups : List (List String))
    (agree : ∀ slot : Slot Schema, (slot.Within fun _ => False) → through slot = other slot)
    (same : left.seen through = right.seen other) :
    (left.withExclusive groups).seen through = (right.withExclusive groups).seen other := by
  have arms (group : List String) : (exclusiveArms group).map through = (exclusiveArms group).map other :=
    map_eq_of_bare agree within_exclusiveArms
  unfold withExclusive
  split
  · exact same
  · rename_i group
    have only (schema : Schema) (through : Slot Schema → Slot Schema) :
        ({ schema with oneOf := exclusiveArms group } : Schema).seen through =
          { schema.seen through with oneOf := (exclusiveArms group).map through } := rfl
    rw [only, only, same, arms]
  · have several (schema : Schema) (through : Slot Schema → Slot Schema) (more : List (Slot Schema)) :
        ({ schema with allOf := schema.allOf ++ more } : Schema).seen through =
          { schema.seen through with allOf := (schema.seen through).allOf ++ more.map through } := by
      simp only [seen, List.map_append]
    have added : (groups.map fun group => Slot.inline { oneOf := exclusiveArms group }).map through =
        (groups.map fun group => Slot.inline { oneOf := exclusiveArms group }).map other := by
      refine map_eq_of_bare agree fun slot member => ?_
      obtain ⟨group, -, rfl⟩ := List.mem_map.1 member
      exact Slot.within_inline.2 (within_oneOf_exclusiveArms group)
    rw [several, several, same, added]

namespace Derivation

/-- Both properties look the same, each through its own way of seeing. -/
def Property.Agrees (through other : Slot Schema → Slot Schema) (one two : Property) : Prop :=
  one.name = two.name ∧ one.required = two.required ∧ through one.slot = other two.slot

variable {left right : List Property}

theorem required_eq (same : List.Forall₂ (Property.Agrees through other) left right) :
    (left.filter (·.required)).map (·.name) = (right.filter (·.required)).map (·.name) := by
  induction same with
  | nil => rfl
  | cons first _ ih =>
      rw [List.filter_cons, List.filter_cons, first.2.1]
      split
      · rw [List.map_cons, List.map_cons, first.1, ih]
      · exact ih

theorem slots_eq (same : List.Forall₂ (Property.Agrees through other) left right) :
    (left.map fun property => (property.name, through property.slot)) =
      right.map fun property => (property.name, other property.slot) := by
  induction same with
  | nil => rfl
  | cons first _ ih => rw [List.map_cons, List.map_cons, first.1, first.2.2, ih]

theorem seen_filled {own : Schema} {properties : List Property} :
    (filled own properties).seen through =
      { own.seen through with
        required := (properties.filter (·.required)).map (·.name)
        properties := Entries.ofList
          (properties.map fun property => (property.name, through property.slot)) } := by
  have entries : Entries.mapValues through (Entries.ofList
        (properties.map fun property => (property.name, property.slot))) =
      Entries.ofList (properties.map fun property => (property.name, through property.slot)) := by
    rw [Entries.mapValues_ofList, Entries.mapValues, List.map_map]
    rfl
  rw [← entries]
  rfl

theorem seen_assemble {derivation : Derivation} {message : Message} {own : Schema}
    (agree : ∀ slot : Slot Schema, (slot.Within fun _ => False) → through slot = other slot)
    (bare : own.Within fun _ => False)
    (same : List.Forall₂ (Property.Agrees through other) left right) :
    (derivation.assemble message own left).seen through =
      (derivation.assemble message own right).seen other := by
  have body : (filled own left).seen through = (filled own right).seen other := by
    rw [seen_filled, seen_filled, required_eq same, slots_eq same,
      Schema.seen_congr fun slot member => agree slot (bare slot member)]
  rw [assemble_eq, assemble_eq]
  split
  · exact Schema.seen_withExclusive message.exclusiveGroups agree body
  · exact body

end Derivation

namespace Document

variable {document one two : Document} {depth : Nat}

def component? (document : Document) (path : String) : Option Schema :=
  (document.schemas.find? fun entry => Slot.componentPath entry.1 = path).map (·.2)

/-- The schema that a slot shows in the document. -/
def shown? (document : Document) : Slot Schema → Option Schema
  | .inline schema => some schema
  | .reference path => document.component? path

/-- What a slot shows down to a depth. A reference is followed without going deeper. -/
def unfolded (document : Document) : (depth : Nat) → Slot Schema → Slot Schema
  | 0, _ => .inline {}
  | depth + 1, slot =>
    match document.shown? slot with
    | some schema => .inline (schema.seen (document.unfolded depth))
    | none => slot

theorem componentPath_injective {name other : String}
    (same : Slot.componentPath name = Slot.componentPath other) : name = other :=
  (String.append_right_inj _).1 same

theorem component?_componentPath (name : String) :
    document.component? (Slot.componentPath name) = document.schemas.lookup name := by
  unfold component?
  induction document.schemas with
  | nil => rfl
  | cons entry rest ih =>
      obtain ⟨first, schema⟩ := entry
      rw [Entries.lookup_cons]
      by_cases here : name = first
      · simp [here]
      · have apart : Slot.componentPath first ≠ Slot.componentPath name := fun same =>
          here (componentPath_injective same).symm
        rw [List.find?_cons_of_neg (by simpa using apart), ih, if_neg here]

/-- A slot unfolds as the schema that it shows. -/
theorem unfolded_of_shown (shown : document.shown? slot = some schema) :
    document.unfolded depth slot = document.unfolded depth (.inline schema) := by
  cases depth with
  | zero => rfl
  | succ depth =>
      simp only [unfolded, shown]
      rfl

theorem unfolded_inline :
    document.unfolded (depth + 1) (.inline schema) = .inline (schema.seen (document.unfolded depth)) := rfl

theorem unfolded_describedAs (description : String) :
    document.unfolded depth (.inline (schema.describedAs description)) =
      document.unfolded depth (.inline schema) := by
  cases depth <;> rfl

/-- Without references nothing depends on the document. -/
theorem unfolded_of_bare (bare : slot.Within fun _ => False) :
    one.unfolded depth slot = two.unfolded depth slot := by
  induction depth generalizing slot with
  | zero => rfl
  | succ depth ih =>
      cases slot with
      | reference path => exact (bare path .here).elim
      | inline schema =>
          rw [unfolded_inline, unfolded_inline]
          exact congrArg _ (Schema.seen_congr fun slot member =>
            ih (Slot.within_inline.1 bare slot member))

/-! ## Building schemas -/

theorem unfolded_fieldSlot {repeated : Bool} {description : String} {left right : Slot Schema}
    (same : ∀ inner ≤ depth, one.unfolded inner left = two.unfolded inner right) :
    one.unfolded depth (Derivation.fieldSlot repeated description left) =
      two.unfolded depth (Derivation.fieldSlot repeated description right) := by
  have described (document : Document) (slot : Slot Schema) :
      document.unfolded depth (slot.mapInline (Schema.describedAs description)) =
        document.unfolded depth slot := by
    cases slot with
    | reference path => rfl
    | inline schema => exact unfolded_describedAs description
  unfold Derivation.fieldSlot
  rw [described, described]
  cases repeated with
  | false => exact same depth (Nat.le_refl depth)
  | true =>
      cases depth with
      | zero => rfl
      | succ depth =>
          have items := same depth (Nat.le_succ depth)
          simp only [if_true, unfolded_inline, Schema.seen_arrayOf, items]

theorem unfolded_around {frame : Derivation.Frame} {left right : Slot Schema}
    (same : ∀ inner ≤ depth, one.unfolded inner left = two.unfolded inner right) :
    one.unfolded depth (frame.around left) = two.unfolded depth (frame.around right) := by
  induction frame generalizing depth with
  | field repeated description => exact unfolded_fieldSlot same
  | map description values ih =>
      refine unfolded_fieldSlot fun inner bounded => ?_
      cases inner with
      | zero => rfl
      | succ inner =>
          have below : one.unfolded inner (values.around left) = two.unfolded inner (values.around right) :=
            ih fun deeper further => same deeper (by omega)
          simp only [unfolded_inline, Schema.seen_mapOf, below]

theorem unfolded_write {left right : Schema} (rule : Rule)
    (same : one.unfolded depth (.inline left) = two.unfolded depth (.inline right)) :
    one.unfolded depth (.inline (rule.write left)) = two.unfolded depth (.inline (rule.write right)) := by
  cases depth with
  | zero => rfl
  | succ depth =>
      simp only [unfolded_inline, Slot.inline.injEq] at same ⊢
      rw [Schema.seen_write, Schema.seen_write, same]

theorem unfolded_items {left right : Schema} {items others : Schema}
    (first : left.items = some (.inline items)) (second : right.items = some (.inline others))
    (same : one.unfolded (depth + 1) (.inline left) = two.unfolded (depth + 1) (.inline right)) :
    one.unfolded depth (.inline items) = two.unfolded depth (.inline others) := by
  simp only [unfolded_inline, Slot.inline.injEq] at same
  have shown := congrArg Schema.items same
  simp only [Schema.seen, first, second, Option.map_some, Option.some.injEq] at shown
  exact shown

theorem unfolded_directive {directive : Directive} {left right changed altered : Schema}
    (first : directive.apply left = .ok changed) (second : directive.apply right = .ok altered)
    (same : one.unfolded depth (.inline left) = two.unfolded depth (.inline right)) :
    one.unfolded depth (.inline changed) = two.unfolded depth (.inline altered) := by
  cases depth with
  | zero => rfl
  | succ depth =>
      unfold Directive.apply at first second
      split at first
      · rename_i node
        simp only [node] at second
        rw [Rule.eq_write_of_apply first, Rule.eq_write_of_apply second]
        exact unfolded_write directive.rule same
      · rename_i node
        simp only [node] at second
        split at first
        · split at second
          · rename_i items found _ others likewise
            obtain ⟨inner, ruled, rfl⟩ := exists_of_map_ok first
            obtain ⟨deeper, applied, rfl⟩ := exists_of_map_ok second
            have below := unfolded_items (Schema.inlineItems?_eq found) (Schema.inlineItems?_eq likewise) same
            have written := unfolded_write directive.rule below
            simp only [unfolded_inline, Slot.inline.injEq] at same ⊢
            rw [Schema.seen_withItems, Schema.seen_withItems, Rule.eq_write_of_apply ruled,
              Rule.eq_write_of_apply applied, same, written]
          · cases second
        · cases first

theorem unfolded_applyAll {registry : Registry} {target : Target} {directives : List String}
    {left right changed altered : Schema}
    (first : registry.applyAll target directives left = .ok changed)
    (second : registry.applyAll target directives right = .ok altered)
    (same : one.unfolded depth (.inline left) = two.unfolded depth (.inline right)) :
    one.unfolded depth (.inline changed) = two.unfolded depth (.inline altered) := by
  induction directives generalizing left right with
  | nil =>
      cases first
      cases second
      exact same
  | cons directive rest ih =>
      obtain ⟨parsed, _, read, applied, others⟩ := Registry.applyAll_cons_ok.1 first
      obtain ⟨_, _, likewise, alsoApplied, alsoOthers⟩ := Registry.applyAll_cons_ok.1 second
      cases read.symm.trans likewise
      exact ih others alsoOthers (unfolded_directive applied alsoApplied same)

end Document

end ProtoSchema
