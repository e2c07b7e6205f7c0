import Mathlib.Data.List.Induction
import ProtoSchema.Proofs.RuleWrites

/-!
The order of directives. Directives that leave their schema its kind succeed together if each of them
succeeds alone, and what they come to depends only on their order within each scope and family.
-/
namespace ProtoSchema

/-- Two slots that point at the same component, or hold related schemas. -/
inductive Slot.Rel {α β : Type} (related : α → β → Prop) : Slot α → Slot β → Prop
  | reference (path : String) : Slot.Rel related (.reference path) (.reference path)
  | inline {one : α} {other : β} : related one other → Slot.Rel related (.inline one) (.inline other)

theorem Slot.Rel.trans_left {α β γ : Type} {first : α → β → Prop} {second : α → γ → Prop}
    {joined : β → γ → Prop} (join : ∀ {a b c}, first a b → second a c → joined b c)
    {start : Slot α} {one : Slot β} {other : Slot γ} (left : start.Rel first one)
    (right : start.Rel second other) : one.Rel joined other := by
  cases left with
  | reference path => cases right; exact .reference path
  | inline here => cases right with | inline there => exact .inline (join here there)

namespace Schema

/-- The same schema, where the order of its extensions does not count. -/
structure AlikeHere (one other : Schema) : Prop where
  keywords : { one with extensions := [] } = { other with extensions := [] }
  extensions : ∀ key, one.extensions.lookup key = other.extensions.lookup key

/-- The same schema, where the order of extensions does not count in it and in its items. Below these,
the schemas are equal as they are. -/
structure Alike (one other : Schema) : Prop where
  here : AlikeHere { one with items := none } { other with items := none }
  items : Option.Rel (Slot.Rel AlikeHere) one.items other.items

end Schema

namespace Directive

/-- The rules of the directives for one scope. -/
def rulesFor (scope : Scope) (directives : List Directive) : List Rule :=
  (directives.filter (·.scope = scope)).map (·.rule)

/-- Apply directives in order; one that fails fails them all. -/
def applyInOrder (directives : List Directive) (schema : Schema) : Except DirectiveError Schema :=
  directives.foldlM (fun reached directive => directive.apply reached) schema

/-- The same directives in another order, in which those of one scope and one family still stand as
they stood. -/
structure Reordering (one other : List Directive) : Prop where
  perm : one.Perm other
  order : ∀ scope family,
    one.filter (fun directive => directive.scope = scope ∧ directive.rule.kind = family) =
      other.filter (fun directive => directive.scope = scope ∧ directive.rule.kind = family)

/-- No directive takes all form from a schema. -/
def Formed (directives : List Directive) : Prop :=
  ∀ directive ∈ directives, directive.rule.kind ≠ .schemaless

end Directive

/-- A schema after directives, compared with the one before: the rules for the schema itself have been
written there, those for items into its items, and nothing else has changed. -/
structure Schema.Directed (directives : List Directive) (before after : Schema) : Prop where
  here : Schema.Ruled (Directive.rulesFor .node directives) { before with items := none }
    { after with items := none }
  items : Option.Rel (Slot.Rel (Schema.Ruled (Directive.rulesFor .items directives))) before.items
    after.items

variable {schema before after changed : Schema} {directive : Directive}
  {directives others : List Directive} {rule : Rule} {rules : List Rule}

/-! ## Success -/

theorem Rule.items_write (formed : rule.kind ≠ .schemaless) (schema : Schema) :
    (rule.write schema).items = schema.items := by
  cases rule with
  | schemaless => exact absurd rfl formed
  | _ => rfl

namespace Directive

theorem applyInOrder_cons_ok :
    applyInOrder (directive :: directives) schema = .ok changed ↔
      ∃ next, directive.apply schema = .ok next ∧ applyInOrder directives next = .ok changed := by
  unfold applyInOrder
  rw [List.foldlM_cons]
  constructor
  · exact exists_of_bind_ok
  · rintro ⟨next, first, rest⟩
    rw [first]
    exact rest

theorem applyInOrder_concat_ok :
    applyInOrder (directives ++ [directive]) schema = .ok changed ↔
      ∃ reached, applyInOrder directives schema = .ok reached ∧
        directive.apply reached = .ok changed := by
  induction directives generalizing schema with
  | nil =>
      rw [List.nil_append, applyInOrder_cons_ok]
      constructor
      · rintro ⟨next, applied, ended⟩
        cases ended
        exact ⟨schema, rfl, applied⟩
      · rintro ⟨reached, ended, applied⟩
        cases ended
        exact ⟨changed, applied, rfl⟩
  | cons first rest ih =>
      simp only [List.cons_append, applyInOrder_cons_ok, ih]
      constructor
      · rintro ⟨next, applied, reached, others, last⟩
        exact ⟨reached, ⟨next, applied, others⟩, last⟩
      · rintro ⟨reached, ⟨next, applied, others⟩, last⟩
        exact ⟨next, applied, reached, others, last⟩

/-- What was written to a schema leaves it open to the same directives. -/
theorem sameKind_apply (formed : directive.rule.kind ≠ .schemaless)
    (applied : directive.apply schema = .ok changed) : schema.SameKind changed := by
  obtain ⟨rule, scope⟩ := directive
  cases scope with
  | node =>
      rw [Rule.eq_write_of_apply applied]
      exact Schema.sameKind_of_items (Rule.kind_write_of_ne formed schema).symm
        (Rule.items_write formed schema).symm
  | items =>
      unfold apply at applied
      simp only at applied
      split at applied
      · rename_i items found
        obtain ⟨inner, ruled, rfl⟩ := exists_of_map_ok applied
        obtain ⟨array, stands⟩ := Schema.inlineItems?_eq_some.1 found
        have written : ({ schema with items := some (.inline inner) } : Schema).inlineItems? =
            some inner := Schema.inlineItems?_eq_some.2 ⟨array, rfl⟩
        have kind : inner.kind = items.kind := by
          rw [Rule.eq_write_of_apply ruled]
          exact Rule.kind_write_of_ne formed items
        exact ⟨rfl, by rw [found, written, Option.map_some, Option.map_some, kind]⟩
      · cases applied

theorem applyInOrder_ok_iff (formed : Formed directives) :
    (∃ changed, applyInOrder directives schema = .ok changed) ↔
      ∀ directive ∈ directives, ∃ changed, directive.apply schema = .ok changed := by
  induction directives generalizing schema with
  | nil => exact ⟨fun _ _ member => (List.not_mem_nil member).elim, fun _ => ⟨schema, rfl⟩⟩
  | cons first rest ih =>
      obtain ⟨plain, others⟩ := List.forall_mem_cons.1 formed
      rw [List.forall_mem_cons]
      constructor
      · rintro ⟨changed, applied⟩
        obtain ⟨next, here, later⟩ := applyInOrder_cons_ok.1 applied
        have same := sameKind_apply plain here
        refine ⟨⟨next, here⟩, fun directive member => ?_⟩
        obtain ⟨_, succeeds⟩ := (ih others).1 ⟨changed, later⟩ directive member
        obtain ⟨altered, likewise, -⟩ := apply_of_sameKind ⟨same.kind.symm, same.items.symm⟩ succeeds
        exact ⟨altered, likewise⟩
      · rintro ⟨⟨next, here⟩, each⟩
        have same := sameKind_apply plain here
        have later : ∃ changed, applyInOrder rest next = .ok changed := by
          refine (ih others).2 fun directive member => ?_
          obtain ⟨_, succeeds⟩ := each directive member
          obtain ⟨altered, likewise, -⟩ := apply_of_sameKind same succeeds
          exact ⟨altered, likewise⟩
        obtain ⟨changed, rest⟩ := later
        exact ⟨changed, applyInOrder_cons_ok.2 ⟨next, here, rest⟩⟩

/-! ## What directives write -/

theorem rulesFor_concat (scope : Scope) :
    rulesFor scope (directives ++ [directive]) =
      if directive.scope = scope then rulesFor scope directives ++ [directive.rule]
      else rulesFor scope directives := by
  unfold rulesFor
  by_cases own : directive.scope = scope
  · simp [own]
  · simp [own]

end Directive

theorem Rule.write_withoutItems (rule : Rule) (schema : Schema) :
    { rule.write schema with items := none } = rule.write { schema with items := none } := by
  cases rule <;> rfl

namespace Schema

theorem Directed.nil (schema : Schema) : schema.Directed [] schema where
  here := .nil _
  items := by
    cases schema.items with
    | none => exact .none
    | some slot =>
        cases slot with
        | reference path => exact .some (.reference path)
        | inline inner => exact .some (.inline (.nil inner))

/-- A directive that follows writes its rule where its scope says. -/
theorem Directed.apply (directed : before.Directed directives after)
    (formed : directive.rule.kind ≠ .schemaless)
    (applied : directive.apply after = .ok changed) :
    before.Directed (directives ++ [directive]) changed := by
  obtain ⟨rule, scope⟩ := directive
  have apart : Scope.node ≠ Scope.items := by decide
  cases scope with
  | node =>
      rw [Rule.eq_write_of_apply applied]
      constructor
      · rw [Directive.rulesFor_concat, if_pos rfl, Rule.write_withoutItems]
        exact directed.here.write formed
      · rw [Directive.rulesFor_concat, if_neg apart, Rule.items_write formed]
        exact directed.items
  | items =>
      unfold Directive.apply at applied
      simp only at applied
      split at applied
      · rename_i inner found
        obtain ⟨written, ruled, rfl⟩ := exists_of_map_ok applied
        have stands := inlineItems?_eq found
        have kept := directed.items
        constructor
        · rw [Directive.rulesFor_concat, if_neg apart.symm]
          exact directed.here
        · rw [Directive.rulesFor_concat, if_pos rfl, Rule.eq_write_of_apply ruled]
          rw [stands] at kept
          generalize before.items = place at kept ⊢
          cases kept with
          | some slot => cases slot with | inline within => exact .some (.inline (within.write formed))
      · cases applied

theorem directed_of_applyInOrder (formed : Directive.Formed directives)
    (applied : Directive.applyInOrder directives schema = .ok changed) :
    schema.Directed directives changed := by
  -- Each directive adds to what those before it have written, so the list is taken from its end.
  induction directives using List.reverseRecOn generalizing changed with
  | nil => cases applied; exact .nil schema
  | append_singleton earlier last ih =>
      obtain ⟨reached, before, here⟩ := Directive.applyInOrder_concat_ok.1 applied
      have plain := List.forall_mem_append.1 formed
      exact (ih plain.1 before).apply (plain.2 last List.mem_cons_self) here

/-! ## The same in another order -/

theorem Ruled.alikeHere {otherRules : List Rule} {one other : Schema}
    (left : schema.Ruled rules one) (right : schema.Ruled otherRules other)
    (same : ∀ family, rules.filter (·.kind = family) = otherRules.filter (·.kind = family)) :
    one.AlikeHere other where
  keywords := by
    have settled : schema.ruled rules = schema.ruled otherRules := by
      simp only [ruled, Rule.last?_congr (same _)]
    rw [left.keywords, right.keywords, settled]
  extensions key := by
    by_cases written : ∃ family : RuleKind, family.extension? = some key
    · obtain ⟨family, writes⟩ := written
      by_cases adds : family = .validation
      · subst adds
        cases writes
        rw [left.validations, right.validations, Rule.filterMap_validation?, same,
          ← Rule.filterMap_validation?]
      · rw [left.marks family key writes adds, right.marks family key writes adds,
          Rule.last?_congr (same family)]
    · have free := not_exists.1 written
      rw [left.others key free, right.others key free]

end Schema

namespace Directive

theorem Reordering.rulesFor (reordered : Reordering directives others) (scope : Scope)
    (family : RuleKind) :
    (rulesFor scope directives).filter (·.kind = family) =
      (rulesFor scope others).filter (·.kind = family) := by
  have kept (list : List Directive) : (Directive.rulesFor scope list).filter (·.kind = family) =
      (list.filter fun directive => directive.scope = scope ∧ directive.rule.kind = family).map
        (·.rule) := by
    rw [Directive.rulesFor, List.filter_map, List.filter_filter]
    congr 1
    refine List.filter_congr fun directive _ => ?_
    rw [Function.comp_apply, Bool.decide_and, Bool.and_comm]
  rw [kept, kept, reordered.order]

theorem Reordering.alike {one other : Schema} (reordered : Reordering directives others)
    (left : schema.Directed directives one) (right : schema.Directed others other) :
    one.Alike other where
  here := left.here.alikeHere right.here (reordered.rulesFor .node)
  items := by
    have inner := left.items
    have outer := right.items
    generalize schema.items = place at inner outer
    generalize one.items = left at inner ⊢
    generalize other.items = right at outer ⊢
    cases inner with
    | none => cases outer; exact .none
    | some first =>
        cases outer with
        | some second =>
            exact .some (first.trans_left (fun one other =>
              one.alikeHere other (reordered.rulesFor .items)) second)

/-- Directives that leave schemas their kind succeed in order exactly if each of them succeeds on the
schema there is at first; in an order that keeps every scope and family in order they come to the same
schema, or fail as well; and they change what their rules say and nothing else. -/
theorem applyInOrder_independent (formed : Formed directives) (schema : Schema) :
    ((∃ changed, applyInOrder directives schema = .ok changed) ↔
        ∀ directive ∈ directives, ∃ changed, directive.apply schema = .ok changed) ∧
      (∀ others, Reordering directives others →
        (∃ one other, applyInOrder directives schema = .ok one ∧
          applyInOrder others schema = .ok other ∧ one.Alike other) ∨
        ∃ error failure, applyInOrder directives schema = .error error ∧
          applyInOrder others schema = .error failure) ∧
      ∀ changed, applyInOrder directives schema = .ok changed →
        schema.Directed directives changed := by
  refine ⟨applyInOrder_ok_iff formed, fun others reordered => ?_,
    fun changed => Schema.directed_of_applyInOrder formed⟩
  have likewise : Formed others := fun directive member =>
    formed directive (reordered.perm.mem_iff.2 member)
  have both : (∃ changed, applyInOrder directives schema = .ok changed) ↔
      ∃ changed, applyInOrder others schema = .ok changed := by
    rw [applyInOrder_ok_iff formed, applyInOrder_ok_iff likewise]
    simp only [reordered.perm.mem_iff]
  cases first : applyInOrder directives schema with
  | ok one =>
      obtain ⟨other, second⟩ := both.1 ⟨one, first⟩
      exact .inl ⟨one, other, rfl, second, reordered.alike
        (Schema.directed_of_applyInOrder formed first)
        (Schema.directed_of_applyInOrder likewise second)⟩
  | error error =>
      cases second : applyInOrder others schema with
      | ok other =>
          obtain ⟨one, succeeds⟩ := both.2 ⟨other, second⟩
          cases succeeds.symm.trans first
      | error failure => exact .inr ⟨error, failure, rfl, rfl⟩

/-- Bounds on a list of tags and on the tags in it. -/
def tagBounds : List Directive :=
  [⟨.minItems 1, .node⟩, ⟨.maxLength 5, .items⟩, ⟨.minItems 2, .node⟩,
    ⟨.validation { rule := "self.size() < 9" }, .node⟩]

/-- The bounds on a list of tags with every other one moved up. -/
def tagBoundsMoved : List Directive :=
  [⟨.maxLength 5, .items⟩, ⟨.minItems 1, .node⟩, ⟨.validation { rule := "self.size() < 9" }, .node⟩,
    ⟨.minItems 2, .node⟩]

theorem applyInOrder_independent_tags :
    Formed tagBounds ∧ Reordering tagBounds tagBoundsMoved ∧
      ∃ one other, applyInOrder tagBounds (.arrayOf Schema.string) = .ok one ∧
        applyInOrder tagBoundsMoved (.arrayOf Schema.string) = .ok other ∧ one.Alike other ∧
        (Schema.arrayOf Schema.string).Directed tagBounds one ∧ one.minItems = some 2 := by
  have formed : Formed tagBounds := by
    unfold Formed
    decide
  have reordered : Reordering tagBounds tagBoundsMoved := by
    refine ⟨(List.Perm.swap _ _ _).trans (.cons _ (.cons _ (.swap _ _ _))), fun scope family => ?_⟩
    cases scope <;> cases family <;> rfl
  obtain ⟨-, alike, directed⟩ := applyInOrder_independent formed (.arrayOf Schema.string)
  refine ⟨formed, reordered, ?_⟩
  rcases alike _ reordered with ⟨one, other, first, second, same⟩ | ⟨error, _, failed, -⟩
  · have two : one.minItems = some 2 := by
      cases first
      rfl
    exact ⟨one, other, first, second, same, directed one first, two⟩
  · cases failed

end Directive

/-- Lines that can all be read do what the directives do that they are read as. -/
theorem Registry.applyAll_of_reads {registry : Registry} {target : Target} {raws : List String}
    (read : raws.mapM (registry.parse · target) = .ok directives) (schema : Schema) :
    registry.applyAll target raws schema = Directive.applyInOrder directives schema := by
  have each := mapM_ok_iff.1 read
  clear read
  induction each generalizing schema with
  | nil => rfl
  | cons first _ ih =>
      unfold applyAll Directive.applyInOrder at ih ⊢
      rw [List.foldlM_cons, List.foldlM_cons, applyLine, first]
      exact congrArg _ (funext ih)

end ProtoSchema
