import ProtoSchema.Proofs.DocumentReferences
import ProtoSchema.Proofs.FieldDirectives

/-!
The reading of directives. A message has a schema only if every directive on it and on its fields can be
read; what the early end of one scan leaves out, another scan reads. The directives on enums are read by
none.
-/
namespace ProtoSchema

namespace Registry

variable {registry : Registry} {target : Target} {raws : List String}

/-- Every directive line has a definition and well-formed arguments. -/
def Reads (registry : Registry) (target : Target) (raws : List String) : Prop :=
  ∀ raw ∈ raws, ∃ directive, registry.parse raw target = .ok directive

theorem reads_nil : registry.Reads target [] := fun _ member => nomatch member

/-- A scan that finds no type override has read every directive. -/
theorem reads_of_typeOverride?_none (ended : registry.typeOverride? target raws = .ok none) :
    registry.Reads target raws := by
  induction raws with
  | nil => exact reads_nil
  | cons first raws ih =>
      unfold typeOverride? at ended
      obtain ⟨directive, read, rest⟩ := exists_of_bind_ok ended
      have others : registry.typeOverride? target raws = .ok none := by
        split at rest
        · cases rest
        · exact rest
      intro raw member
      rcases List.mem_cons.1 member with rfl | later
      · exact ⟨directive, read⟩
      · exact ih others raw later

end Registry

namespace Derivation

variable {derivation : Derivation} {message : Message} {owner : String} {field : Field}
  {outline : Outline} {property : Property} {answer : Answer} {own schema : Schema}

/-- The directives on a message, and those on its fields, can be read. -/
structure ReadsDirectives (derivation : Derivation) (message : Message) : Prop where
  own : derivation.registry.Reads .type
    (derivation.settings.readComment message.comment).directives
  fields : ∀ field ∈ message.fields,
    derivation.registry.Reads .field (derivation.settings.readComment field.comment).directives

theorem reads_of_objectOf (owned : derivation.objectOf message = .ok own) :
    derivation.registry.Reads .type (derivation.settings.readComment message.comment).directives :=
  Registry.parse_of_applyAll (ok_of_guilty owned)

/-- The directives behind an override are read when they are applied to what it puts in place, and
without one the scan for it has read them all. -/
theorem reads_of_propertyFrom
    (ended : derivation.PropertyFrom answer owner field (.ok property)) :
    derivation.registry.Reads .field (derivation.settings.readComment field.comment).directives := by
  rcases propertyFrom_iff.1 ended with ⟨_, -, impossible⟩ | ⟨outline, slot, outlined, answered, same⟩
  · cases impossible
  · obtain ⟨filled, rfl, completed⟩ := exists_of_bind_ok same.symm
    -- The scan for a required field may end early as well, so it does not count here.
    rcases fieldOutline_cases outlined with ⟨override, -, frame, content⟩ | ⟨scanned, -⟩
    · rw [content] at answered
      cases answered
      obtain ⟨shown, inlined⟩ := fieldSlot_inline field.repeated
        (derivation.settings.readComment field.comment).description (overriding override)
      obtain ⟨changed, guarded, -⟩ := exists_of_map_ok completed
      have applied := ok_of_guilty guarded
      rw [frame, Frame.around, inlined] at applied
      obtain ⟨_, ruled, -⟩ := exists_of_map_ok applied
      exact Registry.parse_of_applyAll ruled
    · exact Registry.reads_of_typeOverride?_none scanned

theorem readsDirectives_of_bodyFrom (ended : derivation.BodyFrom answer message (.ok schema)) :
    derivation.ReadsDirectives message := by
  rcases bodyFrom_iff.1 ended with ⟨_, -, impossible⟩ | ⟨own, properties, owned, sequenced, same⟩
  · cases impossible
  · obtain ⟨values, rfl, -⟩ := exists_of_map_ok same.symm
    refine ⟨reads_of_objectOf owned, fun field member => ?_⟩
    obtain ⟨property, -, each⟩ := exists_right_of_mem sequenced.forall₂ member
    exact reads_of_propertyFrom each

/-- A message with a schema is one whose directives can be read. -/
def directiveAccount (derivation : Derivation) : Account derivation where
  scope _ := True
  body id result := ∀ message schema, derivation.model.message? id = some message →
    result = .ok schema → derivation.ReadsDirectives message
  answer _ _ _ _ := True
  closed _ _ _ _ := trivial
  derives _ found _ body := by
    rintro message schema same rfl
    cases found.symm.trans same
    exact readsDirectives_of_bodyFrom body
  inlines _ _ := trivial
  points _ _ _ _ _ := trivial
  returns _ _ _ _ _ := trivial

theorem enumSchema_congr {enum : Enum} {comment : String}
    (same : (derivation.settings.readComment comment).description =
      (derivation.settings.readComment enum.comment).description) :
    derivation.enumSchema { enum with comment } = derivation.enumSchema enum := by
  unfold enumSchema
  simp only [same]

end Derivation

namespace Plan

variable {plan : Plan} {model : Model} {settings : Settings} {session : Session}
  {messages : List (String × Schema)} {id : Nat} {message : Message}

/-- Every message that has a component was called for, and its call succeeded. -/
theorem ListsDeclarations.readsDirectives {events : List Event} {output : OutputFile}
    (lists : plan.ListsDeclarations model)
    (written : ((plan.write model settings).runFrom events).1 = .ok output)
    (component : id ∈ (plan.derivation model settings).components)
    (found : model.message? id = some message) (plain : message.mapEntry = false) :
    (plan.derivation model settings).ReadsDirectives message := by
  rw [write_runFrom] at written
  obtain ⟨document, made, -⟩ := exists_of_map_ok written
  obtain ⟨messages, session, ran, whole, -, -⟩ := document_ok made
  have keeps : ((plan.derivation model settings).componentSchemas plan).Meets
      (plan.derivation model settings).directiveAccount.Kept fun _ => True :=
    (plan.derivation model settings).directiveAccount.componentSchemas_keeps fun _ => trivial
  have kept := (keeps {} Session.holds_start).2
  rw [whole] at kept
  obtain ⟨other, shown, same, -, -, settled⟩ :=
    lists.component_of_target ran component ⟨message, found, plain⟩
  cases same.symm.trans found
  have finished := ((Derivation.settled_of_messageSchema settled).2 shown rfl).2
  exact kept id shown (mem_of_lookup finished) message shown found rfl

end Plan

namespace Model

variable {model : Model} {settings : Settings} {names : List String} {events : List Event}
  {outputs : List OutputFile}

/-- Documents are written only if all directives on their messages and on the fields of these can be
read. What is written about an enum is the same whatever directives stand on it. -/
theorem directives_read_of_documents (heeded : settings.ignoreDirectives = false)
    (generated : ((model.documents settings names).runFrom events).1 = .ok outputs) :
    ∃ files, model.filesNamed names = .ok files ∧ ∀ plan ∈ Plan.all model settings files,
      (∀ name id message, (name, id) ∈ plan.messages → model.message? id = some message →
        message.parent = none → message.mapEntry = false →
          Registry.builtin.Reads .type (settings.commentPolicy.read message.comment).directives ∧
          ∀ field ∈ message.fields,
            Registry.builtin.Reads .field (settings.commentPolicy.read field.comment).directives) ∧
      ∀ (enum : Enum) (comment : String), (settings.readComment comment).description =
          (settings.readComment enum.comment).description →
        (plan.derivation model settings).enumSchema { enum with comment } =
          (plan.derivation model settings).enumSchema enum := by
  obtain ⟨files, known, written⟩ := documents_ok generated
  have read : ∀ comment, settings.readComment comment = settings.commentPolicy.read comment := by
    intro comment
    simp [Settings.readComment, heeded]
  refine ⟨files, known, fun plan planned => ⟨?_, fun _ _ same => Derivation.enumSchema_congr same⟩⟩
  intro name id message listed found top plain
  obtain ⟨output, -, now, ended⟩ := exists_right_of_mem written planned
  have component : id ∈ (plan.derivation model settings).components :=
    Plan.mem_components.2 ⟨⟨name, listed⟩, message, found, top⟩
  obtain ⟨own, fields⟩ :=
    (Plan.listsDeclarations_of_mem_all planned).readsDirectives ended component found plain
  refine ⟨?_, fun field member => ?_⟩
  · rw [← read]
    exact own
  · rw [← read]
    exact fields field member

end Model

/-- A gauge with directives on itself and on its field, and an enum with a directive that has no
definition. -/
def Model.gauge : Model :=
  { Model.ofMessages
      [{ Message.holding "Gauge"
          [{ Field.ofKind "unit" .string none with
              comment := " +kubebuilder:validation:Required\n" }] with
          comment := " What is shown.\n +kubebuilder:validation:MinProperties=1\n" }] with
    files := [
      { name := "forest.proto"
        package := "forest"
        packageComment := ""
        messages := [0]
        enums := [0]
        services := [] }]
    enums := [
      { name := "Mode"
        dottedName := "Mode"
        package := "forest"
        file := 0
        parent := none
        comment := " How it runs.\n +kubebuilder:nope\n"
        values := ["ON"] }] }

theorem Model.gauge_documents :
    ∃ outputs, ((gauge.documents { grouping := .singleFile } ["forest.proto"]).runFrom []).1 =
      .ok outputs :=
  exists_of_isOk (by decide +kernel)

theorem Model.directives_read_of_documents_gauge :
    ∃ outputs, ((gauge.documents { grouping := .singleFile } ["forest.proto"]).runFrom []).1 =
        .ok outputs ∧
      ("forest.Gauge", 0) ∈ (Plan.singleFile gauge gauge.files).messages ∧
      ∀ message, gauge.message? 0 = some message →
        Registry.builtin.Reads .type (Comment.Policy.read {} message.comment).directives ∧
        ∀ field ∈ message.fields,
          Registry.builtin.Reads .field (Comment.Policy.read {} field.comment).directives := by
  obtain ⟨outputs, generated⟩ := gauge_documents
  have listed : ("forest.Gauge", 0) ∈ (Plan.singleFile gauge gauge.files).messages := by
    decide +kernel
  obtain ⟨files, known, reads⟩ := directives_read_of_documents rfl generated
  cases (show gauge.filesNamed ["forest.proto"] = .ok gauge.files from rfl).symm.trans known
  refine ⟨outputs, generated, listed, fun message found => ?_⟩
  cases found
  exact (reads _ (List.mem_singleton_self _)).1 _ 0 _ listed rfl rfl rfl

/-- The documents of the gauge are written although the directive on its enum cannot be read. -/
theorem Model.exists_unread_directive_of_enum :
    (∃ outputs, ((gauge.documents { grouping := .singleFile } ["forest.proto"]).runFrom []).1 =
      .ok outputs) ∧
    ("forest.Mode", 0) ∈ (Plan.singleFile gauge gauge.files).enums ∧
    ∃ enum, gauge.enum? 0 = some enum ∧ enum.parent = none ∧
      ∃ raw ∈ (Comment.Policy.read {} enum.comment).directives,
        ∀ directive, Registry.builtin.parse raw .type ≠ .ok directive := by
  refine ⟨gauge_documents, by decide +kernel, _, rfl, rfl, "+kubebuilder:nope",
    by decide +kernel, fun directive read => ?_⟩
  have failed : (Registry.builtin.parse "+kubebuilder:nope" .type).isOk = false := by decide +kernel
  rw [read] at failed
  cases failed

end ProtoSchema
