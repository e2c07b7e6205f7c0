import ProtoSchema.Proofs.Components
import ProtoSchema.Proofs.Mentions
import ProtoSchema.Proofs.Writing

/-!
References of a document. A reference is put in for a message that has a component, and the component
of that message is found in the same document; only an enum of the same name can stand in its way.
-/
namespace ProtoSchema

variable {model : Model} {settings : Settings} {files : List File} {plan : Plan} {session : Session}
  {schemas messages : List (String × Schema)} {name : String} {schema : Schema}

theorem enumSchema_mentions_nothing {derivation : Derivation} {enum : Enum} (path : String) :
    ¬ (derivation.enumSchema enum).Mentions path := by
  have within : (derivation.enumSchema enum).Within fun _ => False := Derivation.within_enumSchema
  exact Slot.within_inline.2 within path

namespace Plan

/-- No top-level enum of the plan has the name of one of its messages. -/
def EnumsApart (plan : Plan) (model : Model) : Prop :=
  ∀ name id enum, (name, id) ∈ plan.enums → model.enum? id = some enum → enum.parent = none →
    name ∉ Entries.names plan.messages

theorem mem_enumComponents
    (member : (name, schema) ∈ (plan.derivation model settings).enumComponents plan) :
    ∃ id enum, (name, id) ∈ plan.enums ∧ model.enum? id = some enum ∧ enum.parent = none ∧
      schema = (plan.derivation model settings).enumSchema enum := by
  obtain ⟨⟨listed, id⟩, inPlan, shown⟩ := List.mem_filterMap.1 member
  have same : (plan.derivation model settings).model.enum? id = model.enum? id := rfl
  cases found : model.enum? id with
  | none =>
      simp only [same, found] at shown
      cases shown
  | some enum =>
      simp only [same, found] at shown
      split at shown
      · rename_i top
        cases shown
        exact ⟨id, enum, inPlan, found, Option.isNone_iff_eq_none.1 top, rfl⟩
      · cases shown

theorem EnumsApart.not_mem_enumComponents (apart : plan.EnumsApart model)
    (listed : name ∈ Entries.names plan.messages) :
    name ∉ Entries.names ((plan.derivation model settings).enumComponents plan) := by
  intro member
  obtain ⟨⟨_, schema⟩, component, rfl⟩ := List.mem_map.1 member
  obtain ⟨id, enum, inPlan, found, top, -⟩ := mem_enumComponents component
  exact apart _ id enum inPlan found top listed

/-- Enums of other names leave the component of a message as it is. -/
theorem EnumsApart.lookup_put {id : Nat} (apart : plan.EnumsApart model)
    (listed : (name, id) ∈ plan.messages) :
    (((plan.derivation model settings).enumComponents plan).foldl
      (fun sorted (name, schema) => Entries.putSorted name schema sorted) messages).lookup name =
        messages.lookup name := by
  rw [Entries.lookup_foldl_putSorted, Entries.lookup_reverse_eq_none
    (apart.not_mem_enumComponents (Entries.mem_names listed)), Option.none_or]

/-- The component of a message that may be pointed at, before the enums are put in. -/
theorem ListsDeclarations.component_of_target {target : Nat} (lists : plan.ListsDeclarations model)
    (ended : ((plan.derivation model settings).messageComponents plan).runFrom {} =
      (.ok messages, session))
    (component : target ∈ (plan.derivation model settings).components)
    (inlinable : (plan.derivation model settings).Inlinable target) :
    ∃ message shown, model.message? target = some message ∧
      (message.absoluteName, target) ∈ plan.messages ∧
      messages.lookup message.absoluteName = some shown ∧
      (plan.derivation model settings).Settled session target (some shown) := by
  have known := inlinable
  obtain ⟨message, found, plain⟩ := inlinable
  have listed := lists.lists_component component found
  obtain ⟨answer, settled, shows⟩ := Derivation.settled_of_listed ended listed component
  obtain ⟨shown, rfl⟩ := settled.exists_schema known
  refine ⟨message, shown, found, listed, ?_, settled⟩
  -- Whatever else stands under this name would be of the one message that the plan lists there.
  refine Entries.lookup_of_unique (shows shown rfl) fun other member => ?_
  obtain ⟨id, likewise, -, other⟩ := Derivation.settled_of_mem_messageComponents ended member
  cases (lists.ascending.lookup listed).symm.trans (lists.ascending.lookup likewise)
  cases settled.unique other
  rfl

/-- A document holds the components of its messages, with those of its enums put in, and everything
that is finished in the last session renders its message. -/
theorem document_ok {events : List Event} {document : Document}
    (made : ((plan.document model settings).runFrom events).1 = .ok document) :
    ∃ messages session,
      ((plan.derivation model settings).messageComponents plan).runFrom {} = (.ok messages, session) ∧
      ((plan.derivation model settings).componentSchemas plan).runFrom {} =
        (.ok document.schemas, session) ∧
      document.schemas = ((plan.derivation model settings).enumComponents plan).foldl
        (fun sorted (name, schema) => Entries.putSorted name schema sorted) messages ∧
      (plan.derivation model settings).rendering.Kept session := by
  have keeps : ((plan.derivation model settings).componentSchemas plan).Meets
      (plan.derivation model settings).rendering.Kept fun _ => True :=
    Derivation.Account.componentSchemas_keeps _ fun _ => trivial
  have kept := (keeps {} Session.holds_start).2
  rw [document_runFrom] at made
  obtain ⟨schemas, ended, rfl⟩ := exists_of_map_ok made
  have whole : ((plan.derivation model settings).componentSchemas plan).runFrom {} =
      (.ok schemas, (((plan.derivation model settings).componentSchemas plan).runFrom {}).2) :=
    Prod.ext_iff.2 ⟨ended, rfl⟩
  obtain ⟨messages, ran, same⟩ := Derivation.componentSchemas_ok whole
  exact ⟨messages, _, ran, whole, same, kept⟩

theorem rendered_of_mem (kept : (plan.derivation model settings).rendering.Kept session)
    (ended : ((plan.derivation model settings).messageComponents plan).runFrom {} =
      (.ok messages, session))
    (member : (name, schema) ∈ messages) :
    ∃ id targets, (name, id) ∈ plan.messages ∧
      (plan.derivation model settings).Settled session id (some schema) ∧
      (plan.derivation model settings).Renders id schema targets ∧
      ∀ path, schema.Mentions path → (plan.derivation model settings).PointsInto targets path := by
  obtain ⟨id, listed, -, settled⟩ := Derivation.settled_of_mem_messageComponents ended member
  obtain ⟨-, targets, renders⟩ :=
    Derivation.renders_of_messageSchema kept (congrArg Prod.fst settled)
  have within := renders.within Derivation.catalogBare_ofUnit
  exact ⟨id, targets, listed, settled, renders, fun path mentions =>
    Slot.within_inline.2 within path mentions⟩

/-- A component is the schema of an enum, which has no references, or it renders a message. -/
theorem rendered_of_component (kept : (plan.derivation model settings).rendering.Kept session)
    (ended : ((plan.derivation model settings).messageComponents plan).runFrom {} =
      (.ok messages, session))
    (member : (name, schema) ∈ ((plan.derivation model settings).enumComponents plan).foldl
      (fun sorted (name, schema) => Entries.putSorted name schema sorted) messages) :
    (∀ path, ¬ schema.Mentions path) ∨ ∃ id targets, (name, id) ∈ plan.messages ∧
      (plan.derivation model settings).Settled session id (some schema) ∧
      (plan.derivation model settings).Renders id schema targets ∧
      ∀ path, schema.Mentions path → (plan.derivation model settings).PointsInto targets path := by
  rcases Entries.mem_of_mem_foldl_putSorted member with enum | message
  · obtain ⟨id, enum, -, -, -, rfl⟩ := mem_enumComponents enum
    exact .inl enumSchema_mentions_nothing
  · exact .inr (rendered_of_mem kept ended message)

/-- Every reference of a document that is written points at a component of this document. Where the
enums keep out of the way, the component is the schema of the message that the reference was put in
for. -/
theorem references_resolve {events : List Event} {output : OutputFile}
    (planned : plan ∈ Plan.all model settings files)
    (written : ((plan.write model settings).runFrom events).1 = .ok output) :
    ∃ document session,
      ((plan.document model settings).runFrom events).1 = .ok document ∧
      output.content = document.text settings.yaml ∧
      ((plan.derivation model settings).componentSchemas plan).runFrom {} =
        (.ok document.schemas, session) ∧
      (∀ name schema, (name, schema) ∈ document.schemas → ∀ path, schema.Mentions path →
        ∃ target ∈ Entries.names document.schemas, path = Slot.componentPath target) ∧
      (plan.EnumsApart model → ∀ name schema, (name, schema) ∈ document.schemas →
        (∀ path, ¬ schema.Mentions path) ∨
        ∃ id targets, (name, id) ∈ plan.messages ∧
          (plan.derivation model settings).Settled session id (some schema) ∧
          (plan.derivation model settings).Renders id schema targets ∧
          (∀ path, schema.Mentions path →
            (plan.derivation model settings).PointsInto targets path) ∧
          ∀ target ∈ targets, ∃ message shown, model.message? target = some message ∧
            document.schemas.lookup message.absoluteName = some shown ∧
            (plan.derivation model settings).Settled session target (some shown)) := by
  have lists := listsDeclarations_of_mem_all planned
  rw [write_runFrom] at written
  obtain ⟨document, made, rfl⟩ := exists_of_map_ok written
  obtain ⟨messages, session, ran, whole, schemas, kept⟩ := document_ok made
  refine ⟨document, session, made, rfl, whole, ?_⟩
  rw [schemas]
  refine ⟨fun name schema member path mentions => ?_, fun apart name schema member => ?_⟩
  · rcases rendered_of_component kept ran member with none | ⟨id, targets, -, -, renders, points⟩
    · exact absurd mentions (none path)
    · obtain ⟨target, inTargets, message, found, rfl⟩ := points path mentions
      obtain ⟨isComponent, inlinable⟩ := renders.targets_components target inTargets
      obtain ⟨other, shown, same, -, stands, -⟩ := lists.component_of_target ran isComponent inlinable
      cases same.symm.trans found
      exact ⟨message.absoluteName, Entries.names_foldl_putSorted stands, rfl⟩
  · rcases rendered_of_component kept ran member with
      none | ⟨id, targets, listed, settled, renders, points⟩
    · exact .inl none
    · refine .inr ⟨id, targets, listed, settled, renders, points, fun target inTargets => ?_⟩
      obtain ⟨isComponent, inlinable⟩ := renders.targets_components target inTargets
      obtain ⟨message, shown, found, listed, stands, settled⟩ :=
        lists.component_of_target ran isComponent inlinable
      exact ⟨message, shown, found, (apart.lookup_put listed).trans stands, settled⟩

theorem references_resolve_tree :
    ∃ document,
      (((singleFile Model.tree Model.tree.files).document Model.tree
        { grouping := .singleFile, useRef := true }).runFrom []).1 = .ok document ∧
      (∀ name schema, (name, schema) ∈ document.schemas → ∀ path, schema.Mentions path →
        ∃ target ∈ Entries.names document.schemas, path = Slot.componentPath target) ∧
      ∀ name schema, (name, schema) ∈ document.schemas → (∀ path, ¬ schema.Mentions path) ∨
        ∃ id targets, ((singleFile Model.tree Model.tree.files).derivation Model.tree
            { grouping := .singleFile, useRef := true }).Renders id schema targets ∧
          ∀ target ∈ targets, ∃ message shown, Model.tree.message? target = some message ∧
            document.schemas.lookup message.absoluteName = some shown := by
  obtain ⟨output, written⟩ := exists_of_isOk
    (show (((singleFile Model.tree Model.tree.files).write Model.tree
      { grouping := .singleFile, useRef := true }).runFrom []).1.isOk = true by decide +kernel)
  have noEnums : (singleFile Model.tree Model.tree.files).enums = [] := by decide +kernel
  have apart : (singleFile Model.tree Model.tree.files).EnumsApart Model.tree := by
    intro name id enum listed
    rw [noEnums] at listed
    cases listed
  obtain ⟨document, _, made, -, -, resolve, stand⟩ :=
    references_resolve (List.mem_singleton_self _ :
      singleFile Model.tree Model.tree.files ∈
        Plan.all Model.tree { grouping := .singleFile, useRef := true } Model.tree.files) written
  refine ⟨document, made, resolve, fun name schema member => ?_⟩
  rcases stand apart name schema member with none | ⟨id, targets, -, -, renders, -, stands⟩
  · exact .inl none
  · refine .inr ⟨id, targets, renders, fun target listed => ?_⟩
    obtain ⟨message, shown, found, stored, -⟩ := stands target listed
    exact ⟨message, shown, found, stored⟩

end Plan

end ProtoSchema
