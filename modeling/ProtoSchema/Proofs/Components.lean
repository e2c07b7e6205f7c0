import ProtoSchema.Document.Generate
import ProtoSchema.Proofs.Entries
import ProtoSchema.Proofs.Finished

/-!
The components of a document. Every message with a component keeps the schema of its call to the end
of the derivation, so the components can be read off the last session; a plan lists each name once.
-/
namespace ProtoSchema

theorem Entries.lookup_of_unique {α : Type} {name : String} {value : α} {entries : List (String × α)}
    (member : (name, value) ∈ entries) (unique : ∀ other, (name, other) ∈ entries → other = value) :
    entries.lookup name = some value := by
  cases found : entries.lookup name with
  | none =>
      have absent := List.lookup_eq_none_iff.1 found (name, value) member
      simp at absent
  | some other => rw [unique other (mem_of_lookup found)]

namespace Plan

variable {model : Model} {settings : Settings} {files : List File} {plan : Plan}

/-- The declarations of the plan stand under their absolute names, the messages in ascending order. -/
structure ListsDeclarations (plan : Plan) (model : Model) : Prop where
  ascending : Entries.Ascending plan.messages
  messages : ∀ name id, (name, id) ∈ plan.messages →
    ∃ message, model.message? id = some message ∧ name = message.absoluteName
  enums : ∀ name id, (name, id) ∈ plan.enums →
    ∃ enum, model.enum? id = some enum ∧ name = enum.absoluteName

theorem named_of_mem_byName {α : Type} {find? : Nat → Option α} {nameOf : α → String} {ids : List Nat}
    {name : String} {id : Nat}
    (member : (name, id) ∈ byName (ids.filterMap fun id =>
      (find? id).map fun declared => (nameOf declared, id))) :
    ∃ declared, find? id = some declared ∧ name = nameOf declared := by
  rcases Entries.mem_of_mem_foldl_putSorted member with listed | nothing
  · obtain ⟨other, -, same⟩ := List.mem_filterMap.1 listed
    obtain ⟨declared, found, same⟩ := Option.map_eq_some_iff.1 same
    cases same
    exact ⟨declared, found, rfl⟩
  · cases nothing

theorem ofFiles_listsDeclarations {name title version : String} :
    (ofFiles model name title version files).ListsDeclarations model where
  ascending := Entries.Ascending.foldl_putSorted List.Pairwise.nil _
  messages _ _ member := named_of_mem_byName member
  enums _ _ member := named_of_mem_byName member

theorem listsDeclarations_of_mem_all (planned : plan ∈ Plan.all model settings files) :
    plan.ListsDeclarations model := by
  unfold Plan.all at planned
  split at planned
  · rw [List.mem_singleton.1 planned]
    exact ofFiles_listsDeclarations
  · obtain ⟨file, -, rfl⟩ := List.mem_map.1 planned
    exact ofFiles_listsDeclarations
  · obtain ⟨package, -, same⟩ := List.mem_filterMap.1 planned
    split at same
    · cases same
    · cases same
      exact ofFiles_listsDeclarations

theorem mem_components {id : Nat} :
    id ∈ (plan.derivation model settings).components ↔
      (∃ name, (name, id) ∈ plan.messages) ∧
        ∃ message, model.message? id = some message ∧ message.parent = none := by
  unfold Plan.derivation Derivation.ofUnit
  cases found : model.message? id <;> simp [found]

/-- A component stands under the name of its message. -/
theorem ListsDeclarations.lists_component {id : Nat} {message : Message}
    (lists : plan.ListsDeclarations model)
    (component : id ∈ (plan.derivation model settings).components)
    (found : model.message? id = some message) : (message.absoluteName, id) ∈ plan.messages := by
  obtain ⟨⟨name, listed⟩, -⟩ := mem_components.1 component
  obtain ⟨other, same, rfl⟩ := lists.messages name id listed
  cases same.symm.trans found
  exact listed

end Plan

namespace Derivation

open List (Forall₂)

variable {derivation : Derivation} {plan : Plan} {session after : Session}

/-- The component of a message, if it has a schema. -/
def componentOf (derivation : Derivation) (entry : String × Nat) :
    Deriving (Option (String × Schema)) :=
  Option.map (fun schema => (entry.1, schema)) <$> derivation.messageSchema entry.2

theorem messageComponents_eq :
    derivation.messageComponents plan =
      (fun found => found.filterMap id) <$>
        (plan.messages.filter fun entry => entry.2 ∈ derivation.components).mapM
          derivation.componentOf := by
  unfold messageComponents componentOf
  simp only [map_eq_pure_bind]

theorem settled_of_mapM {entries : List (String × Nat)} {found : List (Option (String × Schema))}
    (ended : (entries.mapM derivation.componentOf).runFrom session = (.ok found, after)) :
    (∀ id answer, derivation.Settled session id answer → derivation.Settled after id answer) ∧
      Forall₂ (fun entry shown => ∃ answer, derivation.Settled after entry.2 answer ∧
        shown = answer.map fun schema => (entry.1, schema)) entries found := by
  induction entries generalizing session found with
  | nil =>
      cases ended
      exact ⟨fun _ _ settled => settled, .nil⟩
  | cons entry rest ih =>
      rw [List.mapM_cons, Deriving.runFrom_bind, componentOf, Deriving.runFrom_map] at ended
      cases called : (derivation.messageSchema entry.2).runFrom session with
      | mk result next =>
          rw [called] at ended
          cases result with
          | error failure => cases ended
          | ok answer =>
              simp only [Except.map, Deriving.runFrom_bind] at ended
              cases others : (rest.mapM derivation.componentOf).runFrom next with
              | mk result last =>
                  rw [others] at ended
                  cases result with
                  | error failure => cases ended
                  | ok shown =>
                      cases ended
                      obtain ⟨keeps, tail⟩ := ih others
                      have head := keeps _ _ (settled_of_messageSchema called).1
                      refine ⟨fun id answer settled => keeps _ _ ?_, .cons ⟨answer, head, rfl⟩ tail⟩
                      have kept := settled.keep entry.2
                      rw [called] at kept
                      exact kept

theorem Settled.unique {id : Nat} {one two : Option Schema} (first : derivation.Settled session id one)
    (second : derivation.Settled session id two) : one = two := by
  rw [Settled, first] at second
  cases second
  rfl

theorem messageComponents_ok {schemas : List (String × Schema)}
    (ended : (derivation.messageComponents plan).runFrom session = (.ok schemas, after)) :
    ∃ found, schemas = found.filterMap id ∧
      Forall₂ (fun entry shown => ∃ answer, derivation.Settled after entry.2 answer ∧
          shown = answer.map fun schema => (entry.1, schema))
        (plan.messages.filter fun entry => entry.2 ∈ derivation.components) found := by
  rw [messageComponents_eq, Deriving.runFrom_map] at ended
  obtain ⟨found, ran, rfl⟩ := exists_of_map_ok (congrArg Prod.fst ended)
  have last := congrArg Prod.snd ended
  exact ⟨found, rfl, (settled_of_mapM (Prod.ext_iff.2 ⟨ran, last⟩)).2⟩

/-- The components of messages are what the last session has for them. -/
theorem settled_of_mem_messageComponents {schemas : List (String × Schema)} {name : String}
    {schema : Schema}
    (ended : (derivation.messageComponents plan).runFrom session = (.ok schemas, after))
    (member : (name, schema) ∈ schemas) :
    ∃ id, (name, id) ∈ plan.messages ∧ id ∈ derivation.components ∧
      derivation.Settled after id (some schema) := by
  obtain ⟨found, rfl, all⟩ := messageComponents_ok ended
  obtain ⟨shown, inFound, rfl⟩ := List.mem_filterMap.1 member
  obtain ⟨entry, kept, answer, settled, shown⟩ := exists_left_of_mem all inFound
  obtain ⟨body, rfl, same⟩ := Option.map_eq_some_iff.1 shown.symm
  cases same
  have listed := List.mem_filter.1 kept
  exact ⟨entry.2, listed.1, by simpa using listed.2, settled⟩

/-- Every message with a component is settled in the last session. -/
theorem settled_of_listed {schemas : List (String × Schema)} {name : String} {id : Nat}
    (ended : (derivation.messageComponents plan).runFrom session = (.ok schemas, after))
    (listed : (name, id) ∈ plan.messages) (component : id ∈ derivation.components) :
    ∃ answer, derivation.Settled after id answer ∧
      ∀ schema, answer = some schema → (name, schema) ∈ schemas := by
  obtain ⟨found, rfl, all⟩ := messageComponents_ok ended
  have kept : (name, id) ∈ plan.messages.filter fun entry => entry.2 ∈ derivation.components :=
    List.mem_filter.2 ⟨listed, by simpa using component⟩
  obtain ⟨shown, member, answer, settled, rfl⟩ := exists_right_of_mem all kept
  refine ⟨answer, settled, fun schema same => ?_⟩
  cases same
  exact List.mem_filterMap.2 ⟨_, member, rfl⟩

theorem componentSchemas_ok {schemas : List (String × Schema)}
    (ended : (derivation.componentSchemas plan).runFrom session = (.ok schemas, after)) :
    ∃ messages, (derivation.messageComponents plan).runFrom session = (.ok messages, after) ∧
      schemas = (derivation.enumComponents plan).foldl
        (fun sorted (name, schema) => Entries.putSorted name schema sorted) messages := by
  unfold componentSchemas at ended
  rw [Deriving.runFrom_bind] at ended
  split at ended
  · rename_i messages next ran
    cases ended
    exact ⟨messages, ran, rfl⟩
  · cases ended

theorem Account.componentSchemas_keeps (account : Account derivation) (all : ∀ id, account.scope id) :
    (derivation.componentSchemas plan).Meets account.Kept fun _ => True := by
  have component : ∀ entry, (derivation.componentOf entry).Meets account.Kept fun _ => True :=
    fun entry => (account.messageSchema_meets fun _ => all entry.2).map fun _ _ => trivial
  have messages : (derivation.messageComponents plan).Meets account.Kept fun _ => True := by
    rw [messageComponents_eq]
    exact (Deriving.meets_mapM fun entry _ => component entry).map fun _ _ => trivial
  exact messages.bind (fun _ _ => Deriving.meets_pure trivial) fun _ _ => trivial

/-- Where the call for every component succeeds, so do the components together. -/
theorem Account.componentSchemas_succeeds (account : Account derivation)
    (calls : ∀ entry ∈ plan.messages, entry.2 ∈ derivation.components →
      (derivation.messageSchema entry.2).Meets account.Kept fun result => ∃ answer, result = .ok answer) :
    (derivation.componentSchemas plan).Meets account.Kept fun result =>
      ∃ schemas, result = .ok schemas := by
  have component : ∀ entry ∈ plan.messages.filter fun entry => entry.2 ∈ derivation.components,
      (derivation.componentOf entry).Meets account.Kept fun result => ∃ shown, result = .ok shown := by
    intro entry member
    obtain ⟨listed, isComponent⟩ := List.mem_filter.1 member
    refine (calls entry listed (by simpa using isComponent)).map fun result ends => ?_
    obtain ⟨answer, rfl⟩ := ends
    exact ⟨_, rfl⟩
  have messages : (derivation.messageComponents plan).Meets account.Kept fun result =>
      ∃ schemas, result = .ok schemas := by
    rw [messageComponents_eq]
    refine (Deriving.meets_mapM component).map fun result sequenced => ?_
    obtain ⟨found, rfl⟩ := sequenced.exists_ok fun _ _ _ ends => ends
    exact ⟨_, rfl⟩
  refine messages.bind (fun schemas _ => Deriving.meets_pure ⟨_, rfl⟩) fun failure ends => ?_
  obtain ⟨_, impossible⟩ := ends
  cases impossible

end Derivation

end ProtoSchema
