import ProtoSchema.Proofs.ReferenceEmission

/-!
Documents with and without references. The document of a plan holds what may be pointed at, so what is
known of two derivations carries over to the documents they are written to.
-/
namespace ProtoSchema

variable {model : Model} {settings : Settings} {files : List File} {plan : Plan} {session : Session}
  {messages : List (String × Schema)} {name : String} {events : List Event} {document : Document}

/-- No two declarations have the same absolute name. -/
def Model.NamesDistinct (model : Model) : Prop :=
  (model.messages.map (·.absoluteName) ++ model.enums.map (·.absoluteName)).Nodup

/-- The settings with another wish for references. -/
def Settings.wanting (settings : Settings) (useRef : Bool) : Settings := { settings with useRef }

namespace Plan

theorem derivation_wanting (useRef : Bool) :
    plan.derivation model (settings.wanting useRef) = (plan.derivation model settings).wanting useRef :=
  rfl

theorem ListsDeclarations.enumsApart (lists : plan.ListsDeclarations model)
    (distinct : model.NamesDistinct) : plan.EnumsApart model := by
  intro name id enum listed found top member
  obtain ⟨other, same, rfl⟩ := lists.enums name id listed
  obtain ⟨⟨_, target⟩, listed, rfl⟩ := List.mem_map.1 member
  obtain ⟨message, known, clash⟩ := lists.messages _ target listed
  have inMessages : message.absoluteName ∈ model.messages.map (·.absoluteName) :=
    List.mem_map_of_mem (List.mem_of_getElem? known)
  have inEnums : other.absoluteName ∈ model.enums.map (·.absoluteName) :=
    List.mem_map_of_mem (List.mem_of_getElem? same)
  exact (List.nodup_append.1 distinct).2.2 _ inMessages _ inEnums clash.symm

/-- A document holds the schema of every message that may be pointed at in it. -/
theorem fills_document (lists : plan.ListsDeclarations model) (apart : plan.EnumsApart model)
    (made : ((plan.document model settings).runFrom events).1 = .ok document) :
    (plan.derivation model settings).Fills document := by
  intro target message component found plain
  obtain ⟨messages, session, ran, -, schemas, kept⟩ := document_ok made
  obtain ⟨other, shown, same, listed, stands, settled⟩ :=
    lists.component_of_target ran component ⟨message, found, plain⟩
  cases same.symm.trans found
  obtain ⟨-, targets, renders⟩ := Derivation.renders_of_messageSchema kept (congrArg Prod.fst settled)
  refine ⟨shown, targets, ?_, renders⟩
  rw [schemas, apart.lookup_put listed]
  exact stands

/-- Under a name the messages of a document either have the schema of the message that the plan lists
there, or nothing. -/
theorem ListsDeclarations.lookup_cases (lists : plan.ListsDeclarations model)
    (ended : ((plan.derivation model settings).messageComponents plan).runFrom {} =
      (.ok messages, session))
    (kept : (plan.derivation model settings).rendering.Kept session) (name : String) :
    (∃ id shown targets, (name, id) ∈ plan.messages ∧
        id ∈ (plan.derivation model settings).components ∧
        (plan.derivation model settings).Inlinable id ∧ messages.lookup name = some shown ∧
        (plan.derivation model settings).Renders id shown targets) ∨
      (∀ id, (name, id) ∈ plan.messages → id ∈ (plan.derivation model settings).components →
        ¬ (plan.derivation model settings).Inlinable id) ∧ messages.lookup name = none := by
  by_cases present : ∃ id, (name, id) ∈ plan.messages ∧
      id ∈ (plan.derivation model settings).components ∧
      (plan.derivation model settings).Inlinable id
  · obtain ⟨id, listed, component, inlinable⟩ := present
    obtain ⟨message, shown, found, -, stands, settled⟩ :=
      lists.component_of_target ended component inlinable
    obtain ⟨other, same, rfl⟩ := lists.messages name id listed
    cases same.symm.trans found
    obtain ⟨-, targets, renders⟩ := Derivation.renders_of_messageSchema kept (congrArg Prod.fst settled)
    exact .inl ⟨id, shown, targets, listed, component, inlinable, stands, renders⟩
  · refine .inr ⟨fun id listed component inlinable => present ⟨id, listed, component, inlinable⟩, ?_⟩
    cases found : messages.lookup name with
    | none => rfl
    | some shown =>
        obtain ⟨id, listed, component, settled⟩ :=
          Derivation.settled_of_mem_messageComponents ended (mem_of_lookup found)
        have inlinable := ((Derivation.settled_of_messageSchema settled).2 shown rfl).1
        exact absurd ⟨id, listed, component, inlinable⟩ present

theorem ListsDeclarations.unfolded_eq {a b : Bool} {one two : Document}
    (lists : plan.ListsDeclarations model) (apart : plan.EnumsApart model)
    (cycles : (plan.derivation model settings).CyclesShown)
    (first : ((plan.document model (settings.wanting a)).runFrom events).1 = .ok one)
    (second : ((plan.document model (settings.wanting b)).runFrom events).1 = .ok two)
    (name : String) (depth : Nat) :
    (one.schemas.lookup name).map (fun schema => one.unfolded depth (.inline schema)) =
      (two.schemas.lookup name).map fun schema => two.unfolded depth (.inline schema) := by
  have fillsOne := fills_document lists apart first
  have fillsTwo := fills_document lists apart second
  obtain ⟨messages, session, ran, -, schemas, kept⟩ := document_ok first
  obtain ⟨others, last, alsoRan, -, alsoSchemas, alsoKept⟩ := document_ok second
  have enums : (plan.derivation model (settings.wanting a)).enumComponents plan =
      (plan.derivation model (settings.wanting b)).enumComponents plan := rfl
  rw [schemas, alsoSchemas, Entries.lookup_foldl_putSorted, Entries.lookup_foldl_putSorted, enums]
  cases put : ((plan.derivation model (settings.wanting b)).enumComponents plan).reverse.lookup name with
  | some schema =>
      obtain ⟨_, enum, -, -, -, rfl⟩ := mem_enumComponents (List.mem_reverse.1 (mem_of_lookup put))
      have bare : (Slot.inline ((plan.derivation model (settings.wanting b)).enumSchema enum)).Within
          fun _ => False := Slot.within_inline.2 Derivation.within_enumSchema
      exact congrArg some (Document.unfolded_of_bare bare)
  | none =>
      rw [Option.none_or, Option.none_or]
      rcases lists.lookup_cases ran kept name with
        ⟨id, shown, targets, listed, component, inlinable, stands, renders⟩ | ⟨absent, nothing⟩
      · rcases lists.lookup_cases alsoRan alsoKept name with
          ⟨other, alsoShown, others, alsoListed, -, -, alsoStands, alsoRenders⟩ | ⟨absent, -⟩
        · cases (lists.ascending.lookup listed).symm.trans (lists.ascending.lookup alsoListed)
          rw [stands, alsoStands]
          exact congrArg some (Derivation.alike cycles Derivation.catalogBare_ofUnit fillsOne fillsTwo
            depth id shown alsoShown targets others inlinable renders alsoRenders)
        · exact absurd inlinable (absent id listed component)
      · rcases lists.lookup_cases alsoRan alsoKept name with
          ⟨id, _, _, listed, component, inlinable, -, -⟩ | ⟨-, alsoNothing⟩
        · exact absurd inlinable (absent id listed component)
        · rw [nothing, alsoNothing]
          rfl

/-- A document that is found with one wish for references is found with the other. -/
theorem ListsDeclarations.document_succeeds {a : Bool} (b : Bool) (lists : plan.ListsDeclarations model)
    (apart : plan.EnumsApart model) (cycles : (plan.derivation model settings).CyclesShown)
    (made : ((plan.document model (settings.wanting a)).runFrom events).1 = .ok document) :
    ∃ other, ((plan.document model (settings.wanting b)).runFrom events).1 = .ok other := by
  have fills := fills_document lists apart made
  have calls : ∀ entry ∈ plan.messages, entry.2 ∈ (plan.derivation model settings).components →
      (((plan.derivation model settings).wanting b).messageSchema entry.2).Meets
        (Derivation.followed cycles fills b).Kept fun result => ∃ answer, result = .ok answer := by
    intro entry listed component
    have scope : ((plan.derivation model settings).wanting b).Inlinable entry.2 →
        (Derivation.followed cycles fills b).scope entry.2 := by
      rintro ⟨message, found, plain⟩
      obtain ⟨shown, targets, -, renders⟩ := fills entry.2 message component found plain
      exact ⟨shown, targets, renders⟩
    refine ((Derivation.followed cycles fills b).messageSchema_meets scope).mono fun answer tells => ?_
    cases tells with
    | schema _ ends =>
        obtain ⟨schema, _, rfl, -⟩ := ends
        exact ⟨_, rfl⟩
    | nothing _ => exact ⟨_, rfl⟩
  obtain ⟨schemas, ends⟩ :=
    ((Derivation.followed cycles fills b).componentSchemas_succeeds calls {} Session.holds_start).1
  rw [document_runFrom, derivation_wanting, ends]
  exact ⟨_, rfl⟩

theorem write_succeeds_iff :
    (∃ output, ((plan.write model settings).runFrom events).1 = .ok output) ↔
      ∃ document, ((plan.document model settings).runFrom events).1 = .ok document := by
  rw [write_runFrom]
  constructor
  · rintro ⟨output, written⟩
    obtain ⟨document, made, -⟩ := exists_of_map_ok written
    exact ⟨document, made⟩
  · rintro ⟨document, made⟩
    rw [made]
    exact ⟨_, rfl⟩

/-- Where every message that leads back to itself is a top-level message of the plan, and no field on the
way back carries directives, references change neither whether a document is written nor what its
components mean. -/
theorem references_keep_meaning (distinct : model.NamesDistinct)
    (planned : plan ∈ Plan.all model settings files)
    (cycles : (plan.derivation model settings).CyclesShown) :
    ((∃ output, ((plan.write model (settings.wanting true)).runFrom events).1 = .ok output) ↔
      ∃ output, ((plan.write model (settings.wanting false)).runFrom events).1 = .ok output) ∧
    ∀ pointing written,
      ((plan.document model (settings.wanting true)).runFrom events).1 = .ok pointing →
      ((plan.document model (settings.wanting false)).runFrom events).1 = .ok written →
      ∀ name depth,
        (pointing.schemas.lookup name).map (fun schema => pointing.unfolded depth (.inline schema)) =
          (written.schemas.lookup name).map fun schema => written.unfolded depth (.inline schema) := by
  have lists := listsDeclarations_of_mem_all planned
  have apart := lists.enumsApart distinct
  refine ⟨?_, fun pointing written first second name depth =>
    lists.unfolded_eq apart cycles first second name depth⟩
  rw [write_succeeds_iff, write_succeeds_iff]
  constructor
  · rintro ⟨document, made⟩
    exact lists.document_succeeds false apart cycles made
  · rintro ⟨document, made⟩
    exact lists.document_succeeds true apart cycles made

theorem references_keep_meaning_tree :
    ∃ pointing written,
      (((singleFile Model.tree Model.tree.files).document Model.tree
        (({ grouping := .singleFile } : Settings).wanting true)).runFrom []).1 = .ok pointing ∧
      (((singleFile Model.tree Model.tree.files).document Model.tree
        (({ grouping := .singleFile } : Settings).wanting false)).runFrom []).1 = .ok written ∧
      ∀ name depth,
        (pointing.schemas.lookup name).map (fun schema => pointing.unfolded depth (.inline schema)) =
          (written.schemas.lookup name).map fun schema => written.unfolded depth (.inline schema) := by
  have distinct : Model.tree.NamesDistinct := by
    unfold Model.NamesDistinct
    decide +kernel
  have planned : singleFile Model.tree Model.tree.files ∈
      Plan.all Model.tree { grouping := .singleFile } Model.tree.files := List.mem_singleton_self _
  have cycles : ((singleFile Model.tree Model.tree.files).derivation Model.tree
      { grouping := .singleFile }).CyclesShown :=
    Derivation.cyclesShown_of_all (by decide +kernel) (by decide +kernel)
  obtain ⟨pointing, first⟩ := exists_of_isOk
    (show (((singleFile Model.tree Model.tree.files).document Model.tree
      (({ grouping := .singleFile } : Settings).wanting true)).runFrom []).1.isOk = true by decide +kernel)
  obtain ⟨written, second⟩ := exists_of_isOk
    (show (((singleFile Model.tree Model.tree.files).document Model.tree
      (({ grouping := .singleFile } : Settings).wanting false)).runFrom []).1.isOk = true by decide +kernel)
  exact ⟨pointing, written, first, second,
    (references_keep_meaning distinct planned cycles).2 pointing written first second⟩

end Plan

end ProtoSchema
