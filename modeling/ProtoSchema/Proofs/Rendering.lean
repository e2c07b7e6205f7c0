import ProtoSchema.Proofs.Account

/-!
What derived schemas look like, without the session they were derived in. `Renders id schema targets`
says that `schema` shows the message `id`, and that the references put into it were put there for the
messages `targets`. Every schema of a derivation renders its message, however it got there.
-/
namespace ProtoSchema.Derivation

open Relation

mutual

inductive Renders (derivation : Derivation) : Nat → Schema → List Nat → Prop
  | body {id : Nat} {message : Message} {own : Schema} {properties : List Property}
      {targets : List Nat} :
      derivation.model.message? id = some message → derivation.objectOf message = .ok own →
      RendersFields derivation id message.absoluteName message.fields properties targets →
      Renders derivation id (derivation.assemble message own properties) targets

inductive RendersFields (derivation : Derivation) :
    Nat → String → List Field → List Property → List Nat → Prop
  | nil {id : Nat} {owner : String} : RendersFields derivation id owner [] [] []
  | cons {id : Nat} {owner : String} {field : Field} {outline : Outline} {slot : Slot Schema}
      {property : Property} {fields : List Field} {properties : List Property}
      {targets others : List Nat} :
      derivation.fieldOutline owner field = .ok outline →
      Stands derivation id outline.content slot targets →
      derivation.completed owner field outline slot = .ok property →
      RendersFields derivation id owner fields properties others →
      RendersFields derivation id owner (field :: fields) (property :: properties) (targets ++ others)

/-- What stands for the content of a field of a message. A message is pointed at or left open only
where the settings ask for it or where the field leads back to it. -/
inductive Stands (derivation : Derivation) : Nat → Content → Slot Schema → List Nat → Prop
  | written {owner : Nat} {schema : Schema} :
      Stands derivation owner (.written schema) (.inline schema) []
  | pointed {owner target : Nat} {message : Message} :
      target ∈ derivation.components → derivation.model.message? target = some message →
      message.mapEntry = false →
      derivation.settings.useRef = true ∨ ReflTransGen derivation.Names target owner →
      Stands derivation owner (.message target true) (.component message.absoluteName) [target]
  | wrapped {owner target : Nat} {message : Message} :
      target ∈ derivation.components → derivation.model.message? target = some message →
      message.mapEntry = false →
      ReflTransGen derivation.Names target owner →
      Stands derivation owner (.message target false)
        (.inline { Schema.object with allOf := [.component message.absoluteName] }) [target]
  | opened {owner target : Nat} {referenceAllowed : Bool} :
      target ∉ derivation.components → ReflTransGen derivation.Names target owner →
      Stands derivation owner (.message target referenceAllowed) (.inline .openObject) []
  | inlined {owner target : Nat} {referenceAllowed : Bool} {body : Schema} {targets : List Nat} :
      Renders derivation target body targets →
      Stands derivation owner (.message target referenceAllowed) (.inline body) targets

end

variable {derivation : Derivation}

theorem stands_returnSlot {owner id : Nat} {message : Message} (referenceAllowed : Bool)
    (found : derivation.model.message? id = some message) (plain : message.mapEntry = false)
    (back : ReflTransGen derivation.Names id owner) :
    ∃ targets, derivation.Stands owner (.message id referenceAllowed)
      (derivation.returnSlot id message.absoluteName referenceAllowed) targets := by
  unfold returnSlot
  split
  · rename_i component
    cases referenceAllowed with
    | true => exact ⟨[id], .pointed component found plain (.inr back)⟩
    | false => exact ⟨[id], .wrapped component found plain back⟩
  · rename_i nested
    exact ⟨[], .opened nested back⟩

/-- An answer that stands for the message if it is one. -/
def Standing (derivation : Derivation) (owner : Nat) : Answer := fun id referenceAllowed result =>
  ∀ slot, result = .ok slot →
    ∃ targets, derivation.Stands owner (.message id referenceAllowed) slot targets

theorem Content.AnsweredBy.stands {owner : Nat} {content : Content} {slot : Slot Schema}
    (answered : content.AnsweredBy (derivation.Standing owner) (.ok slot)) :
    ∃ targets, derivation.Stands owner content slot targets := by
  cases content with
  | written schema =>
      cases answered
      exact ⟨[], .written⟩
  | message target referenceAllowed => exact answered slot rfl

theorem rendersFields_of_sequenced {id : Nat} {owner : String} {fields : List Field}
    {properties : List Property}
    (sequenced : List.Forall₂
      (fun field property => derivation.PropertyFrom (derivation.Standing id) owner field (.ok property))
      fields properties) :
    ∃ targets, derivation.RendersFields id owner fields properties targets := by
  -- The targets of the whole are those of its fields, in their order.
  induction sequenced with
  | nil => exact ⟨[], .nil⟩
  | @cons field property fields properties first _ ih =>
      obtain ⟨others, rest⟩ := ih
      rcases propertyFrom_iff.1 first with
        ⟨failure, -, same⟩ | ⟨outline, result, outlined, answered, same⟩
      · cases same
      · obtain ⟨slot, rfl, completed⟩ := exists_of_bind_ok same.symm
        obtain ⟨targets, stands⟩ := answered.stands
        exact ⟨targets ++ others, .cons outlined stands completed rest⟩

theorem renders_of_bodyFrom {id : Nat} {message : Message} {schema : Schema}
    (found : derivation.model.message? id = some message)
    (body : derivation.BodyFrom (derivation.Standing id) message (.ok schema)) :
    ∃ targets, derivation.Renders id schema targets := by
  rcases bodyFrom_iff.1 body with ⟨failure, -, same⟩ | ⟨own, result, owned, sequenced, same⟩
  · cases same
  · obtain ⟨properties, rfl, rfl⟩ := exists_of_map_ok same.symm
    obtain ⟨targets, fields⟩ := rendersFields_of_sequenced sequenced.forall₂
    exact ⟨targets, .body found owned fields⟩

def rendering (derivation : Derivation) : Account derivation where
  scope _ := True
  body id result := ∀ schema, result = .ok schema → ∃ targets, derivation.Renders id schema targets
  answer := derivation.Standing
  closed _ _ _ _ := trivial
  derives _ found _ body schema same := renders_of_bodyFrom found (same ▸ body)
  inlines _ ends slot same := by
    obtain ⟨schema, rfl, rfl⟩ := exists_of_map_ok same
    obtain ⟨targets, renders⟩ := ends schema rfl
    exact ⟨targets, .inlined renders⟩
  points _ found plain component useRef slot same := by
    cases same
    exact ⟨_, .pointed component found plain (.inl useRef)⟩
  returns _ found plain _ back slot same := by
    cases same
    exact stands_returnSlot _ found plain back

theorem renders_of_messageSchema {id : Nat} {schema : Schema} {session : Session}
    (kept : derivation.rendering.Kept session)
    (ended : ((derivation.messageSchema id).runFrom session).1 = .ok (some schema)) :
    derivation.Inlinable id ∧ ∃ targets, derivation.Renders id schema targets := by
  have called : (derivation.messageSchema id).Meets derivation.rendering.Kept
      (derivation.rendering.Tells id) := derivation.rendering.messageSchema_meets fun _ => trivial
  have tells := (called session kept).1
  rw [ended] at tells
  generalize answered : Except.ok (some schema) = answer at tells
  cases tells with
  | @schema result inlinable renders =>
      obtain ⟨body, rfl, same⟩ := exists_of_map_ok answered.symm
      cases same
      exact ⟨inlinable, renders schema rfl⟩
  | nothing outside => cases answered

/-- A call that follows any others in one session renders its message as well. -/
theorem renders_of_call {id : Nat} {schema : Schema} {calls : List Nat}
    (ended : ((derivation.messageSchema id).runFrom (derivation.answers calls {}).2).1 =
      .ok (some schema)) :
    derivation.Inlinable id ∧ ∃ targets, derivation.Renders id schema targets :=
  renders_of_messageSchema
    (derivation.rendering.answers_meet (fun _ => trivial) calls Session.holds_start).2 ended

theorem Renders.exists_fields {id : Nat} {schema : Schema} {targets : List Nat}
    (renders : derivation.Renders id schema targets) :
    ∃ message own properties, derivation.model.message? id = some message ∧
      derivation.objectOf message = .ok own ∧
      derivation.RendersFields id message.absoluteName message.fields properties targets ∧
      schema = derivation.assemble message own properties := by
  cases renders with
  | @body _ message own properties _ found owned fields =>
      exact ⟨message, own, properties, found, owned, fields, rfl⟩

section

variable {id : Nat} {owner : String} {fields : List Field} {properties : List Property}
  {targets : List Nat} (renders : derivation.RendersFields id owner fields properties targets)

include renders

theorem RendersFields.exists_property {field : Field} (member : field ∈ fields) :
    ∃ outline slot inner property, derivation.fieldOutline owner field = .ok outline ∧
      derivation.Stands id outline.content slot inner ∧
      derivation.completed owner field outline slot = .ok property ∧ property ∈ properties := by
  induction fields generalizing properties targets with
  | nil => cases member
  | cons first rest ih =>
      cases renders with
      | cons outlined stands ended later =>
          rcases List.mem_cons.1 member with rfl | further
          · exact ⟨_, _, _, _, outlined, stands, ended, List.mem_cons_self⟩
          · obtain ⟨outline, slot, inner, property, shown, under, complete, listed⟩ := ih later further
            exact ⟨outline, slot, inner, property, shown, under, complete,
              List.mem_cons_of_mem _ listed⟩

theorem RendersFields.names_eq : properties.map (·.name) = fields.map (·.wireName) := by
  induction fields generalizing properties targets with
  | nil => cases renders; rfl
  | cons first rest ih =>
      cases renders with
      | cons _ _ ended later =>
          rw [List.map_cons, List.map_cons, name_of_completed ended, ih later]

end

end ProtoSchema.Derivation
