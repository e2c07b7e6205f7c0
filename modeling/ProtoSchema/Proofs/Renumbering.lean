import ProtoSchema.Proofs.Account
import ProtoSchema.Proofs.Carrying
import ProtoSchema.Proofs.Redescribing

/-!
Declarations under other numbers. Where one derivation works with the declarations of another under
other numbers, and tells descriptions anew, it derives the same schemas with the descriptions told anew:
numbers decide what is the same message, and nothing else.
-/
namespace ProtoSchema

/-- Other numbers for files, messages and enums. Messages that differ keep different numbers. -/
structure Renumbering where
  file : Nat → Nat
  message : Nat → Nat
  enum : Nat → Nat
  injective : Function.Injective message

def Renumbering.same : Renumbering where
  file := id
  message := id
  enum := id
  injective := Function.injective_id

def TypeLink.renumbered (numbers : Renumbering) : TypeLink → TypeLink
  | .message id => .message (numbers.message id)
  | .enum id => .enum (numbers.enum id)

def Field.renumbered (numbers : Renumbering) (field : Field) : Field :=
  { field with link := field.link.map (TypeLink.renumbered numbers) }

def Declaration.renumbered (numbers : Renumbering) (declaration : Declaration) : Declaration :=
  { declaration with
    file := numbers.file declaration.file
    parent := declaration.parent.map numbers.message }

def Message.renumbered (numbers : Renumbering) (message : Message) : Message :=
  { message with
    toDeclaration := message.toDeclaration.renumbered numbers
    fields := message.fields.map (Field.renumbered numbers) }

def Enum.renumbered (numbers : Renumbering) (enum : Enum) : Enum :=
  { enum with toDeclaration := enum.toDeclaration.renumbered numbers }

section

variable {numbers : Renumbering}

theorem Field.renumbered_same (field : Field) : field.renumbered .same = field := by
  have linked (link : TypeLink) : link.renumbered .same = link := by cases link <;> rfl
  unfold Field.renumbered
  rw [Option.map_congr fun link _ => linked link, Option.map_id']

theorem Declaration.renumbered_same (declaration : Declaration) :
    declaration.renumbered .same = declaration := by
  unfold Declaration.renumbered
  rw [Renumbering.same, Option.map_id_fun]
  rfl

theorem Message.renumbered_same (message : Message) : message.renumbered .same = message := by
  unfold Message.renumbered
  rw [Declaration.renumbered_same, List.map_congr_left fun field _ => Field.renumbered_same field,
    List.map_id']

theorem Enum.renumbered_same (enum : Enum) : enum.renumbered .same = enum := by
  unfold Enum.renumbered
  rw [Declaration.renumbered_same]

@[simp] theorem Message.absoluteName_renumbered (message : Message) :
    (message.renumbered numbers).absoluteName = message.absoluteName := rfl

@[simp] theorem Enum.absoluteName_renumbered (enum : Enum) :
    (enum.renumbered numbers).absoluteName = enum.absoluteName := rfl

theorem Message.exclusiveGroups_renumbered (message : Message) :
    (message.renumbered numbers).exclusiveGroups = message.exclusiveGroups := by
  unfold Message.exclusiveGroups Message.renumbered
  rw [List.filterMap_map]
  rfl

end

/-- The declarations of `one` are those of `two` under other numbers; `two` may have more. -/
structure Model.Embeds (numbers : Renumbering) (one two : Model) : Prop where
  message (id : Nat) :
    two.message? (numbers.message id) = (one.message? id).map (Message.renumbered numbers)
  enum (id : Nat) : two.enum? (numbers.enum id) = (one.enum? id).map (Enum.renumbered numbers)

theorem Model.Embeds.refl (model : Model) : model.Embeds .same model where
  message id := by
    rw [Option.map_congr fun message _ => Message.renumbered_same message, Option.map_id']
    rfl
  enum id := by
    rw [Option.map_congr fun enum _ => Enum.renumbered_same enum, Option.map_id']
    rfl

/-- The session with its messages under other numbers and its schemas with descriptions told anew. -/
def Session.renumbered (tell : String → String) (numbers : Renumbering) (session : Session) : Session where
  finished := session.finished.map fun (id, schema) => (numbers.message id, schema.redescribed tell)
  events := session.events

namespace Derivation

/-- The derivation `two` works with the declarations of `one` under other numbers, and reads the same
from their comments, but for descriptions, which are told anew. -/
structure Mirrors (tell : String → String) (numbers : Renumbering) (one two : Derivation) : Prop where
  silent : tell "" = ""
  embeds : one.model.Embeds numbers two.model
  registry : two.registry = one.registry
  catalog : two.catalog = one.catalog
  listed (name : String) (schema : Schema) :
    one.catalog.find? name = some schema → schema.redescribed tell = schema
  components (id : Nat) : numbers.message id ∈ two.components ↔ id ∈ one.components
  useRef : two.settings.useRef = one.settings.useRef
  nativeIntegers : two.settings.nativeIntegers = one.settings.nativeIntegers
  enumAsIntOrString : two.settings.enumAsIntOrString = one.settings.enumAsIntOrString
  protoOneof : two.settings.protoOneof = one.settings.protoOneof
  comments (comment : String) :
    two.settings.readComment comment =
      { one.settings.readComment comment with
        description := tell (one.settings.readComment comment).description }

variable {tell : String → String} {numbers : Renumbering} {one two : Derivation}

theorem Mirrors.message_of_found {id : Nat} {message : Message} (mirrors : one.Mirrors tell numbers two)
    (found : one.model.message? id = some message) :
    two.model.message? (numbers.message id) = some (message.renumbered numbers) := by
  rw [mirrors.embeds.message, found]
  rfl

theorem Mirrors.inlinable_iff {id : Nat} (mirrors : one.Mirrors tell numbers two) :
    two.Inlinable (numbers.message id) ↔ one.Inlinable id := by
  constructor
  · rintro ⟨other, shown, plain⟩
    rw [mirrors.embeds.message] at shown
    obtain ⟨message, found, rfl⟩ := Option.map_eq_some_iff.1 shown
    exact ⟨message, found, plain⟩
  · rintro ⟨message, found, plain⟩
    exact ⟨_, mirrors.message_of_found found, plain⟩

theorem Mirrors.pointed_iff {id : Nat} {referenceAllowed : Bool}
    (mirrors : one.Mirrors tell numbers two) :
    (referenceAllowed ∧ numbers.message id ∈ two.components ∧ two.settings.useRef) ↔
      (referenceAllowed ∧ id ∈ one.components ∧ one.settings.useRef) := by
  rw [mirrors.components, mirrors.useRef]

theorem guilty_map {α β : Type} (declaration : String) (change : α → β)
    (result : Except DirectiveError α) :
    guilty declaration (result.map change) = (guilty declaration result).map change := by
  cases result <;> rfl

def DeclaredType.renumbered {model other : Model} (embeds : model.Embeds numbers other) :
    DeclaredType model → DeclaredType other
  | .scalar schema => .scalar schema
  | .enum declared => .enum (declared.renumbered numbers)
  | .message id declared found =>
    .message (numbers.message id) (declared.renumbered numbers) (by rw [embeds.message, found]; rfl)

def Content.renumbered (tell : String → String) (numbers : Renumbering) : Content → Content
  | .written schema => .written (schema.redescribed tell)
  | .message id referenceAllowed => .message (numbers.message id) referenceAllowed

def Outline.renumbered (tell : String → String) (numbers : Renumbering) (outline : Outline) : Outline where
  required := outline.required
  frame := outline.frame.redescribed tell
  content := outline.content.renumbered tell numbers

theorem carries_report (event : Event) :
    Carries (Session.renumbered tell numbers) id (Deriving.report event) (Deriving.report event) :=
  fun _ => rfl

theorem lookup_renumbered (finished : List (Nat × Schema)) (id : Nat) :
    (finished.map fun (id, schema) => (numbers.message id, schema.redescribed tell)).lookup
        (numbers.message id) = (finished.lookup id).map (Schema.redescribed tell) := by
  induction finished with
  | nil => rfl
  | cons entry rest ih =>
      obtain ⟨known, schema⟩ := entry
      rw [List.map_cons, List.lookup_cons, List.lookup_cons]
      by_cases here : id = known
      · rw [here, beq_self_eq_true, beq_self_eq_true]
        rfl
      · rw [beq_eq_false_iff_ne.2 here, beq_eq_false_iff_ne.2 (numbers.injective.ne here)]
        exact ih

theorem carries_once {id : Nat} {derive follow : Deriving Schema}
    (derives : Carries (Session.renumbered tell numbers) (Schema.redescribed tell) derive follow) :
    Carries (Session.renumbered tell numbers) (Schema.redescribed tell) (Deriving.once id derive)
      (Deriving.once (numbers.message id) follow) := by
  intro session
  change (Deriving.once (numbers.message id) follow).runFrom (session.renumbered tell numbers) =
    (((Deriving.once id derive).runFrom session).1.map (Schema.redescribed tell),
      ((Deriving.once id derive).runFrom session).2.renumbered tell numbers)
  have ran : follow.runFrom (session.renumbered tell numbers) = _ := derives session
  change _ = ((derive.runFrom session).1.map (Schema.redescribed tell),
    (derive.runFrom session).2.renumbered tell numbers) at ran
  have kept : (session.renumbered tell numbers).finished.lookup (numbers.message id) =
      (session.finished.lookup id).map (Schema.redescribed tell) := lookup_renumbered _ _
  rw [Deriving.runFrom_once, Deriving.runFrom_once, kept, ran]
  cases session.finished.lookup id with
  | some schema => rfl
  | none => rcases derive.runFrom session with ⟨failure | schema, after⟩ <;> rfl

section

variable (mirrors : one.Mirrors tell numbers two)

include mirrors

theorem enumSchema_renumbered (enum : Enum) :
    two.enumSchema (enum.renumbered numbers) = (one.enumSchema enum).redescribed tell := by
  have string : Schema.string.redescribed tell = Schema.string :=
    Schema.redescribed_of_bare mirrors.silent rfl rfl
  have comment : (enum.renumbered numbers).comment = enum.comment := rfl
  unfold enumSchema
  rw [comment, mirrors.comments, mirrors.enumAsIntOrString]
  dsimp only
  split
  · rw [Schema.redescribed_withExtension, Schema.redescribed_describedAs, string]
  · rw [Schema.redescribed_withAllowed, Schema.redescribed_describedAs, string]
    rfl

theorem objectOf_renumbered (message : Message) :
    two.objectOf (message.renumbered numbers) =
      (one.objectOf message).map (Schema.redescribed tell) := by
  have object : Schema.object.redescribed tell = Schema.object :=
    Schema.redescribed_of_bare mirrors.silent rfl rfl
  have comment : (message.renumbered numbers).comment = message.comment := rfl
  unfold objectOf
  rw [comment, mirrors.comments, mirrors.registry]
  dsimp only
  rw [← guilty_map, ← Registry.applyAll_redescribed, Schema.redescribed_describedAs, object]
  rfl

/-! ## Fields -/

theorem declaredType_renumbered (declaration : String) (field : Field) :
    two.declaredType declaration (field.renumbered numbers) =
      (one.declaredType declaration field).map (DeclaredType.renumbered mirrors.embeds) := by
  have kind : (field.renumbered numbers).kind = field.kind := rfl
  have link : (field.renumbered numbers).link = field.link.map (TypeLink.renumbered numbers) := rfl
  unfold declaredType
  rw [mirrors.nativeIntegers, kind, link]
  cases scalar : field.kind.scalar? one.settings.nativeIntegers with
  | some schema => rfl
  | none =>
      -- What is left names a type: an enum, or a message in one of two ways.
      rcases FieldKind.namesType_of_scalar?_none scalar with named | named | named
      all_goals
        rw [named]
        rcases field.link with _ | target | target
        all_goals try rfl
      · simp only [Option.map_some, TypeLink.renumbered, mirrors.embeds.enum target]
        cases one.model.enum? target <;> rfl
      all_goals
        have embedded := mirrors.embeds.message target
        dsimp only [Option.map_some, TypeLink.renumbered]
        split <;> split <;> rename_i other <;> simp_all [Except.map, DeclaredType.renumbered]

theorem exists_declaredType_renumbered {declaration : String} {field : Field} {id : Nat}
    {message : Message} {found : one.model.message? id = some message}
    (named : one.declaredType declaration field = .ok (.message id message found)) :
    ∃ present, two.declaredType declaration (field.renumbered numbers) =
      .ok (.message (numbers.message id) (message.renumbered numbers) present) :=
  ⟨_, by rw [declaredType_renumbered mirrors, named]; rfl⟩

theorem typeOutline_renumbered (maps : List Nat) (declaration description : String)
    (referenceAllowed : Bool) (field : Field) :
    two.typeOutline (maps.map numbers.message) declaration (tell description) referenceAllowed
        (field.renumbered numbers) =
      (one.typeOutline maps declaration description referenceAllowed field).map fun outline =>
        (outline.1.redescribed tell, outline.2.renumbered tell numbers) := by
  have declared := declaredType_renumbered mirrors
  have catalog (name : String) : two.catalog.find? name = one.catalog.find? name := by
    rw [mirrors.catalog]
  fun_induction typeOutline one maps declaration description referenceAllowed field with
  | case1 maps declaration description referenceAllowed field failure unresolved =>
      rw [typeOutline, declared, unresolved]
      rfl
  | case2 maps declaration description referenceAllowed field schema scalar =>
      have same := redescribed_of_scalar? mirrors.silent (scalar?_of_declaredType scalar)
      rw [typeOutline, declared, scalar]
      simp only [Except.map, DeclaredType.renumbered, Frame.redescribed, Content.renumbered, same]
      rfl
  | case3 maps declaration description referenceAllowed field enum named =>
      rw [typeOutline, declared, named]
      simp only [Except.map, DeclaredType.renumbered, Frame.redescribed, Content.renumbered,
        enumSchema_renumbered mirrors]
      rfl
  | case4 maps declaration description referenceAllowed field id message found named schema listed =>
      obtain ⟨present, shown⟩ := exists_declaredType_renumbered mirrors named
      rw [typeOutline, shown]
      simp only [catalog, Message.absoluteName_renumbered, listed, Except.map, Frame.redescribed,
        Content.renumbered, mirrors.listed _ _ listed]
      rfl
  | case5 maps declaration description referenceAllowed field id message found named unlisted entry
      missing =>
      obtain ⟨present, shown⟩ := exists_declaredType_renumbered mirrors named
      have none : (message.renumbered numbers).fields[1]? = none := by
        simp [Message.renumbered, missing]
      rw [typeOutline, shown]
      simp only [catalog, Message.absoluteName_renumbered, unlisted, none]
      exact if_pos entry
  | case6 maps declaration description referenceAllowed field id message found named unlisted entry
      value second visited =>
      obtain ⟨present, shown⟩ := exists_declaredType_renumbered mirrors named
      have likewise : (message.renumbered numbers).fields[1]? = some (value.renumbered numbers) := by
        simp [Message.renumbered, second]
      have again : numbers.message id ∈ maps.map numbers.message := List.mem_map_of_mem visited
      rw [typeOutline, shown]
      simp only [catalog, Message.absoluteName_renumbered, unlisted, likewise, dif_pos again]
      exact if_pos entry
  | case7 maps declaration description referenceAllowed field id message found named unlisted entry
      value second fresh _ reading ih =>
      obtain ⟨present, shown⟩ := exists_declaredType_renumbered mirrors named
      have likewise : (message.renumbered numbers).fields[1]? = some (value.renumbered numbers) := by
        simp [Message.renumbered, second]
      have apart : numbers.message id ∉ maps.map numbers.message :=
        mt (List.mem_map_of_injective numbers.injective).1 fresh
      have comment : (value.renumbered numbers).comment = value.comment := rfl
      rw [typeOutline.eq_def two, shown]
      simp only [catalog, Message.absoluteName_renumbered, unlisted, likewise, dif_neg apart, comment,
        mirrors.comments]
      rw [if_pos (show (message.renumbered numbers).mapEntry = true from entry)]
      refine (congrArg _ ih).trans ?_
      cases one.typeOutline (id :: maps) (declaration ++ "." ++ value.name) reading.description true
        value <;> rfl
  | case8 maps declaration description referenceAllowed field id message found named unlisted plain =>
      obtain ⟨present, shown⟩ := exists_declaredType_renumbered mirrors named
      rw [typeOutline, shown]
      simp only [catalog, Message.absoluteName_renumbered, unlisted]
      exact if_neg plain

theorem fieldOutline_renumbered (owner : String) (field : Field) :
    two.fieldOutline owner (field.renumbered numbers) =
      (one.fieldOutline owner field).map (Outline.renumbered tell numbers) := by
  have comment : (field.renumbered numbers).comment = field.comment := rfl
  have name : (field.renumbered numbers).name = field.name := rfl
  unfold fieldOutline
  rw [comment, name, mirrors.registry, mirrors.comments]
  cases one.settings.readComment field.comment with
  | mk description directives =>
      simp only
      cases guilty (owner ++ "." ++ field.name) (one.registry.isRequired directives) with
      | error failure => rfl
      | ok required =>
          cases guilty (owner ++ "." ++ field.name) (one.registry.typeOverride? .field directives) with
          | error failure => rfl
          | ok override =>
              cases override with
              | some override =>
                  have same := redescribed_overriding mirrors.silent override
                  exact congrArg (fun schema => Except.ok (Outline.mk required
                    (.field field.repeated (tell description)) (.written schema))) same.symm
              | none =>
                  have typed := typeOutline_renumbered mirrors [] (owner ++ "." ++ field.name)
                    description directives.isEmpty field
                  simp only [bind, Except.bind, List.map_nil] at typed ⊢
                  rw [typed]
                  cases one.typeOutline [] (owner ++ "." ++ field.name) description directives.isEmpty
                    field <;> rfl

theorem completed_renumbered (owner : String) (field : Field) (outline : Outline) (slot : Slot Schema) :
    two.completed owner (field.renumbered numbers) (outline.renumbered tell numbers)
        (slot.redescribed tell) =
      (one.completed owner field outline slot).map (Property.redescribed tell) := by
  have comment : (field.renumbered numbers).comment = field.comment := rfl
  have name : (field.renumbered numbers).name = field.name := rfl
  have framed : (outline.renumbered tell numbers).frame.around (slot.redescribed tell) =
      (outline.frame.around slot).redescribed tell :=
    outline.frame.around_redescribed mirrors.silent
  unfold completed
  rw [comment, name, mirrors.comments, framed]
  dsimp only
  rw [applyToSlot_redescribed mirrors.registry, guilty_map]
  cases guilty (owner ++ "." ++ field.name)
    (one.applyToSlot (one.settings.readComment field.comment).directives (outline.frame.around slot)) <;> rfl

/-! ## Messages -/

variable {resolve follow : Resolver}

theorem property_renumbered
    (resolves : ∀ id referenceAllowed, Carries (Session.renumbered tell numbers) (Slot.redescribed tell)
      (resolve id referenceAllowed) (follow (numbers.message id) referenceAllowed))
    (owner : String) (field : Field) :
    Carries (Session.renumbered tell numbers) (Property.redescribed tell)
      (one.property resolve owner field) (two.property follow owner (field.renumbered numbers)) := by
  rw [property_eq, property_eq, fieldOutline_renumbered mirrors]
  cases one.fieldOutline owner field with
  | error failure => exact .throw failure
  | ok outline =>
      have content : Carries (Session.renumbered tell numbers) (Slot.redescribed tell)
          (outline.content.resolvedBy resolve)
          ((outline.content.renumbered tell numbers).resolvedBy follow) := by
        cases outline.content with
        | written schema => exact .pure rfl
        | message id referenceAllowed => exact resolves id referenceAllowed
      refine content.bind fun slot => ?_
      rw [completed_renumbered mirrors]
      exact .lift _

theorem messageBody_renumbered
    (resolves : ∀ id referenceAllowed, Carries (Session.renumbered tell numbers) (Slot.redescribed tell)
      (resolve id referenceAllowed) (follow (numbers.message id) referenceAllowed))
    (message : Message) :
    Carries (Session.renumbered tell numbers) (Schema.redescribed tell) (one.messageBody resolve message)
      (two.messageBody follow (message.renumbered numbers)) := by
  have fields : Carries (Session.renumbered tell numbers) (List.map (Property.redescribed tell))
      (message.fields.mapM (one.property resolve message.absoluteName))
      ((message.renumbered numbers).fields.mapM (two.property follow message.absoluteName)) :=
    Carries.mapM fun field _ => property_renumbered mirrors resolves message.absoluteName field
  unfold messageBody
  rw [objectOf_renumbered mirrors]
  refine (Carries.lift (one.objectOf message)).bind fun own => fields.bind fun properties => ?_
  have whole : two.assemble (message.renumbered numbers) (own.redescribed tell)
      (properties.map (Property.redescribed tell)) =
        (one.assemble message own properties).redescribed tell := by
    rw [← assemble_redescribed mirrors.silent, assemble_eq, assemble_eq, mirrors.protoOneof,
      message.exclusiveGroups_renumbered]
  dsimp only
  rw [whole, Schema.length_properties_redescribed]
  exact (carries_report _).bind fun _ => .pure rfl

theorem recursionSlot_renumbered (id : Nat) (name : String) (referenceAllowed : Bool) :
    Carries (Session.renumbered tell numbers) (Slot.redescribed tell)
      (one.recursionSlot id name referenceAllowed)
      (two.recursionSlot (numbers.message id) name referenceAllowed) := by
  have pointing : ({ Schema.object with allOf := [Slot.component name] } : Schema).redescribed tell =
      { Schema.object with allOf := [Slot.component name] } :=
    Schema.redescribed_of_slots mirrors.silent rfl fun slot member => by
      rw [List.mem_singleton.1 member]
      rfl
  have opened : Schema.openObject.redescribed tell = Schema.openObject :=
    Schema.redescribed_of_bare mirrors.silent rfl rfl
  unfold recursionSlot
  by_cases component : id ∈ one.components
  · rw [if_pos component, if_pos ((mirrors.components id).2 component)]
    refine (carries_report _).bind fun _ => ?_
    cases referenceAllowed with
    | true => exact .pure rfl
    | false => exact .pure (congrArg Slot.inline pointing)
  · rw [if_neg component, if_neg (mt (mirrors.components id).1 component)]
    exact (carries_report _).bind fun _ => .pure (congrArg Slot.inline opened)

/-- What stands for a message does not depend on its number. -/
theorem messageSlot_renumbered (active : List Nat) (id : Nat) (referenceAllowed : Bool) :
    Carries (Session.renumbered tell numbers) (Slot.redescribed tell)
      (one.messageSlot active id referenceAllowed)
      (two.messageSlot (active.map numbers.message) (numbers.message id) referenceAllowed) := by
  fun_induction messageSlot one active id referenceAllowed with
  | case1 active id referenceAllowed missing =>
      have absent : two.model.message? (numbers.message id) = none := by
        rw [mirrors.embeds.message, missing]
        rfl
      rw [messageSlot]
      split
      · exact .pure (congrArg Slot.inline (Schema.redescribed_of_bare mirrors.silent rfl rfl))
      · rename_i other found
        cases absent.symm.trans found
  | case2 active id referenceAllowed message found pointed =>
      rw [messageSlot_eq (mirrors.message_of_found found), if_pos (mirrors.pointed_iff.2 pointed)]
      exact .pure rfl
  | case3 active id referenceAllowed message found apart entered =>
      rw [messageSlot_eq (mirrors.message_of_found found), if_neg (mt mirrors.pointed_iff.1 apart),
        if_pos (List.mem_map_of_mem entered)]
      exact recursionSlot_renumbered mirrors id message.absoluteName referenceAllowed
  | case4 active id referenceAllowed message found apart entered _ ih =>
      rw [messageSlot_eq (mirrors.message_of_found found), if_neg (mt mirrors.pointed_iff.1 apart),
        if_neg (mt (List.mem_map_of_injective numbers.injective).1 entered)]
      exact (carries_once (messageBody_renumbered mirrors ih message)).map fun _ => rfl

theorem messageSchema_renumbered (id : Nat) :
    Carries (Session.renumbered tell numbers) (Option.map (Schema.redescribed tell))
      (one.messageSchema id) (two.messageSchema (numbers.message id)) := by
  by_cases inlinable : one.Inlinable id
  · obtain ⟨message, found, plain⟩ := inlinable
    rw [messageSchema_eq_once found plain,
      messageSchema_eq_once (mirrors.message_of_found found) plain]
    have slots := messageSlot_renumbered mirrors [id]
    exact (carries_once (messageBody_renumbered mirrors slots message)).map fun _ => rfl
  · rw [messageSchema_eq_none inlinable, messageSchema_eq_none (mt mirrors.inlinable_iff.1 inlinable)]
    exact .pure rfl

end

end Derivation

end ProtoSchema
