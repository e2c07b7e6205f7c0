import ProtoSchema.Proofs.Descriptions
import ProtoSchema.Proofs.RequestOrder

/-!
Models whose numbers are all in range. Nothing is looked up beyond the declarations of such a model:
whatever would stand behind them, calls and documents are the same.
-/
namespace ProtoSchema

section

variable {α : Type} {change : α → α}

theorem list_map_of_fixed {values : List α} (fixed : ∀ value ∈ values, change value = value) :
    values.map change = values :=
  (List.map_congr_left fixed).trans (List.map_id' values)

theorem option_map_of_fixed {value : Option α} (fixed : ∀ inner ∈ value, change inner = inner) :
    value.map change = value :=
  (Option.map_congr fixed).trans Option.map_id'

end

/-! ## Numbers in range -/

namespace Model

/-- The declaration is in a file of the model, and so is the message around it. -/
structure Surrounds (model : Model) (declared : Declaration) : Prop where
  file : declared.file < model.files.length
  parent : ∀ parent ∈ declared.parent, parent < model.messages.length

/-- The link leads into the model. -/
def Holds (model : Model) : TypeLink → Prop
  | .message id => id < model.messages.length
  | .enum id => id < model.enums.length

/-- Every number that the model keeps is that of a file, message or enum of the model. -/
structure Closed (model : Model) : Prop where
  messages : ∀ message ∈ model.messages, model.Surrounds message.toDeclaration
  enums : ∀ enum ∈ model.enums, model.Surrounds enum.toDeclaration
  links : ∀ message ∈ model.messages, ∀ field ∈ message.fields, ∀ link ∈ field.link, model.Holds link
  listed : ∀ file ∈ model.files, (∀ id ∈ file.messages, id < model.messages.length) ∧
    ∀ id ∈ file.enums, id < model.enums.length

/-- The model with further messages and enums behind its own. -/
def extended (model : Model) (messages : List Message) (enums : List Enum) : Model :=
  { model with
    messages := model.messages ++ messages
    enums := model.enums ++ enums }

end Model

/-- Numbers below the bounds stay, the others move on. -/
def Renumbering.beyond (messages moreMessages enums moreEnums : Nat) : Renumbering where
  file := id
  message id := if id < messages then id else id + moreMessages
  enum id := if id < enums then id else id + moreEnums
  injective left right same := by
    dsimp only at same
    split at same <;> split at same <;> omega

namespace Model

variable {model : Model} {numbers : Renumbering}

/-- The numbers of the model stay what they are. -/
structure Fixed (model : Model) (numbers : Renumbering) : Prop where
  file (id : Nat) : numbers.file id = id
  message : ∀ id < model.messages.length, numbers.message id = id
  enum : ∀ id < model.enums.length, numbers.enum id = id

namespace Fixed

variable (fixed : model.Fixed numbers)

include fixed

theorem declaration_eq {declared : Declaration} (around : model.Surrounds declared) :
    declared.renumbered numbers = declared := by
  have parent : declared.parent.map numbers.message = declared.parent :=
    option_map_of_fixed fun parent member => fixed.message parent (around.parent parent member)
  rw [Declaration.renumbered, fixed.file, parent]

theorem field_eq {field : Field} (held : ∀ link ∈ field.link, model.Holds link) :
    field.renumbered numbers = field := by
  have link : field.link.map (TypeLink.renumbered numbers) = field.link := by
    refine option_map_of_fixed fun link member => ?_
    cases link with
    | message id => exact congrArg TypeLink.message (fixed.message id (held _ member))
    | enum id => exact congrArg TypeLink.enum (fixed.enum id (held _ member))
  rw [Field.renumbered, link]

theorem message_eq (closed : model.Closed) {message : Message} (member : message ∈ model.messages) :
    message.renumbered numbers = message := by
  have fields : message.fields.map (Field.renumbered numbers) = message.fields :=
    list_map_of_fixed fun field inside => fixed.field_eq (closed.links message member field inside)
  rw [Message.renumbered, fixed.declaration_eq (closed.messages message member), fields]

theorem enum_eq (closed : model.Closed) {enum : Enum} (member : enum ∈ model.enums) :
    enum.renumbered numbers = enum := by
  rw [Enum.renumbered, fixed.declaration_eq (closed.enums enum member)]

theorem file_eq (closed : model.Closed) {file : File} (member : file ∈ model.files) :
    file.renumbered numbers = file := by
  obtain ⟨messages, enums⟩ := closed.listed file member
  have ids : file.messages.map numbers.message = file.messages :=
    list_map_of_fixed fun id inside => fixed.message id (messages id inside)
  have enumIds : file.enums.map numbers.enum = file.enums :=
    list_map_of_fixed fun id inside => fixed.enum id (enums id inside)
  rw [File.renumbered, ids, enumIds]

end Fixed

/-! ## Declarations behind a model -/

variable (messages : List Message) (enums : List Enum)

theorem fixed_beyond : model.Fixed (.beyond model.messages.length messages.length model.enums.length
    enums.length) where
  file _ := rfl
  message _ inside := if_pos inside
  enum _ inside := if_pos inside

/-- A model without numbers out of range is found again at the front of the extended one. -/
theorem Closed.embeds_extended (closed : model.Closed) :
    model.Embeds (.beyond model.messages.length messages.length model.enums.length enums.length)
      (model.extended messages enums) where
  message id := by
    unfold message? extended
    by_cases inside : id < model.messages.length
    · have found := List.getElem?_eq_getElem inside
      rw [(fixed_beyond messages enums).message id inside, List.getElem?_append_left inside, found,
        Option.map_some, (fixed_beyond messages enums).message_eq closed (List.getElem_mem inside)]
    · have outside : model.messages.length + messages.length ≤ id + messages.length := by omega
      simp only [Renumbering.beyond, if_neg inside]
      rw [List.getElem?_eq_none (by simpa using outside), List.getElem?_eq_none (by omega), Option.map_none]
  enum id := by
    unfold enum? extended
    by_cases inside : id < model.enums.length
    · have found := List.getElem?_eq_getElem inside
      rw [(fixed_beyond messages enums).enum id inside, List.getElem?_append_left inside, found,
        Option.map_some, (fixed_beyond messages enums).enum_eq closed (List.getElem_mem inside)]
    · have outside : model.enums.length + enums.length ≤ id + enums.length := by omega
      simp only [Renumbering.beyond, if_neg inside]
      rw [List.getElem?_eq_none (by simpa using outside), List.getElem?_eq_none (by omega), Option.map_none]

/-- Documents are made of the declarations of the model alone. -/
theorem Closed.documents_extended (closed : model.Closed) (settings : Settings) (names : List String) :
    (model.extended messages enums).documents settings names = model.documents settings names := by
  refine documents_renumbered (closed.embeds_extended messages enums) fun name _ => ?_
  have same : (model.extended messages enums).file? name = model.file? name := rfl
  rw [same]
  cases found : model.file? name with
  | none => rfl
  | some file =>
      rw [Option.map_some, (fixed_beyond messages enums).file_eq closed (List.mem_of_find?_eq_some found)]

end Model

namespace Derivation

/-- The call is for a message or an enum of the model. -/
def Call.Within (model : Model) : Call → Prop
  | .message id => id < model.messages.length
  | .enum id => id < model.enums.length

variable {model : Model} (messages : List Message) (enums : List Enum)

/-- Calls for declarations of the model are answered from the declarations of the model alone. -/
theorem replies_extended (closed : model.Closed) (settings : Settings) {unit : List Nat}
    {calls : List Call} (known : ∀ id ∈ unit, id < model.messages.length)
    (within : ∀ call ∈ calls, call.Within model) :
    (ofUnit (model.extended messages enums) settings unit).replies calls {} =
      (ofUnit model settings unit).replies calls {} := by
  have fixed : model.Fixed _ := Model.fixed_beyond messages enums
  have mirrors := mirrors_ofUnit (closed.embeds_extended messages enums) settings unit
  rw [list_map_of_fixed fun id member => fixed.message id (known id member)] at mirrors
  have same : calls.map (Call.renumbered (.beyond model.messages.length messages.length model.enums.length
      enums.length)) = calls := by
    refine list_map_of_fixed fun call member => ?_
    cases call with
    | message id => exact congrArg Call.message (fixed.message id (within _ member))
    | enum id => exact congrArg Call.enum (fixed.enum id (within _ member))
  have replies := replies_renumbered mirrors calls {}
  rw [same] at replies
  refine replies.trans (list_map_of_fixed fun reply _ => ?_)
  cases reply with
  | error failure => rfl
  | ok answer =>
      have plain : answer.map (Schema.redescribed id) = answer :=
        option_map_of_fixed fun schema _ => schema.redescribed_id
      exact congrArg Except.ok plain

end Derivation

end ProtoSchema
