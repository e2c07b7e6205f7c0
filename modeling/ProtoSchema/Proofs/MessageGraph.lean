import Mathlib.Logic.Relation
import ProtoSchema.Proofs.Outline

/-!
The graph of messages: a message leads to the messages that its fields name as their types, unless
they have a schema in the catalog; the entry type of a map leads to what its values are. Everything
that a field asks for can be reached in this graph.
-/
namespace ProtoSchema

open Relation

theorem FieldKind.namesType_of_scalar?_none {kind : FieldKind} {native : Bool}
    (named : kind.scalar? native = none) : kind = .enum ∨ kind = .message ∨ kind = .group := by
  cases kind <;> simp [FieldKind.scalar?] at named ⊢

def Field.messageLink? (field : Field) : Option Nat :=
  match field.kind, field.link with
  | .message, some (.message id) => some id
  | .group, some (.message id) => some id
  | _, _ => none

/-- The fields that a schema follows: all fields of a message, but only the value of a map entry. -/
def Message.followed (message : Message) : List Field :=
  if message.mapEntry then message.fields[1]?.toList else message.fields

/-- The values of the map entry `id` are of the type of the map entry `next`. -/
def Model.MapLink (model : Model) (id next : Nat) : Prop :=
  ∃ entry value following, model.message? id = some entry ∧ entry.mapEntry = true ∧
    entry.fields[1]? = some value ∧ value.messageLink? = some next ∧
    model.message? next = some following ∧ following.mapEntry = true

/-- No chain of map entries comes back to where it started. -/
def Model.MapsEnd (model : Model) : Prop := ∀ id, ¬ TransGen model.MapLink id id

namespace Derivation

variable (derivation : Derivation)

/-- The field names a message that has no schema in the catalog. -/
def FieldNames (field : Field) (target : Nat) : Prop :=
  field.messageLink? = some target ∧
    ∃ message, derivation.model.message? target = some message ∧
      derivation.catalog.find? message.absoluteName = none

/-- A field that the message `id` is followed through names the message `target`. -/
def Names (id target : Nat) : Prop :=
  ∃ message, derivation.model.message? id = some message ∧
    ∃ field ∈ message.followed, derivation.FieldNames field target

variable {derivation} {maps : List Nat} {declaration description owner : String}
  {referenceAllowed allowed : Bool} {field : Field} {frame : Frame} {outline : Outline}
  {message : Message} {id target : Nat}

theorem messageLink?_of_declaredType {found : derivation.model.message? id = some message}
    (declared : derivation.declaredType declaration field = .ok (.message id message found)) :
    field.messageLink? = some id := by
  unfold declaredType at declared
  cases scalar : field.kind.scalar? derivation.settings.nativeIntegers with
  | some schema => simp only [scalar] at declared; cases declared
  | none =>
      simp only [scalar] at declared
      split at declared
      · split at declared <;> cases declared
      · cases declared
      · rename_i named isLink notEnum
        split at declared
        · cases declared
          rcases FieldKind.namesType_of_scalar?_none scalar with kind | kind | kind
          · exact absurd kind notEnum
          · simp only [Field.messageLink?, kind, isLink]
          · simp only [Field.messageLink?, kind, isLink]
        · cases declared
      · cases declared

theorem declaredType_of_messageLink? (linked : field.messageLink? = some id)
    (found : derivation.model.message? id = some message) :
    derivation.declaredType declaration field = .ok (.message id message found) := by
  have named : ∀ kind, field.kind = kind → (kind = .message ∨ kind = .group) →
      field.link = some (.message id) →
      derivation.declaredType declaration field = .ok (.message id message found) := by
    rintro _ kind (rfl | rfl) link
    all_goals
      unfold declaredType
      simp only [kind, link, FieldKind.scalar?]
      split
      · rename_i other same
        cases same.symm.trans found
        rfl
      · rename_i missing
        cases missing.symm.trans found
  unfold Field.messageLink? at linked
  split at linked
  · rename_i kind link
    cases linked
    exact named _ kind (.inl rfl) link
  · rename_i kind link
    cases linked
    exact named _ kind (.inr rfl) link
  · cases linked

/-- What a field asks for is reached from the message that it names. -/
theorem typeOutline_asks
    (outlined : derivation.typeOutline maps declaration description referenceAllowed field =
      .ok (frame, .message target allowed)) :
    ∃ first, derivation.FieldNames field first ∧ ReflTransGen derivation.Names first target ∧
      ∃ message, derivation.model.message? target = some message ∧ message.mapEntry = false := by
  fun_induction typeOutline derivation maps declaration description referenceAllowed field
      generalizing frame with
  | case1 | case2 | case3 | case4 | case5 | case6 => cases outlined
  | case7 maps declaration description referenceAllowed field id message found named unlisted entry
      value second fresh _ reading =>
      rename_i ih
      obtain ⟨⟨inner, content⟩, inside, same⟩ := exists_of_map_ok outlined
      cases same
      obtain ⟨first, names, leads, known⟩ := ih inside
      have followed : derivation.Names id first :=
        ⟨message, found, value, by simp [Message.followed, entry, second], names⟩
      exact ⟨id, ⟨messageLink?_of_declaredType named, message, found, unlisted⟩,
        ReflTransGen.head followed leads, known⟩
  | case8 maps declaration description referenceAllowed field id message found named unlisted plain =>
      cases outlined
      exact ⟨target, ⟨messageLink?_of_declaredType named, message, found, unlisted⟩, .refl, message,
        found, by simpa using plain⟩

/-- Only the fields of a message keep references out, and only for what stands in them directly. -/
theorem typeOutline_allows
    (outlined : derivation.typeOutline maps declaration description referenceAllowed field =
      .ok (frame, .message target allowed)) :
    (∃ repeated, frame = .field repeated description ∧ allowed = referenceAllowed) ∨
      (∃ values, frame = .map description values) ∧ allowed = true := by
  fun_induction typeOutline derivation maps declaration description referenceAllowed field
      generalizing frame with
  | case1 | case2 | case3 | case4 | case5 | case6 => cases outlined
  | case7 maps declaration description referenceAllowed field id message found named unlisted entry
      value second fresh _ reading =>
      rename_i ih
      obtain ⟨⟨inner, content⟩, inside, same⟩ := exists_of_map_ok outlined
      cases same
      rcases ih inside with ⟨_, -, always⟩ | ⟨-, always⟩ <;> exact .inr ⟨⟨inner, rfl⟩, always⟩
  | case8 maps declaration description referenceAllowed field id message found named unlisted plain =>
      cases outlined
      exact .inl ⟨_, rfl, rfl⟩

theorem fieldOutline_asks (outlined : derivation.fieldOutline owner field = .ok outline)
    (asked : outline.content = .message target allowed) :
    derivation.typeOutline [] (owner ++ "." ++ field.name)
        (derivation.settings.readComment field.comment).description
        (derivation.settings.readComment field.comment).directives.isEmpty field =
      .ok (outline.frame, .message target allowed) := by
  rcases fieldOutline_cases outlined with ⟨override, -, -, content⟩ | ⟨-, typed⟩
  · cases content.symm.trans asked
  · rw [asked] at typed
    exact typed

/-- A message leads to every message that it asks for. -/
theorem Asks.leads (asks : derivation.Asks message target allowed)
    (found : derivation.model.message? id = some message) (plain : message.mapEntry = false) :
    TransGen derivation.Names id target ∧
      ∃ message, derivation.model.message? target = some message ∧ message.mapEntry = false := by
  obtain ⟨field, member, outline, outlined, asked⟩ := asks
  obtain ⟨first, names, leads, known⟩ := typeOutline_asks (fieldOutline_asks outlined asked)
  have followed : derivation.Names id first :=
    ⟨message, found, field, by simpa [Message.followed, plain] using member, names⟩
  exact ⟨TransGen.head' followed leads, known⟩

end Derivation

/-! ## Trees and orchards -/

def Field.ofKind (name : String) (kind : FieldKind) (link : Option TypeLink) : Field where
  name := name
  wireName := name
  kind := kind
  repeated := false
  proto3Optional := false
  oneofIndex := none
  typeName := none
  link := link
  comment := ""

def Field.holding (name : String) (target : Nat) : Field :=
  .ofKind name .message (some (.message target))

def Message.holding (name : String) (fields : List Field) : Message where
  name := name
  dottedName := name
  package := "forest"
  file := 0
  parent := none
  comment := ""
  mapEntry := false
  fields := fields

/-- The entry type of a map from texts to the messages `target`. -/
def Message.mapTo (owner target : Nat) : Message where
  name := "Entry"
  dottedName := "Entry"
  package := "forest"
  file := 0
  parent := some owner
  comment := ""
  mapEntry := true
  fields := [.ofKind "key" .string none, .holding "value" target]

/-- A model of one file. -/
def Model.ofMessages (messages : List Message) : Model where
  files := [
    { name := "forest.proto"
      package := "forest"
      packageComment := ""
      messages := List.range messages.length
      enums := []
      services := [] }]
  messages := messages
  enums := []

/-- A tree holds another tree as its crown, and trees under names as its branches. -/
def Model.tree : Model :=
  .ofMessages [.holding "Tree" [.holding "crown" 0, .holding "branches" 1], .mapTo 0 0]

/-- An orchard holds trees, which hold nothing but a name. -/
def Model.orchard : Model :=
  .ofMessages
    [.holding "Orchard" [.holding "oldest" 2, .holding "trees" 1], .mapTo 0 2,
      .holding "Tree" [.ofKind "name" .string none]]

end ProtoSchema
