import ProtoSchema.Comment
import ProtoSchema.Declaration.Model
import ProtoSchema.Directive.Registry
import ProtoSchema.Event
import ProtoSchema.Schema.WellKnown

/-!
Deriving schemas from declarations: what a derivation works with, what it keeps between two calls,
and the schemas of scalar fields and enums, which need neither.
-/
namespace ProtoSchema

structure Derivation where
  model : Model
  settings : Settings
  registry : Registry := Registry.builtin
  catalog : Catalog
  /-- The messages that the document has components for, the only ones that may be pointed at. -/
  components : List Nat

structure Session where
  /-- The schemas derived so far, by the number of the message. -/
  finished : List (Nat × Schema) := []
  events : List Event := []

/-- A computation of a derivation. A failure leaves what was kept before it. -/
abbrev Deriving := ExceptT Failure (StateM Session)

namespace Deriving

def report (event : Event) : Deriving Unit :=
  modify fun session => { session with events := session.events ++ [event] }

/-- The schema of a message: the one kept from before, or else a new one, which is kept. -/
def once (id : Nat) (derive : Deriving Schema) : Deriving Schema := do
  match (← get).finished.lookup id with
  | some schema => pure schema
  | none =>
    let schema ← derive
    modify fun session => { session with finished := (id, schema) :: session.finished }
    pure schema

end Deriving

def Settings.commentPolicy (settings : Settings) : Comment.Policy where
  describe := settings.includeDescription
  multiline := settings.multilineDescription
  ignored := settings.ignoredDirectives

/-- What a comment says under the settings; ignored directives are left out. -/
def Settings.readComment (settings : Settings) (comment : String) : Comment.Reading :=
  let reading := settings.commentPolicy.read comment
  if settings.ignoreDirectives then { reading with directives := [] } else reading

def FieldKind.scalar? (kind : FieldKind) (nativeIntegers : Bool) : Option Schema :=
  match kind with
  | .double | .float => some Schema.float64
  | .int32 | .sint32 | .sfixed32 | .fixed32 => some Schema.int32
  | .int64 | .sint64 | .sfixed64 | .fixed64 =>
    some (if nativeIntegers then Schema.int64 else Schema.intOrString64)
  | .uint32 => some (Schema.integer.withMinimum 0 |>.withMaximum 0xFFFFFFFF)
  | .uint64 =>
    some (if nativeIntegers then Schema.integer.withMinimum 0 |>.withFormat "uint64"
      else Schema.intOrString64)
  | .bool => some Schema.boolean
  | .string => some Schema.string
  | .bytes => some Schema.bytes
  | .enum | .message | .group => none

namespace Derivation

/-- A derivation for the document that holds the given messages. Nested messages are written out
inside the messages around them and are no components. -/
def ofUnit (model : Model) (settings : Settings) (messages : List Nat) : Derivation where
  model := model
  settings := settings
  catalog := Catalog.withEmpty settings.emptySchemas
  components := messages.filter fun id => (model.message? id).any (·.parent.isNone)

def enumSchema (derivation : Derivation) (enum : Enum) : Schema :=
  let reading := derivation.settings.readComment enum.comment
  let described := Schema.string.describedAs reading.description
  if derivation.settings.enumAsIntOrString then
    described.withExtension Extension.intOrString (.boolean true)
  else { described with allowed := enum.values.map .text }

/-- The result of working on directives, whose errors belong to the declaration they are written
on. -/
def guilty {α : Type} (declaration : String) (result : Except DirectiveError α) :
    Except Failure α :=
  result.mapError (.directive declaration)

/-- The schema of a message before its fields: an object under the directives of the message. -/
def objectOf (derivation : Derivation) (message : Message) : Except Failure Schema :=
  let reading := derivation.settings.readComment message.comment
  guilty message.absoluteName <|
    derivation.registry.applyAll .type reading.directives
      (Schema.object.describedAs reading.description)

end Derivation

/-- How many of the candidates are not among those visited. -/
def remaining (candidates visited : List Nat) : Nat := (candidates.filter (· ∉ visited)).length

theorem remaining_cons_lt {candidates visited : List Nat} {id : Nat} (member : id ∈ candidates)
    (fresh : id ∉ visited) : remaining candidates (id :: visited) < remaining candidates visited := by
  have split : candidates.filter (· ∉ id :: visited) =
      (candidates.filter (· ∉ visited)).filter (· ≠ id) := by
    rw [List.filter_filter]
    congr 1
    funext other
    simp
  have counted : id ∈ candidates.filter (· ∉ visited) := by simp [member, fresh]
  unfold remaining
  rw [split]
  exact List.length_filter_lt_length_iff_exists.2 ⟨id, counted, by simp⟩

def unvisited (count : Nat) (visited : List Nat) : Nat :=
  ((List.range count).filter (· ∉ visited)).length

theorem unvisited_cons_lt {count id : Nat} {visited : List Nat} (bounded : id < count)
    (fresh : id ∉ visited) : unvisited count (id :: visited) < unvisited count visited :=
  remaining_cons_lt (List.mem_range.2 bounded) fresh

theorem Model.lt_of_message? {model : Model} {id : Nat} {message : Message}
    (found : model.message? id = some message) : id < model.messages.length :=
  (List.getElem?_eq_some_iff.1 found).1

end ProtoSchema
