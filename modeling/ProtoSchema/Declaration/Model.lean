import ProtoSchema.Declaration.Request
import ProtoSchema.Name

/-!
Models: the declarations of all files of a request, flat and linked. Messages and enums are numbered
from zero in the order of `Model.messages` and `Model.enums`, and refer to each other by these
numbers.
-/
namespace ProtoSchema

inductive TypeLink where
  | message (id : Nat)
  | enum (id : Nat)
deriving DecidableEq

structure Field where
  name : String
  wireName : String
  kind : FieldKind
  repeated : Bool
  proto3Optional : Bool
  oneofIndex : Option Int
  /-- The declared type as the request names it, for the kinds that have one. -/
  typeName : Option String
  link : Option TypeLink
  comment : String
deriving DecidableEq

structure Declaration where
  name : String
  /-- The name inside the package: the names of the messages around it, and its own. -/
  dottedName : String
  package : String
  file : Nat
  parent : Option Nat
  comment : String
deriving DecidableEq

def Declaration.absoluteName (declaration : Declaration) : String :=
  Name.qualify declaration.package declaration.dottedName

structure Message extends Declaration where
  mapEntry : Bool
  fields : List Field
deriving DecidableEq

structure Enum extends Declaration where
  values : List String
deriving DecidableEq

structure File where
  name : String
  package : String
  /-- The comment in front of the package statement. -/
  packageComment : String
  /-- The messages declared in the file, nested ones among them. -/
  messages : List Nat
  enums : List Nat
  services : List String
deriving DecidableEq

structure Model where
  files : List File
  messages : List Message
  enums : List Enum
deriving DecidableEq

namespace Model

def fileIndex? (model : Model) (name : String) : Option Nat :=
  model.files.findIdx? fun file => file.name = name

def file? (model : Model) (name : String) : Option File :=
  model.files.find? fun file => file.name = name

def message? (model : Model) (id : Nat) : Option Message := model.messages[id]?

def enum? (model : Model) (id : Nat) : Option Enum := model.enums[id]?

end Model

/-- The wire names of the fields that share a oneof, for every oneof in the order of their indices.
The oneof that only stands for an `optional` label does not count. -/
def Message.exclusiveGroups (message : Message) : List (List String) :=
  let members := message.fields.filterMap fun field =>
    if field.proto3Optional then none
    else field.oneofIndex.map fun index => (index, field.wireName)
  let indices := (members.map (·.1)).eraseDups.mergeSort
  indices.map fun index => (members.filter (·.1 = index)).map (·.2)

end ProtoSchema
