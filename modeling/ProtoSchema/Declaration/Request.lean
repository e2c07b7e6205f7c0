import ProtoSchema.Json.Reader

/-!
Requests: the declarations of a set of files as the compiler hands them over, the files to describe
and the parameter text. A request is read from JSON; every part that is left out is empty.
-/
namespace ProtoSchema

inductive Label where
  | optional
  | required
  | repeated
deriving DecidableEq

inductive FieldKind where
  | double
  | float
  | int64
  | uint64
  | int32
  | fixed64
  | fixed32
  | bool
  | string
  | group
  | message
  | bytes
  | uint32
  | enum
  | sfixed32
  | sfixed64
  | sint32
  | sint64
deriving DecidableEq

namespace Request

structure Field where
  name : String := ""
  label : Label := .optional
  kind : FieldKind := .string
  typeName : Option String := none
  jsonName : Option String := none
  oneofIndex : Option Int := none
  proto3Optional : Bool := false

structure Options where
  mapEntry : Bool := false

structure EnumValue where
  name : String := ""

structure Enum where
  name : String := ""
  values : List EnumValue := []

structure Message where
  name : String := ""
  fields : List Field := []
  nested : List Message := []
  enums : List Enum := []
  options : Option Options := none

structure Service where
  name : String := ""

/-- A place in a file, named by the path to a declaration, and the comment in front of it. -/
structure Location where
  path : List Int := []
  leadingComments : Option String := none

structure SourceInfo where
  locations : List Location := []

structure File where
  name : String := ""
  package : String := ""
  messages : List Message := []
  enums : List Enum := []
  services : List Service := []
  sourceInfo : Option SourceInfo := none

end Request

structure Request where
  filesToGenerate : List String := []
  parameter : Option String := none
  files : List Request.File := []

namespace Request

open Json.Reader (text flag int32 optional array record oneOf field)

/-! ## Reading -/

def labels : List (String × Label) :=
  [("LABEL_OPTIONAL", .optional), ("LABEL_REQUIRED", .required), ("LABEL_REPEATED", .repeated)]

def fieldKinds : List (String × FieldKind) :=
  [("TYPE_DOUBLE", .double), ("TYPE_FLOAT", .float), ("TYPE_INT64", .int64),
    ("TYPE_UINT64", .uint64), ("TYPE_INT32", .int32), ("TYPE_FIXED64", .fixed64),
    ("TYPE_FIXED32", .fixed32), ("TYPE_BOOL", .bool), ("TYPE_STRING", .string),
    ("TYPE_GROUP", .group), ("TYPE_MESSAGE", .message), ("TYPE_BYTES", .bytes),
    ("TYPE_UINT32", .uint32), ("TYPE_ENUM", .enum), ("TYPE_SFIXED32", .sfixed32),
    ("TYPE_SFIXED64", .sfixed64), ("TYPE_SINT32", .sint32), ("TYPE_SINT64", .sint64)]

def readField : Json.Reader Field :=
  record "FieldDescriptorProto"
    [field "name" text fun value (read : Field) => { read with name := value },
      field "label" (oneOf labels) fun value read => { read with label := value },
      field "type" (oneOf fieldKinds) fun value read => { read with kind := value },
      field "typeName" (optional text) fun value read => { read with typeName := value },
      field "jsonName" (optional text) fun value read => { read with jsonName := value },
      field "oneofIndex" (optional int32) fun value read => { read with oneofIndex := value },
      field "proto3Optional" flag fun value read => { read with proto3Optional := value }] {}

def readOptions : Json.Reader Options :=
  record "MessageOptions"
    [field "mapEntry" flag fun value _ => { mapEntry := value }] {}

def readEnumValue : Json.Reader EnumValue :=
  record "EnumValueDescriptorProto" [field "name" text fun value _ => { name := value }] {}

def readEnum : Json.Reader Enum :=
  record "EnumDescriptorProto"
    [field "name" text fun value (read : Enum) => { read with name := value },
      field "value" (array readEnumValue) fun value read => { read with values := value }] {}

/-- A message, given how its nested messages are read. -/
def readMessageOver (nested : Json.Reader Message) : Json.Reader Message :=
  record "DescriptorProto"
    [field "name" text fun value (read : Message) => { read with name := value },
      field "field" (array readField) fun value read => { read with fields := value },
      field "nestedType" (array nested) fun value read => { read with nested := value },
      field "enumType" (array readEnum) fun value read => { read with enums := value },
      field "options" (optional readOptions) fun value read => { read with options := value }] {}

/-- A message with nested messages down to some depth. Nesting is limited by the open brackets
first, so any depth from the nesting limit on reads the same. -/
def readMessageTo : (depth : Nat) → Json.Reader Message
  | 0 => readMessageOver fun _ path _ => .error ⟨path, .nestedTooDeep⟩
  | depth + 1 => readMessageOver (readMessageTo depth)

def readMessage : Json.Reader Message := readMessageTo Json.nestingLimit

def readService : Json.Reader Service :=
  record "ServiceDescriptorProto" [field "name" text fun value _ => { name := value }] {}

def readLocation : Json.Reader Location :=
  record "Location"
    [field "path" (array int32) fun value (read : Location) => { read with path := value },
      field "leadingComments" (optional text) fun value read =>
        { read with leadingComments := value }] {}

def readSourceInfo : Json.Reader SourceInfo :=
  record "SourceCodeInfo"
    [field "location" (array readLocation) fun value _ => { locations := value }] {}

def readFile : Json.Reader File :=
  record "FileDescriptorProto"
    [field "name" text fun value (read : File) => { read with name := value },
      field "package" text fun value read => { read with package := value },
      field "messageType" (array readMessage) fun value read => { read with messages := value },
      field "enumType" (array readEnum) fun value read => { read with enums := value },
      field "service" (array readService) fun value read => { read with services := value },
      field "sourceCodeInfo" (optional readSourceInfo) fun value read =>
        { read with sourceInfo := value }] {}

def readRequest : Json.Reader Request :=
  record "CodeGeneratorRequest"
    [field "fileToGenerate" (array text) fun value (read : Request) =>
        { read with filesToGenerate := value },
      field "parameter" (optional text) fun value read => { read with parameter := value },
      field "protoFile" (array readFile) fun value read => { read with files := value }] {}

def ofBytes (input : Json.Bytes) : Except Json.Failure Request := Json.Reader.run readRequest input

end Request

end ProtoSchema
