import ProtoSchema.Declaration.Model
import ProtoSchema.Failure

/-!
Linking a request. The declarations of all files are outlined first, each file in the order: a
message, the messages nested in it, its enums; then every field that names a type is linked to the
last declaration of that name.
-/
namespace ProtoSchema

def FieldKind.namesType : FieldKind → Bool
  | .message | .group | .enum => true
  | _ => false

namespace Request

/-! ## Comments and paths -/

/-- Numbers of the parts of files and messages, as paths of locations spell them. -/
def packagePart : Int := 2
def fileMessages : Int := 4
def fileEnums : Int := 5
def messageFields : Int := 2
def nestedMessages : Int := 3
def messageEnums : Int := 4

/-- A position in a path. Paths keep it in 32 bits, so it wraps around beyond them. -/
def pathPosition (index : Nat) : Int := (Int32.ofNat index).toInt

/-- The comment of the last commented location with the given path. -/
def SourceInfo.comment? (source : SourceInfo) (path : List Int) : Option String :=
  source.locations.reverse.findSome? fun location =>
    if location.path = path then location.leadingComments else none

def File.commentAt (file : File) (path : List Int) : String :=
  ((file.sourceInfo.bind fun source => source.comment? path)).getD ""

/-! ## Outlines -/

/-- What declarations are declared in: a file, or a message of that file. -/
structure Surroundings where
  file : File
  fileIndex : Nat
  parent : Option Nat := none
  dottedName : String := ""
  path : List Int := []

namespace Surroundings

def partPath (around : Surroundings) (part : Int) (index : Nat) : List Int :=
  around.path ++ [part, pathPosition index]

def inside (around : Surroundings) (id : Nat) (name : String) (path : List Int) : Surroundings :=
  { around with parent := some id, dottedName := Name.qualify around.dottedName name, path }

def declaration (around : Surroundings) (name : String) (path : List Int) : Declaration where
  name := name
  dottedName := Name.qualify around.dottedName name
  package := around.file.package
  file := around.fileIndex
  parent := around.parent
  comment := around.file.commentAt path

def field (around : Surroundings) (path : List Int) (index : Nat) (field : Field) :
    ProtoSchema.Field where
  name := field.name
  wireName := field.jsonName.getD (Name.wireName field.name)
  kind := field.kind
  repeated := field.label = .repeated
  proto3Optional := field.proto3Optional
  oneofIndex := field.oneofIndex
  typeName := if field.kind.namesType then field.typeName else none
  link := none
  comment := around.file.commentAt (path ++ [messageFields, pathPosition index])

end Surroundings

/-- A declaration before its fields are linked. -/
inductive Outline where
  | message (message : ProtoSchema.Message)
  | enum (enum : ProtoSchema.Enum)

namespace Outline

def message? : Outline → Option ProtoSchema.Message
  | .message declared => some declared
  | .enum _ => none

def enum? : Outline → Option ProtoSchema.Enum
  | .message _ => none
  | .enum declared => some declared

def messages (outlines : List Outline) : List ProtoSchema.Message := outlines.filterMap message?

def enums (outlines : List Outline) : List ProtoSchema.Enum := outlines.filterMap enum?

end Outline

def outlineEnums (around : Surroundings) (part : Int) (enums : List Enum) : List Outline :=
  enums.mapIdx fun index enum =>
    .enum
      { around.declaration enum.name (around.partPath part index) with
        values := enum.values.map (·.name) }

mutual

def outlineMessage (around : Surroundings) (id : Nat) (path : List Int) : Message → List Outline
  | ⟨name, fields, nested, enums, options⟩ =>
    let within := around.inside id name path
    .message
        { around.declaration name path with
          mapEntry := options.any (·.mapEntry)
          fields := fields.mapIdx (around.field path) }
      :: (outlineMessages within nestedMessages (id + 1) 0 nested
        ++ outlineEnums within messageEnums enums)

/-- Messages side by side from an index on, and everything declared in them; `id` is the first
number that is free. -/
def outlineMessages (around : Surroundings) (part : Int) (id index : Nat) :
    List Message → List Outline
  | [] => []
  | message :: rest =>
    let outlines := outlineMessage around id (around.partPath part index) message
    let next := id + (Outline.messages outlines).length
    outlines ++ outlineMessages around part next (index + 1) rest

end

def File.outline (file : File) (fileIndex id : Nat) : List Outline :=
  let around : Surroundings := { file, fileIndex }
  outlineMessages around fileMessages id 0 file.messages
    ++ outlineEnums around fileEnums file.enums

/-- The outlines of files from an index on; `id` is the first number that is free for a message. -/
def outlineFiles (fileIndex id : Nat) : List File → List (File × List Outline)
  | [] => []
  | file :: rest =>
    let outlines := file.outline fileIndex id
    (file, outlines) :: outlineFiles (fileIndex + 1) (id + (Outline.messages outlines).length) rest

/-! ## Links -/

/-- Every declaration under its absolute name, in order; `messages` and `enums` are the first
numbers that are free. -/
def directory (messages enums : Nat) : List Outline → List (String × TypeLink)
  | [] => []
  | .message message :: rest =>
    (message.absoluteName, .message messages) :: directory (messages + 1) enums rest
  | .enum enum :: rest =>
    (enum.absoluteName, .enum enums) :: directory messages (enums + 1) rest

/-- The last declaration of a name, which may start with dots. -/
def resolve? (declared : List (String × TypeLink)) (typeName : String) : Option TypeLink :=
  declared.reverse.lookup (String.ofList (typeName.toList.dropWhile (· = '.')))

def linkField (declared : List (String × TypeLink)) (owner : String) (field : ProtoSchema.Field) :
    Except Failure ProtoSchema.Field :=
  match field.typeName with
  | none => .ok field
  | some typeName =>
    match resolve? declared typeName with
    | some link => .ok { field with link := some link }
    | none => .error (.unresolvedType (owner ++ "." ++ field.name) typeName)

def linkMessage (declared : List (String × TypeLink)) (message : ProtoSchema.Message) :
    Except Failure ProtoSchema.Message := do
  let fields ← message.fields.mapM (linkField declared message.absoluteName)
  pure { message with fields }

/-- The files with the numbers of their declarations; `messages` and `enums` are the first numbers
that are free. -/
def linkFiles (messages enums : Nat) : List (File × List Outline) → List ProtoSchema.File
  | [] => []
  | (file, outlines) :: rest =>
    let messageCount := (Outline.messages outlines).length
    let enumCount := (Outline.enums outlines).length
    { name := file.name
      package := file.package
      packageComment := file.commentAt [packagePart]
      messages := List.range' messages messageCount
      enums := List.range' enums enumCount
      services := file.services.map fun service => Name.qualify file.package service.name }
      :: linkFiles (messages + messageCount) (enums + enumCount) rest

/-- The first name that is the name of an earlier file too. -/
def repeatedFile? : (earlier : List String) → List File → Option String
  | _, [] => none
  | earlier, file :: rest =>
    if file.name ∈ earlier then some file.name else repeatedFile? (file.name :: earlier) rest

def link (request : Request) : Except Failure Model :=
  match repeatedFile? [] request.files with
  | some name => .error (.repeatedFile name)
  | none => do
    let files := outlineFiles 0 0 request.files
    let outlines := files.flatMap (·.2)
    let messages ← (Outline.messages outlines).mapM (linkMessage (directory 0 0 outlines))
    pure { files := linkFiles 0 0 files, messages, enums := Outline.enums outlines }

end Request

end ProtoSchema
