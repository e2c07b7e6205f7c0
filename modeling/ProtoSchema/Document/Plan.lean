import ProtoSchema.Declaration.Model
import ProtoSchema.Derivation.Basic
import ProtoSchema.Path

/-!
Plans: which declarations go into which document, and what the document is called.
-/
namespace ProtoSchema

/-- A document before its schemas are derived. -/
structure Plan where
  name : String
  title : String
  version : String
  /-- The messages under their absolute names, nested ones among them. -/
  messages : List (String × Nat)
  enums : List (String × Nat)
  services : List String

namespace Plan

def defaultTitle : String := "OpenAPI Spec for Protobuf APIs."

def singleName : String := "openapiv3"

/-- Declarations in ascending order of their absolute names. Of two with one name the last one
counts. -/
def byName (declared : List (String × Nat)) : List (String × Nat) :=
  declared.foldl (fun sorted (name, id) => Entries.putSorted name id sorted) []

/-- The document of some files under a name, a title and a version. -/
def ofFiles (model : Model) (name title version : String) (files : List File) : Plan where
  name := name
  title := title
  version := version
  messages := byName <| (files.flatMap (·.messages)).filterMap fun id =>
    (model.message? id).map fun message => (message.absoluteName, id)
  enums := byName <| (files.flatMap (·.enums)).filterMap fun id =>
    (model.enum? id).map fun enum => (enum.absoluteName, id)
  services := (files.flatMap (·.services)).eraseDups

def titleOf (settings : Settings) (file : File) : String :=
  let described := (settings.readComment file.packageComment).description
  if described.isEmpty then defaultTitle else described

def versionOf (package : String) : String :=
  String.ofList (((Text.pieces '.' package.toList).getLast?).getD [])

def singleFile (model : Model) (files : List File) : Plan :=
  ofFiles model singleName defaultTitle "" files

def perFile (model : Model) (settings : Settings) (file : File) : Plan :=
  ofFiles model (Path.stem file.name) (titleOf settings file) (versionOf file.package) [file]

def perPackage (model : Model) (settings : Settings) (first : File) (files : List File) : Plan :=
  ofFiles model first.package (titleOf settings first) (versionOf first.package) files

/-- The documents for some files. Packages are taken in ascending order. -/
def all (model : Model) (settings : Settings) (files : List File) : List Plan :=
  match settings.grouping with
  | .singleFile => [singleFile model files]
  | .perFile => files.map (perFile model settings)
  | .perPackage =>
    let packages := (files.map (·.package)).eraseDups.mergeSort
    packages.filterMap fun package =>
      match files.filter (·.package = package) with
      | [] => none
      | first :: rest => some (perPackage model settings first (first :: rest))

end Plan

end ProtoSchema
