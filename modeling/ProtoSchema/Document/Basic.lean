import ProtoSchema.Schema.Encode
import ProtoSchema.Yaml.Writer

/-!
Documents: the schemas of a set of declarations under a title and a version, and their text.
-/
namespace ProtoSchema

structure Document where
  title : String
  version : String
  /-- The components by absolute name. -/
  schemas : List (String × Schema)

namespace Document

def formatVersion : String := "3.0.1"

def toJson (document : Document) : Json :=
  .object
    [("openapi", .text formatVersion),
      ("info", .object [("title", .text document.title), ("version", .text document.version)]),
      ("components",
        .object [("schemas", .object (Entries.mapValues Schema.toJson document.schemas))])]

def text (document : Document) (yaml : Bool) : String :=
  if yaml then Yaml.document document.toJson else document.toJson.indented 0

end Document

end ProtoSchema
