import ProtoSchema.Schema.Basic

/-!
The message types with schemas of their own: those whose JSON form differs from their fields, those
that are recursive by nature, and the types configured to have an empty schema.
-/
namespace ProtoSchema

/-- Schemas by absolute name, which take the place of the schema of the message so named. -/
abbrev Catalog := List (String × Schema)

namespace Catalog

def wellKnown : Catalog :=
  [("google.protobuf.ListValue", .arrayOf Schema.object),
    ("google.protobuf.Struct", .openObject),
    ("google.protobuf.Any", .openObject),
    ("google.protobuf.Value", .anyValue),
    ("google.protobuf.BoolValue", Schema.boolean.asNullable),
    ("google.protobuf.StringValue", Schema.string.asNullable),
    ("google.protobuf.DoubleValue", Schema.float64.asNullable),
    ("google.protobuf.FloatValue", Schema.float64.asNullable),
    ("google.protobuf.Int32Value",
      Schema.integer.asNullable |>.withMinimum (-0x80000000) |>.withMaximum 0x7FFFFFFF),
    ("google.protobuf.Int64Value",
      Schema.integer.asNullable |>.withMinimum (-0x8000000000000000)
        |>.withMaximum 0x7FFFFFFFFFFFFFFF),
    ("google.protobuf.UInt32Value",
      Schema.integer.asNullable |>.withMinimum 0 |>.withMaximum 0xFFFFFFFF),
    ("google.protobuf.UInt64Value",
      Schema.integer.asNullable |>.withMinimum 0 |>.withMaximum 0xFFFFFFFFFFFFFFFF),
    ("google.protobuf.Duration", Schema.string),
    ("google.protobuf.Empty", { Schema.object with maxProperties := some 0 }),
    ("google.protobuf.Timestamp", Schema.string.withFormat "date-time")]

/-- The well-known types and an open object for each of the given names. -/
def withEmpty (names : List String) : Catalog :=
  names.foldl (fun catalog name => Entries.put name Schema.openObject catalog) wellKnown

def find? (catalog : Catalog) (absoluteName : String) : Option Schema := catalog.lookup absoluteName

end Catalog

end ProtoSchema
