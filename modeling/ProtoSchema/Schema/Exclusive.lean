import ProtoSchema.Schema.Basic

/-!
Groups of fields of which at most one may be present, as schemas. For the fields `x` and `y` of one
group the alternatives are: neither is present, `x` is, `y` is. When none or one of them is present
exactly one alternative holds; when both are, two hold, which `oneOf` refuses.
-/
namespace ProtoSchema.Schema

/-- Demands that none of the fields be present. -/
def forbidding (fields : List String) : Schema :=
  { negated := some (Slot.inline { anyOf := fields.map fun field => .inline (requiring field) }) }

def exclusiveArms (fields : List String) : List (Slot Schema) :=
  .inline (forbidding fields) :: fields.map fun field => .inline (requiring field)

/-- Add groups of exclusive fields. A single group takes the place of `oneOf`; several go side by
side into `allOf`, since a schema has room for one `oneOf` only. -/
def withExclusive (groups : List (List String)) (schema : Schema) : Schema :=
  match groups with
  | [] => schema
  | [group] => { schema with oneOf := exclusiveArms group }
  | groups =>
    { schema with
      allOf := schema.allOf ++ groups.map fun group => .inline { oneOf := exclusiveArms group } }

end ProtoSchema.Schema
