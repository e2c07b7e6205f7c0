import ProtoSchema.Number.Binary64
import ProtoSchema.Entries

/-!
JSON values. Whole numbers and floating-point numbers are kept apart, and the entries of an object
keep their order. Nothing forbids an object with a repeated key; `Json.settled` removes repetitions.
-/
namespace ProtoSchema

inductive Json where
  | null
  | boolean (value : Bool)
  | integer (value : Int)
  | decimal (value : Binary64)
  | text (value : String)
  | array (items : List Json)
  | object (entries : List (String × Json))
deriving BEq, Inhabited

namespace Json

/-- The number as JSON can hold it: what is not finite becomes null. -/
def ofBinary64 (value : Binary64) : Json :=
  if value.isFinite then .decimal value else .null

mutual

/-- The value with each key once in every object, holding the last value given for it. -/
def settled : Json → Json
  | .array items => .array (settledItems items)
  | .object entries => .object (Entries.ofList (settledEntries entries))
  | value => value

def settledItems : List Json → List Json
  | [] => []
  | item :: rest => item.settled :: settledItems rest

def settledEntries : List (String × Json) → List (String × Json)
  | [] => []
  | (key, value) :: rest => (key, value.settled) :: settledEntries rest

end

end Json

end ProtoSchema
