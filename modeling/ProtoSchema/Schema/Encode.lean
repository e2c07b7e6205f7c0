import ProtoSchema.Schema.Basic

/-!
The JSON form of a schema: its keywords in a fixed order, those at rest left out, and its extensions
after them on the same level.
-/
namespace ProtoSchema.Schema

/-- How a numeric bound is written. Whole numbers within the range of 64 bits, signed or unsigned,
are written as integers; 2 ^ 63 and 2 ^ 64 stand for the greatest integers just below them. -/
def boundJson (bound : Binary64) : Json :=
  match bound.toInt? with
  | some n =>
    if n = 0x8000000000000000 then .integer 0x7FFFFFFFFFFFFFFF
    else if -0x8000000000000000 ≤ n ∧ n ≤ 0xFFFFFFFFFFFFFFFF then .integer n
    else if n = 0x10000000000000000 then .integer 0xFFFFFFFFFFFFFFFF
    else Json.ofBinary64 bound
  | none => Json.ofBinary64 bound

private def entry {α : Type} (key : String) (encode : α → Json) : Option α → List (String × Json)
  | some value => [(key, encode value)]
  | none => []

private def flag (key : String) (value : Bool) : List (String × Json) :=
  if value then [(key, .boolean true)] else []

private def many (key : String) (values : List Json) : List (String × Json) :=
  if values.isEmpty then [] else [(key, .array values)]

private def count (n : Nat) : Json := .integer n

def leadingKeywords (own : Keywords) : List (String × Json) :=
  entry "type" (fun kind : Kind => .text kind.name) own.kind
    ++ entry "format" .text own.format
    ++ (if own.description.isEmpty then [] else [("description", .text own.description)])
    ++ many "enum" own.allowed
    ++ entry "default" id own.defaultValue
    ++ entry "example" id own.exampleValue
    ++ flag "nullable" own.nullable
    ++ entry "minimum" boundJson own.minimum
    ++ entry "maximum" boundJson own.maximum
    ++ flag "exclusiveMinimum" own.exclusiveMinimum
    ++ flag "exclusiveMaximum" own.exclusiveMaximum
    ++ entry "multipleOf" boundJson own.multipleOf
    ++ entry "minLength" count own.minLength
    ++ entry "maxLength" count own.maxLength
    ++ entry "pattern" .text own.pattern

def arrayKeywords (own : Keywords) : List (String × Json) :=
  entry "minItems" count own.minItems
    ++ entry "maxItems" count own.maxItems
    ++ flag "uniqueItems" own.uniqueItems
    ++ many "required" (own.required.map .text)

def objectKeywords (own : Keywords) : List (String × Json) :=
  entry "minProperties" count own.minProperties
    ++ entry "maxProperties" count own.maxProperties

private def objectUnlessEmpty (key : String) (entries : List (String × Json)) :
    List (String × Json) :=
  if entries.isEmpty then [] else [(key, .object entries)]

mutual

/-- The keywords and extensions as they come; a key may repeat if an extension is named like a
keyword. -/
def toJson : Schema → Json
  | ⟨own, items, properties, additional, oneOf, anyOf, allOf, negated⟩ =>
    .object <| leadingKeywords own
      ++ slotEntry "items" items
      ++ arrayKeywords own
      ++ objectUnlessEmpty "properties" (propertyEntries properties)
      ++ slotEntry "additionalProperties" additional
      ++ objectKeywords own
      ++ many "oneOf" (slotItems oneOf)
      ++ many "anyOf" (slotItems anyOf)
      ++ many "allOf" (slotItems allOf)
      ++ slotEntry "not" negated
      ++ own.extensions

def slotJson : Slot Schema → Json
  | .reference path => .object [("$ref", .text path)]
  | .inline schema => schema.toJson

def slotEntry (key : String) : Option (Slot Schema) → List (String × Json)
  | none => []
  | some slot => [(key, slotJson slot)]

def slotItems : List (Slot Schema) → List Json
  | [] => []
  | slot :: rest => slotJson slot :: slotItems rest

def propertyEntries : List (String × Slot Schema) → List (String × Json)
  | [] => []
  | (name, slot) :: rest => (name, slotJson slot) :: propertyEntries rest

end

def toValue (schema : Schema) : Json := schema.toJson.settled

/-! ## Keys -/

def leadingNames : List String :=
  ["type"] ++ ["format"] ++ ["description"] ++ ["enum"] ++ ["default"] ++ ["example"] ++ ["nullable"]
    ++ ["minimum"] ++ ["maximum"] ++ ["exclusiveMinimum"] ++ ["exclusiveMaximum"] ++ ["multipleOf"]
    ++ ["minLength"] ++ ["maxLength"] ++ ["pattern"]

def arrayNames : List String := ["minItems"] ++ ["maxItems"] ++ ["uniqueItems"] ++ ["required"]

def objectNames : List String := ["minProperties"] ++ ["maxProperties"]

/-- The keys of the keywords in the order in which they are written. -/
def keywordNames : List String :=
  leadingNames ++ ["items"] ++ arrayNames ++ ["properties"] ++ ["additionalProperties"] ++ objectNames
    ++ ["oneOf"] ++ ["anyOf"] ++ ["allOf"] ++ ["not"]

theorem keywordNames_nodup : keywordNames.Nodup := by decide

private theorem names_append {left right : List (String × Json)} {first second : List String}
    (one : (Entries.names left).Sublist first) (two : (Entries.names right).Sublist second) :
    (Entries.names (left ++ right)).Sublist (first ++ second) := by
  unfold Entries.names
  rw [List.map_append]
  exact one.append two

private theorem names_entry {α : Type} (key : String) (encode : α → Json) (value : Option α) :
    (Entries.names (entry key encode value)).Sublist [key] := by
  cases value <;> simp [entry, Entries.names]

private theorem names_flag (key : String) (value : Bool) :
    (Entries.names (flag key value)).Sublist [key] := by
  cases value <;> simp [flag, Entries.names]

private theorem names_many (key : String) (values : List Json) :
    (Entries.names (many key values)).Sublist [key] := by
  cases values <;> simp [many, Entries.names]

private theorem names_objectUnlessEmpty (key : String) (entries : List (String × Json)) :
    (Entries.names (objectUnlessEmpty key entries)).Sublist [key] := by
  cases entries <;> simp [objectUnlessEmpty, Entries.names]

private theorem names_slotEntry (key : String) (slot : Option (Slot Schema)) :
    (Entries.names (slotEntry key slot)).Sublist [key] := by
  cases slot <;> simp [slotEntry, Entries.names]

private theorem names_description (description : String) :
    (Entries.names (if description.isEmpty then [] else
      [("description", Json.text description)])).Sublist ["description"] := by
  split <;> simp [Entries.names]

theorem names_leadingKeywords (own : Keywords) :
    (Entries.names (leadingKeywords own)).Sublist leadingNames := by
  apply_rules [names_append, names_entry, names_flag, names_many, names_description]

theorem names_arrayKeywords (own : Keywords) :
    (Entries.names (arrayKeywords own)).Sublist arrayNames := by
  apply_rules [names_append, names_entry, names_flag, names_many]

theorem names_objectKeywords (own : Keywords) :
    (Entries.names (objectKeywords own)).Sublist objectNames := by
  apply_rules [names_append, names_entry]

/-- The numeric bounds by their keys. -/
def bounds (own : Keywords) : List (String × Option Binary64) :=
  [("minimum", own.minimum), ("maximum", own.maximum), ("multipleOf", own.multipleOf)]

theorem mem_leadingKeywords_of_mem_bounds {own : Keywords} {key : String} {bound : Binary64}
    (member : (key, some bound) ∈ bounds own) : (key, boundJson bound) ∈ leadingKeywords own := by
  simp only [bounds, List.mem_cons, Prod.mk.injEq, List.not_mem_nil, or_false] at member
  simp only [leadingKeywords, List.mem_append]
  rcases member with ⟨rfl, given⟩ | ⟨rfl, given⟩ | ⟨rfl, given⟩
  · simp [entry, ← given]
  · simp [entry, ← given]
  · simp [entry, ← given]

/-- The values that are written as they were given, by their keys. -/
def givenValues (own : Keywords) : List (String × Option Json) :=
  [("default", own.defaultValue), ("example", own.exampleValue)]

theorem mem_leadingKeywords_of_mem_givenValues {own : Keywords} {key : String} {value : Json}
    (member : (key, some value) ∈ givenValues own) : (key, value) ∈ leadingKeywords own := by
  simp only [givenValues, List.mem_cons, Prod.mk.injEq, List.not_mem_nil, or_false] at member
  simp only [leadingKeywords, List.mem_append]
  rcases member with ⟨rfl, given⟩ | ⟨rfl, given⟩
  · simp [entry, ← given]
  · simp [entry, ← given]

/-- A schema is written as its keywords, each at most once, and its extensions behind them. -/
theorem toJson_eq (schema : Schema) :
    ∃ written, schema.toJson = .object (written ++ schema.extensions) ∧
      (Entries.names written).Sublist keywordNames := by
  obtain ⟨own, items, properties, additional, oneOf, anyOf, allOf, negated⟩ := schema
  refine ⟨leadingKeywords own ++ slotEntry "items" items ++ arrayKeywords own
    ++ objectUnlessEmpty "properties" (propertyEntries properties)
    ++ slotEntry "additionalProperties" additional ++ objectKeywords own
    ++ many "oneOf" (slotItems oneOf) ++ many "anyOf" (slotItems anyOf)
    ++ many "allOf" (slotItems allOf) ++ slotEntry "not" negated, by rw [toJson], ?_⟩
  have leading := names_append (names_leadingKeywords own) (names_slotEntry "items" items)
  have array := names_append leading (names_arrayKeywords own)
  have object := names_append (names_append (names_append array
    (names_objectUnlessEmpty "properties" (propertyEntries properties)))
    (names_slotEntry "additionalProperties" additional)) (names_objectKeywords own)
  exact names_append (names_append (names_append (names_append object
    (names_many "oneOf" (slotItems oneOf))) (names_many "anyOf" (slotItems anyOf)))
    (names_many "allOf" (slotItems allOf))) (names_slotEntry "not" negated)

end ProtoSchema.Schema
