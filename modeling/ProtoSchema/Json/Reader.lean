import ProtoSchema.Json.Scan

/-!
Typed reading of JSON text. A `Reader` takes one value off the front of its input or says what is
wrong and where; faults are met in the order of the text. Brackets may be open inside one another up
to a limit. Records are read by the names of their fields, or by position from an array; a field
that is left out keeps its default, and an entry with an unknown key is passed over.
-/
namespace ProtoSchema.Json

/-- Reads one value, given how many brackets may still be opened and the path of the value. -/
abbrev Reader (α : Type) :=
  (levels : Nat) → (path : Path) → (input : Bytes) → Except Failure (Read input α)

/-- How many brackets may be open at once. -/
def nestingLimit : Nat := 127

variable {α ρ : Type}

private def at? (path : Path) : Except Fault α → Except Failure α
  | .ok value => .ok value
  | .error fault => .error ⟨path, fault⟩

/-- What is wrong with a value of another kind than the expected one, given its first byte. Scalars
are read to the end first, so a fault inside them is reported instead. -/
def unexpectedFault (expected : String) (byte : UInt8) (rest : Bytes) : Fault :=
  let found : Except Fault Unexpected :=
    if byte = 0x6E then (word restOfNull rest).map fun _ => .null
    else if byte = 0x74 then (word restOfTrue rest).map fun _ => .boolean true
    else if byte = 0x66 then (word restOfFalse rest).map fun _ => .boolean false
    else if byte = Byte.minus then (number true rest).map fun read => read.value.unexpected
    else if Byte.isDigit byte then
      (number false (byte :: rest)).map fun read => read.value.unexpected
    else if byte = Byte.quote then (quotedText rest).map fun (string, _) => .text string
    else if byte = Byte.openBracket then .ok .array
    else if byte = Byte.openBrace then .ok .object
    else .error .valueMissing
  match found with
  | .ok found => .wrongType found expected
  | .error fault => fault

namespace Reader

/-! ## Scalars -/

def text : Reader String := fun _ path input =>
  match h : skipBlanks input with
  | [] => .error ⟨path, .endBeforeValue⟩
  | byte :: rest =>
    have bound := length_lt_of_skipBlanks h
    if byte = Byte.quote then
      at? path ((quotedText rest).map fun (string, left) =>
        left.reading string bound)
    else .error ⟨path, unexpectedFault "a string" byte rest⟩

def flag : Reader Bool := fun _ path input =>
  match h : skipBlanks input with
  | [] => .error ⟨path, .endBeforeValue⟩
  | byte :: rest =>
    have bound := length_lt_of_skipBlanks h
    if byte = 0x74 then
      at? path ((word restOfTrue rest).map (·.reading true bound))
    else if byte = 0x66 then
      at? path ((word restOfFalse rest).map (·.reading false bound))
    else .error ⟨path, unexpectedFault "a boolean" byte rest⟩

def int32 : Reader Int := fun _ path input =>
  match h : skipBlanks input with
  | [] => .error ⟨path, .endBeforeValue⟩
  | byte :: rest =>
    have bound := length_lt_of_skipBlanks h
    let inRange : Number → Except Fault Int
      | .integer n =>
        if -0x80000000 ≤ n ∧ n ≤ 0x7FFFFFFF then .ok n else .error (.wrongInteger n "i32")
      | .decimal x => .error (.wrongType (.decimal x) "i32")
    if byte = Byte.minus then
      at? path (do
        let read ← number true rest
        let n ← inRange read.value
        return read.toRest.reading n bound)
    else if Byte.isDigit byte then
      at? path (do
        let read ← number false (byte :: rest)
        let n ← inRange read.value
        return read.afterFirst.reading n bound)
    else .error ⟨path, unexpectedFault "i32" byte rest⟩

/-- A value, or null for none. -/
def optional (item : Reader α) : Reader (Option α) := fun levels path input =>
  match h : skipBlanks input with
  | [] => (item levels path input).map (·.map some)
  | byte :: rest =>
    have bound := length_lt_of_skipBlanks h
    if byte = 0x6E then
      at? path ((word restOfNull rest).map (·.reading none bound))
    else (item levels path input).map (·.map some)

/-! ## Arrays -/

def closeArray (path : Path) (input : Bytes) : Except Failure (Read input Unit) :=
  match h : skipBlanks input with
  | [] => .error ⟨path, .endInsideArray⟩
  | byte :: rest =>
    if byte = Byte.closeBracket then .ok ⟨(), rest, length_lt_of_skipBlanks h⟩
    else if byte = Byte.comma then
      match skipBlanks rest with
      | next :: _ =>
        .error ⟨path, if next = Byte.closeBracket then .trailingComma else .trailingCharacters⟩
      | [] => .error ⟨path, .trailingCharacters⟩
    else .error ⟨path, .trailingCharacters⟩

/-- The item at an index, or none where the closing bracket comes next. -/
def nextItem (item : Reader α) (levels : Nat) (path : Path) (index : Nat) (input : Bytes) :
    Except Failure (Option (Read input α)) :=
  match h : skipBlanks input with
  | [] => .error ⟨path, .endInsideArray⟩
  | byte :: rest =>
    have bound := length_lt_of_skipBlanks h
    if byte = Byte.closeBracket then .ok none
    else if index = 0 then
      (item levels (.item index :: path) input).map some
    else if byte = Byte.comma then
      match skipBlanks rest with
      | [] => .error ⟨path, .endBeforeValue⟩
      | next :: _ =>
        if next = Byte.closeBracket then .error ⟨path, .trailingComma⟩
        else (item levels (.item index :: path) rest).map fun read =>
          some (read.widen bound)
    else .error ⟨path, .arraySeparatorMissing⟩

def items (item : Reader α) (levels : Nat) (path : Path) (index : Nat) (input : Bytes) :
    Except Failure (Read input (List α)) :=
  match nextItem item levels path index input with
  | .error failure => .error failure
  | .ok none => (closeArray path input).map fun read => ⟨[], read.rest, read.shorter⟩
  | .ok (some first) =>
    have further := first.shorter
    (items item levels path (index + 1) first.rest).map fun more =>
      (more.widen further).map (first.value :: ·)
termination_by input.length

def array (item : Reader α) : Reader (List α) := fun levels path input =>
  match h : skipBlanks input with
  | [] => .error ⟨path, .endBeforeValue⟩
  | byte :: rest =>
    have bound := length_lt_of_skipBlanks h
    if byte = Byte.openBracket then
      match levels with
      | 0 => .error ⟨path, .nestedTooDeep⟩
      | levels + 1 => (items item levels path 0 rest).map (·.widen bound)
    else .error ⟨path, unexpectedFault "a sequence" byte rest⟩

/-! ## Objects -/

def key (path : Path) (input : Bytes) : Except Failure (Read input String) :=
  match h : skipBlanks input with
  | [] => .error ⟨path, .endBeforeValue⟩
  | byte :: rest =>
    have bound := length_lt_of_skipBlanks h
    if byte = Byte.quote then
      at? path ((quotedText rest).map fun (string, left) => left.reading string bound)
    else if byte = Byte.closeBrace then .error ⟨path, .trailingComma⟩
    else .error ⟨path, .keyNotText⟩

/-- The next key of an object, or none where the closing brace comes next. -/
def nextKey (path : Path) (isFirst : Bool) (input : Bytes) :
    Except Failure (Option (Read input String)) :=
  let unknown : Path := .unknown :: path
  match h : skipBlanks input with
  | [] => .error ⟨unknown, .endInsideObject⟩
  | byte :: rest =>
    have bound := length_lt_of_skipBlanks h
    if byte = Byte.closeBrace then .ok none
    else if isFirst then (key unknown input).map some
    else if byte = Byte.comma then (key unknown rest).map fun read => some (read.widen bound)
    else .error ⟨unknown, .objectSeparatorMissing⟩

def colon (path : Path) (input : Bytes) : Except Failure (Read input Unit) :=
  match h : skipBlanks input with
  | [] => .error ⟨path, .endInsideObject⟩
  | byte :: rest =>
    if byte = Byte.colon then .ok ⟨(), rest, length_lt_of_skipBlanks h⟩
    else .error ⟨path, .colonMissing⟩

/-- The closing brace of an object, known to come next. -/
def closeObject (path : Path) (input : Bytes) : Except Failure (Read input Unit) :=
  match h : skipBlanks input with
  | [] => .error ⟨path, .endInsideObject⟩
  | _ :: rest => .ok ⟨(), rest, length_lt_of_skipBlanks h⟩

/-- A field of a record of type `ρ`: its name, and how its value changes the record. -/
structure Field (ρ : Type) where
  name : String
  read : Reader (ρ → ρ)

def field (name : String) (value : Reader α) (change : α → ρ → ρ) : Field ρ where
  name := name
  read levels path input := (value levels path input).map fun read =>
    read.map change

/-- The entries of an object, each changing the record; `seen` holds the names of the fields read so
far. -/
def entries (fields : List (Field ρ)) (levels : Nat) (path : Path) (seen : List String)
    (isFirst : Bool) (record : ρ) (input : Bytes) : Except Failure (Read input ρ) :=
  match nextKey path isFirst input with
  | .error failure => .error failure
  | .ok none => (closeObject path input).map fun read => ⟨record, read.rest, read.shorter⟩
  | .ok (some key) =>
    have further := key.shorter
    let valuePath : Path := .entry key.value :: path
    match fields.find? (·.name == key.value) with
    | some field =>
      if seen.contains key.value then .error ⟨path, .repeatedField key.value⟩
      else match colon path key.rest with
        | .error failure => .error failure
        | .ok gap =>
          match field.read levels valuePath gap.rest with
          | .error failure => .error failure
          | .ok change =>
            have shorter : change.rest.length < input.length := by
              have := gap.shorter
              have := change.shorter
              omega
            (entries fields levels path (key.value :: seen) false (change.value record)
              change.rest).map (·.widen shorter)
    | none =>
      match colon path key.rest with
      | .error failure => .error failure
      | .ok gap =>
        match skipValue gap.rest with
        | .error fault => .error ⟨valuePath, fault⟩
        | .ok left =>
          have shorter : left.1.length < input.length := by
            have := gap.shorter
            have := left.2
            omega
          (entries fields levels path seen false record left.1).map (·.widen shorter)
termination_by input.length

/-- The fields of a record by their position in an array. -/
def positions (levels : Nat) (path : Path) (index : Nat) :
    (fields : List (Field ρ)) → (record : ρ) → (input : Bytes) → Except Failure (Read input ρ)
  | [], record, input =>
    (closeArray path input).map fun read => ⟨record, read.rest, read.shorter⟩
  | field :: fields, record, input =>
    match nextItem field.read levels path index input with
    | .error failure => .error failure
    | .ok none => (closeArray path input).map fun read => ⟨record, read.rest, read.shorter⟩
    | .ok (some change) =>
      (positions levels path (index + 1) fields (change.value record) change.rest).map
        (·.widen change.shorter)

/-- A record with the given kind of name, starting from its defaults. -/
def record (kind : String) (fields : List (Field ρ)) (defaults : ρ) : Reader ρ :=
  fun levels path input =>
    match h : skipBlanks input with
    | [] => .error ⟨path, .endBeforeValue⟩
    | byte :: rest =>
      have bound := length_lt_of_skipBlanks h
      if byte = Byte.openBrace then
        match levels with
        | 0 => .error ⟨path, .nestedTooDeep⟩
        | levels + 1 => (entries fields levels path [] true defaults rest).map (·.widen bound)
      else if byte = Byte.openBracket then
        match levels with
        | 0 => .error ⟨path, .nestedTooDeep⟩
        | levels + 1 => (positions levels path 0 fields defaults rest).map (·.widen bound)
      else .error ⟨path, unexpectedFault ("struct " ++ kind) byte rest⟩

/-! ## Names from a list -/

private def chosen (names : List (String × α)) (name : String) : Except Fault α :=
  match names.lookup name with
  | some value => .ok value
  | none => .error (.unknownName name (Entries.names names))

/-- The null that stands as the value of a name spelled as an object. -/
private def nothing (path : Path) (input : Bytes) : Except Failure (Read input Unit) :=
  match h : skipBlanks input with
  | [] => .error ⟨path, .endBeforeValue⟩
  | byte :: rest =>
    have bound := length_lt_of_skipBlanks h
    if byte = 0x6E then
      at? path ((word restOfNull rest).map (·.reading () bound))
    else .error ⟨path, unexpectedFault "unit" byte rest⟩

/-- The inside of an object that spells a name as its only key, with null as the value. -/
private def nameAsKey (names : List (String × α)) (path : Path) (input : Bytes) :
    Except Failure (Read input α) :=
  match h : skipBlanks input with
  | [] => .error ⟨path, .endInsideObject⟩
  | byte :: rest =>
    have bound := length_lt_of_skipBlanks h
    if byte = Byte.closeBrace then .error ⟨path, .valueMissing⟩
    else if byte ≠ Byte.quote then .error ⟨path, .keyNotText⟩
    else match quotedText rest with
      | .error fault => .error ⟨path, fault⟩
      | .ok (name, left) => do
        let value ← at? path (chosen names name)
        let gap ← colon path left.1
        let null ← nothing (.entry name :: path) gap.rest
        match h : skipBlanks null.rest with
        | [] => .error ⟨path, .endInsideObject⟩
        | byte :: last =>
          have closer := length_lt_of_skipBlanks h
          if byte = Byte.closeBrace then
            .ok ⟨value, last, by
              have := left.2
              have := gap.shorter
              have := null.shorter
              omega⟩
          else .error ⟨path, .valueMissing⟩

/-- One of the given names, as text or as the only key of an object. -/
def oneOf (names : List (String × α)) : Reader α := fun levels path input =>
  match h : skipBlanks input with
  | [] => .error ⟨path, .endBeforeValue⟩
  | byte :: rest =>
    have bound := length_lt_of_skipBlanks h
    if byte = Byte.openBrace then
      match levels with
      | 0 => .error ⟨path, .nestedTooDeep⟩
      | _ + 1 => (nameAsKey names path rest).map (·.widen bound)
    else if byte = Byte.quote then
      at? path (do
        let (name, left) ← quotedText rest
        let value ← chosen names name
        return left.reading value bound)
    else .error ⟨path, .valueMissing⟩

/-! ## Any value -/

/-- The entries of an object of arbitrary values, and the closing brace. -/
def members (value : Reader Json) (levels : Nat) (path : Path) (isFirst : Bool) (input : Bytes) :
    Except Failure (Read input (List (String × Json))) :=
  match nextKey path isFirst input with
  | .error failure => .error failure
  | .ok none => (closeObject path input).map fun read => ⟨[], read.rest, read.shorter⟩
  | .ok (some key) =>
    have further := key.shorter
    match colon path key.rest with
    | .error failure => .error failure
    | .ok gap =>
      match value levels (.entry key.value :: path) gap.rest with
      | .error failure => .error failure
      | .ok first =>
        have shorter : first.rest.length < input.length := by
          have := gap.shorter
          have := first.shorter
          omega
        (members value levels path false first.rest).map fun more =>
          (more.widen shorter).map ((key.value, first.value) :: ·)
termination_by input.length

private def scalar (path : Path) (byte : UInt8) (rest : Bytes) :
    Except Failure (Json × Rest rest) :=
  at? path <|
    if byte = 0x6E then (word restOfNull rest).map fun left => (.null, left)
    else if byte = 0x74 then (word restOfTrue rest).map fun left => (.boolean true, left)
    else if byte = 0x66 then (word restOfFalse rest).map fun left => (.boolean false, left)
    else if byte = Byte.quote then (quotedText rest).map fun (string, left) => (.text string, left)
    else if byte = Byte.minus then
      (number true rest).map fun read => (read.value.toJson, read.toRest)
    else if Byte.isDigit byte then
      (number false (byte :: rest)).map fun read =>
        (read.value.toJson, read.afterFirst)
    else .error .valueMissing

/-- Any value inside which at most `levels` brackets are open at once. A repeated key keeps its
first place and its last value. -/
def json : (levels : Nat) → (path : Path) → (input : Bytes) → Except Failure (Read input Json)
  | levels, path, input =>
    match h : skipBlanks input with
    | [] => .error ⟨path, .endBeforeValue⟩
    | byte :: rest =>
      have bound := length_lt_of_skipBlanks h
      if byte = Byte.openBracket then
        match levels with
        | 0 => .error ⟨path, .nestedTooDeep⟩
        | levels + 1 => (items (fun _ => json levels) levels path 0 rest).map fun read =>
          (read.widen bound).map .array
      else if byte = Byte.openBrace then
        match levels with
        | 0 => .error ⟨path, .nestedTooDeep⟩
        | levels + 1 => (members (fun _ => json levels) levels path true rest).map fun read =>
          (read.widen bound).map fun entries => .object (Entries.ofList entries)
      else (scalar path byte rest).map fun (value, left) =>
        left.reading value bound

/-- Read one value at the start of a document; what follows it is not looked at. -/
def run (reader : Reader α) (input : Bytes) : Except Failure α :=
  (reader nestingLimit [] input).map (·.value)

end Reader

def ofText? (text : String) : Except Failure Json := Reader.run Reader.json text.toUTF8.toList

end ProtoSchema.Json
