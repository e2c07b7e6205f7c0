import ProtoSchema.Json.Writer
import ProtoSchema.Text.Quoted

/-!
What can be wrong with JSON text, and where: the causes, the path of the value at fault, and the
wording of both.
-/
namespace ProtoSchema.Json

inductive Unexpected where
  | null
  | boolean (value : Bool)
  | integer (value : Int)
  | decimal (value : Binary64)
  | text (value : String)
  | array
  | object
deriving DecidableEq

def Unexpected.phrase : Unexpected → String
  | .null => "null"
  | .boolean value => "boolean `" ++ (if value then "true" else "false") ++ "`"
  | .integer value => "integer `" ++ Numeral.integerText value ++ "`"
  | .decimal value => "floating point `" ++ decimalText value ++ "`"
  | .text value => "string " ++ Text.quoted value
  | .array => "sequence"
  | .object => "map"

inductive Fault where
  | endInsideArray
  | endInsideObject
  | endInsideText
  | endBeforeValue
  | colonMissing
  | arraySeparatorMissing
  | objectSeparatorMissing
  | wordMisspelled
  | valueMissing
  | invalidEscape
  | invalidNumber
  | numberOutOfRange
  | invalidEncoding
  | controlCharacter
  | keyNotText
  | loneSurrogate
  | surrogateCutShort
  | trailingComma
  | trailingCharacters
  | nestedTooDeep
  | wrongType (found : Unexpected) (expected : String)
  | wrongInteger (found : Int) (expected : String)
  | unknownName (found : String) (known : List String)
  | repeatedField (name : String)
deriving DecidableEq

namespace Fault

private def inTicks (text : String) : String := "`" ++ text ++ "`"

private def choice : List String → String
  | [] => "there are no variants"
  | [only] => "expected " ++ inTicks only
  | [first, second] => "expected " ++ inTicks first ++ " or " ++ inTicks second
  | known => "expected one of " ++ String.intercalate ", " (known.map inTicks)

def message : Fault → String
  | .endInsideArray => "EOF while parsing a list"
  | .endInsideObject => "EOF while parsing an object"
  | .endInsideText => "EOF while parsing a string"
  | .endBeforeValue => "EOF while parsing a value"
  | .colonMissing => "expected `:`"
  | .arraySeparatorMissing => "expected `,` or `]`"
  | .objectSeparatorMissing => "expected `,` or `\x7d`"
  | .wordMisspelled => "expected ident"
  | .valueMissing => "expected value"
  | .invalidEscape => "invalid escape"
  | .invalidNumber => "invalid number"
  | .numberOutOfRange => "number out of range"
  | .invalidEncoding => "invalid unicode code point"
  | .controlCharacter => "control character (\\u0000-\\u001F) found while parsing a string"
  | .keyNotText => "key must be a string"
  | .loneSurrogate => "lone leading surrogate in hex escape"
  | .surrogateCutShort => "unexpected end of hex escape"
  | .trailingComma => "trailing comma"
  | .trailingCharacters => "trailing characters"
  | .nestedTooDeep => "recursion limit exceeded"
  | .wrongType found expected => "invalid type: " ++ found.phrase ++ ", expected " ++ expected
  | .wrongInteger found expected =>
    "invalid value: integer " ++ inTicks (Numeral.integerText found) ++ ", expected " ++ expected
  | .unknownName found known => "unknown variant " ++ inTicks found ++ ", " ++ choice known
  | .repeatedField name => "duplicate field " ++ inTicks name

end Fault

/-- One step from a value into a part of it. The step into an entry whose key was not read is
unknown. -/
inductive Step where
  | item (index : Nat)
  | entry (key : String)
  | unknown
deriving DecidableEq

/-- The steps from the whole value to a part, the last step first. -/
abbrev Path := List Step

def Step.text : Step → String
  | .item index => "[" ++ Numeral.text index ++ "]"
  | .entry key => key
  | .unknown => "?"

/-- Steps into entries are set off by a point, except for the very first step. -/
def Path.text (path : Path) : String :=
  match path.reverse with
  | [] => "."
  | first :: rest =>
    first.text ++ String.join (rest.map fun step =>
      match step with
      | .item _ => step.text
      | _ => "." ++ step.text)

structure Failure where
  path : Path
  fault : Fault
deriving DecidableEq

def Failure.message (failure : Failure) : String :=
  "at JSON path " ++ failure.path.text ++ " → " ++ failure.fault.message

end ProtoSchema.Json
