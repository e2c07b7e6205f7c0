import ProtoSchema.Json.Writer
import ProtoSchema.Yaml.Scalar

/-!
YAML text in block style. Nested mappings are indented by two spaces, sequences stand at the
indentation of the key in front of them, and what is empty is written in brackets. Every text ends
its last line.
-/
namespace ProtoSchema.Yaml

/-- As in JSON, but a positive exponent carries no sign. -/
def numberStyle : DecimalStyle := { Json.numberStyle with plusSign := false }

def closed (text : String) : String :=
  if text.toList.getLast?.any isBreak then text else text ++ "\n"

def indent (indentation : Nat) : String := String.ofList (spaces indentation)

/-- The text between a key and its value, and the indentation of the value. -/
def gap (indentation : Nat) : Json → String × Nat
  | .array (_ :: _) => ("\n" ++ indent indentation, indentation)
  | .object (_ :: _) => ("\n" ++ indent (indentation + 2), indentation + 2)
  | _ => (" ", indentation + 2)

/-- The text in front of the value of an entry, and the indentation of the value. A key that does
not fit in front of a colon is written on lines of its own. -/
def lead (indentation : Nat) (key : String) (value : Json) : String × Nat :=
  let written := scalar (indentation + 2) key
  if isSimpleKey key then
    let (between, inner) := gap indentation value
    (written ++ ":" ++ between, inner)
  else ("? " ++ closed written ++ indent indentation ++ ": ", indentation + 2)

mutual

/-- A value whose first line goes on behind what is written already; all further lines start at the
indentation. -/
def inline (indentation : Nat) : Json → String
  | .null => "null\n"
  | .boolean value => if value then "true\n" else "false\n"
  | .integer value => Numeral.integerText value ++ "\n"
  | .decimal value => (numberStyle.text? value).getD ".nan" ++ "\n"
  | .text value => closed (scalar indentation value)
  | .array [] => "[]\n"
  | .array (first :: rest) =>
    "- " ++ inline (indentation + 2) first ++ furtherItems indentation rest
  | .object [] => "\x7b\x7d\n"
  | .object ((key, value) :: rest) =>
    let (before, inner) := lead indentation key value
    before ++ inline inner value ++ furtherEntries indentation rest

def furtherItems (indentation : Nat) : List Json → String
  | [] => ""
  | item :: rest =>
    indent indentation ++ "- " ++ inline (indentation + 2) item ++ furtherItems indentation rest

def furtherEntries (indentation : Nat) : List (String × Json) → String
  | [] => ""
  | (key, value) :: rest =>
    let (before, inner) := lead indentation key value
    indent indentation ++ before ++ inline inner value ++ furtherEntries indentation rest

end

def document (value : Json) : String := inline 0 value

end ProtoSchema.Yaml
