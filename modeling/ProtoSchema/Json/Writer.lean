import ProtoSchema.Json.Value
import ProtoSchema.Number.Shortest

/-!
JSON text: the compact form without any blank, and the indented form with two spaces a level. Both
write the entries of an object in their order and leave characters beyond ASCII as they are.
-/
namespace ProtoSchema.Json

/-- Numbers are positional for exponents from -5 to 15, whole ones end in `.0`, a positive exponent
carries its sign, and halves go to the even digit. -/
def numberStyle : DecimalStyle where
  positional exponent := -5 ≤ exponent && exponent ≤ 15
  pointZero := true
  plusSign := true
  tie := .even

def hexDigit (n : Nat) : Char := if n < 10 then Char.ofNat (48 + n) else Char.ofNat (87 + n)

def escape (c : Char) : List Char :=
  if c = '"' then ['\\', '"']
  else if c = '\\' then ['\\', '\\']
  else if c = '\n' then ['\\', 'n']
  else if c = '\r' then ['\\', 'r']
  else if c = '\t' then ['\\', 't']
  else if c.toNat = 8 then ['\\', 'b']
  else if c.toNat = 12 then ['\\', 'f']
  else if c.toNat < 32 then ['\\', 'u', '0', '0', hexDigit (c.toNat / 16), hexDigit (c.toNat % 16)]
  else [c]

def quoted (text : String) : String := String.ofList ('"' :: text.toList.flatMap escape ++ ['"'])

def decimalText (value : Binary64) : String := (numberStyle.text? value).getD "null"

mutual

def compact : Json → String
  | .null => "null"
  | .boolean value => if value then "true" else "false"
  | .integer value => Numeral.integerText value
  | .decimal value => decimalText value
  | .text value => quoted value
  | .array [] => "[]"
  | .array (first :: rest) => "[" ++ first.compact ++ compactItems rest ++ "]"
  | .object [] => "\x7b\x7d"
  | .object ((key, value) :: rest) =>
    "\x7b" ++ quoted key ++ ":" ++ value.compact ++ compactEntries rest ++ "\x7d"

def compactItems : List Json → String
  | [] => ""
  | item :: rest => "," ++ item.compact ++ compactItems rest

def compactEntries : List (String × Json) → String
  | [] => ""
  | (key, value) :: rest => "," ++ quoted key ++ ":" ++ value.compact ++ compactEntries rest

end

def newLine (depth : Nat) : String := String.ofList ('\n' :: List.replicate (2 * depth) ' ')

mutual

/-- The indented text of a value that stands at the given nesting depth. -/
def indented (depth : Nat) : Json → String
  | .array (first :: rest) =>
    "[" ++ newLine (depth + 1) ++ first.indented (depth + 1) ++ indentedItems depth rest
      ++ newLine depth ++ "]"
  | .object ((key, value) :: rest) =>
    "\x7b" ++ newLine (depth + 1) ++ quoted key ++ ": " ++ value.indented (depth + 1)
      ++ indentedEntries depth rest ++ newLine depth ++ "\x7d"
  | value => value.compact

def indentedItems (depth : Nat) : List Json → String
  | [] => ""
  | item :: rest =>
    "," ++ newLine (depth + 1) ++ item.indented (depth + 1) ++ indentedItems depth rest

def indentedEntries (depth : Nat) : List (String × Json) → String
  | [] => ""
  | (key, value) :: rest =>
    "," ++ newLine (depth + 1) ++ quoted key ++ ": " ++ value.indented (depth + 1)
      ++ indentedEntries depth rest

end

end ProtoSchema.Json
