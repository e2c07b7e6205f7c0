import ProtoSchema.Text.Capital

/-!
Names of declarations: qualified by what they are declared in, and as they are spelled in JSON.
-/
namespace ProtoSchema.Name

/-- A name inside a scope; the empty scope adds nothing. -/
def qualify (scope name : String) : String := if scope.isEmpty then name else scope ++ "." ++ name

/-- Drop underscores, and spell the next character behind them as a capital. -/
def joinWords (capitalNext : Bool) : List Char → List Char
  | [] => []
  | c :: rest =>
    if c = '_' then joinWords true rest
    else if capitalNext then Text.capital c ++ joinWords false rest
    else c :: joinWords false rest

/-- The name that a field has in JSON unless it is given one. -/
def wireName (name : String) : String := String.ofList (joinWords false name.toList)

end ProtoSchema.Name
