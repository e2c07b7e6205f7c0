import ProtoSchema.Directive.Rule
import ProtoSchema.Json.Writer

/-!
What can be wrong with a directive: with its argument, with its name, or with the schema it is
applied to.
-/
namespace ProtoSchema

inductive ArgumentFault where
  | valueMissing
  | trailingInput
  | unwantedArguments (text : String)
  | notBoolean (text : String)
  | notNumber (text : String)
  | notCount (text : String)
  | emptyText
  | unsupportedType (text : String)
  | notList (value : Json)
  | characterMissing (wanted : Char) (offset : Nat)
  | identifierMissing (offset : Nat)
  | trailingAfterText (text : String)
  | literalMissing
  | unclosedQuote
  | unfinishedEscape
  | unclosedBackQuote
  | namedArgumentsMissing
  | unknownArgument (name : String)
  | ruleMissing

namespace ArgumentFault

private def inTicks (text : String) : String := "`" ++ text ++ "`"

def message : ArgumentFault → String
  | .valueMissing => "expected `=<value>`"
  | .trailingInput => "unexpected trailing input"
  | .unwantedArguments text => "takes no arguments, got " ++ inTicks text
  | .notBoolean text => "expected a boolean, got " ++ inTicks text
  | .notNumber text => "expected a number, got " ++ inTicks text
  | .notCount text => "expected a non-negative integer, got " ++ inTicks text
  | .emptyText => "expected a string"
  | .unsupportedType text =>
    "unsupported type " ++ inTicks text ++ ", expected `object` or `value`"
  | .notList value => "expected a list, got " ++ value.compact
  | .characterMissing wanted offset =>
    "expected " ++ inTicks (String.singleton wanted) ++ " at offset " ++ Numeral.text offset
  | .identifierMissing offset => "expected identifier at offset " ++ Numeral.text offset
  | .trailingAfterText text => "trailing input after string: " ++ inTicks text
  | .literalMissing => "expected a value"
  | .unclosedQuote => "unterminated string"
  | .unfinishedEscape => "unterminated escape"
  | .unclosedBackQuote => "unterminated raw string"
  | .namedArgumentsMissing => "expected `:rule=...`"
  | .unknownArgument name => "unknown argument " ++ inTicks name
  | .ruleMissing => "missing required argument `rule`"

end ArgumentFault

inductive Requirement where
  | numeric
  | kind (kind : Kind)
deriving DecidableEq

def Requirement.phrase : Requirement → String
  | .numeric => "a numeric type"
  | .kind .object => "an object"
  | .kind .array => "an array"
  | .kind .string => "a string"
  | .kind .number => "a numeric type"
  | .kind .integer => "a numeric type"
  | .kind .boolean => "a boolean"

inductive DirectiveError where
  | noDefinition (text : String) (target : Target)
  | malformed (text : String) (reason : ArgumentFault)
  | kindMismatch (rule : RuleKind) (requirement : Requirement) (found : String)
  | itemsMismatch (found : String)
  | fractionalMultiple (factor : Binary64)

namespace DirectiveError

/-- Numbers in messages are written without an exponent, and halves go up. -/
def numberStyle : DecimalStyle where
  positional _ := true
  pointZero := false
  plusSign := false
  tie := .greater

def message : DirectiveError → String
  | .noDefinition text target =>
    "no definition found for rule `" ++ text ++ "` (" ++ target.name ++ ")"
  | .malformed text reason => "malformed rule `" ++ text ++ "`: " ++ reason.message
  | .kindMismatch rule requirement found =>
    "must apply " ++ rule.name ++ " to " ++ requirement.phrase ++ ", got " ++ found
  | .itemsMismatch found =>
    "must apply items rule to an array with an inline item schema, got " ++ found
  | .fractionalMultiple factor =>
    "cannot apply non-integral MultipleOf validation (" ++ (numberStyle.text? factor).getD ""
      ++ ") to integer value"

end DirectiveError

end ProtoSchema
