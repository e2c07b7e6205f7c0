import ProtoSchema.Directive.Fault
import ProtoSchema.Settings
import ProtoSchema.Json.Fault

/-!
What can end a run: the settings, the request, the links between its declarations, and the
directives in its comments.
-/
namespace ProtoSchema

inductive Failure where
  | settings (error : SettingsError)
  | directive (declaration : String) (error : DirectiveError)
  | unknownFile (name : String)
  | unresolvedType (field typeName : String)
  | malformedRequest (failure : Json.Failure)
  | repeatedFile (name : String)
  /-- The entry type of a map has no second field. -/
  | mapWithoutValue (declaration : String)
  /-- The value of a map is of the type of a map that is being followed already. -/
  | endlessMap (declaration : String)

namespace Failure

private def inTicks (text : String) : String := "`" ++ text ++ "`"

private def invalidRequest (reason : String) : String := "invalid descriptor request: " ++ reason

def message : Failure → String
  | .settings error => error.message
  | .directive declaration error =>
    "error applying rules to " ++ inTicks declaration ++ ": " ++ error.message
  | .unknownFile name => "unable to find " ++ name
  | .unresolvedType field typeName =>
    "field " ++ inTicks field ++ " refers to unknown type " ++ inTicks typeName
  | .malformedRequest failure => invalidRequest failure.message
  | .repeatedFile name => invalidRequest ("duplicate file " ++ inTicks name)
  | .mapWithoutValue declaration =>
    invalidRequest ("map entry for " ++ inTicks declaration ++ " has no value field")
  | .endlessMap declaration =>
    invalidRequest ("map entry for " ++ inTicks declaration ++ " contains itself")

/-- The message, followed by the message of what caused the failure. -/
def trail (failure : Failure) : List String :=
  match failure with
  | .directive _ error => [failure.message, error.message]
  | _ => [failure.message]

end Failure

end ProtoSchema
