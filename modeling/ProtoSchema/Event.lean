import ProtoSchema.Failure
import ProtoSchema.Number.Numeral

/-!
What a run reports on its way, and computations that may fail and keep their report either way.
-/
namespace ProtoSchema

inductive Event where
  | linked (files messages enums : Nat)
  | derived (message : String) (properties : Nat)
  /-- A message reached again from its own fields is pointed at. -/
  | recursionReferenced (message : String)
  /-- A message reached again from its own fields is left open. -/
  | recursionOpened (message : String)
  | servicesSkipped (document : String) (services : Nat)
  | documentWritten (document : String) (schemas : Nat)
deriving DecidableEq

namespace Event

private def field (key value : String) : String := " " ++ key ++ "=" ++ value

private def count (key : String) (n : Nat) : String := field key (Numeral.text n)

/-- The line of an event: its level, its text and its fields. -/
def line : Event → String
  | .linked files messages enums =>
    "DEBUG linked descriptor model" ++ count "files" files ++ count "messages" messages
      ++ count "enums" enums
  | .derived message properties =>
    "DEBUG synthesized message" ++ field "message" message ++ count "properties" properties
  | .recursionReferenced message =>
    "WARN recursive message, emitting $ref" ++ field "message" message
  | .recursionOpened message =>
    "WARN recursive nested message, emitting open object" ++ field "message" message
  | .servicesSkipped document services =>
    "DEBUG services carry no schemas" ++ field "file" document ++ count "services" services
  | .documentWritten document schemas =>
    "INFO generated document" ++ field "file" document ++ count "schemas" schemas

end Event

/-- A computation that reports events in order and may fail. -/
abbrev Reported := ExceptT Failure (StateM (List Event))

def report (event : Event) : Reported Unit := modify fun events => events ++ [event]

end ProtoSchema
