import ProtoSchema.Declaration.Link
import ProtoSchema.Derivation.Message
import ProtoSchema.Document.Basic
import ProtoSchema.Document.Plan

/-!
From a request to the documents it asks for: link its declarations, plan the documents, derive and
write each of them. The first failure ends the run.
-/
namespace ProtoSchema

structure OutputFile where
  name : String
  content : String
deriving DecidableEq

namespace Derivation

/-- The components of the messages of a plan. Nested messages and entry types of maps have none. -/
def messageComponents (derivation : Derivation) (plan : Plan) :
    Deriving (List (String × Schema)) := do
  let topLevel := plan.messages.filter fun (_, id) => id ∈ derivation.components
  let schemas ← topLevel.mapM fun (name, id) => do
    return (← derivation.messageSchema id).map fun schema => (name, schema)
  pure (schemas.filterMap id)

/-- The components of the enums of a plan that are not nested in a message. -/
def enumComponents (derivation : Derivation) (plan : Plan) : List (String × Schema) :=
  plan.enums.filterMap fun (name, id) =>
    match derivation.model.enum? id with
    | some enum => if enum.parent.isNone then some (name, derivation.enumSchema enum) else none
    | none => none

/-- The components of a plan in ascending order of their names. An enum takes the place of a message
of the same name. -/
def componentSchemas (derivation : Derivation) (plan : Plan) :
    Deriving (List (String × Schema)) := do
  let messages ← derivation.messageComponents plan
  pure ((derivation.enumComponents plan).foldl
    (fun sorted (name, schema) => Entries.putSorted name schema sorted) messages)

end Derivation

/-- Run a derivation from its start and report what it reports. -/
def Deriving.fromStart {α : Type} (derived : Deriving α) : Reported α := do
  let (result, session) := (derived.run.run {}).run
  session.events.forM ProtoSchema.report
  liftExcept result

namespace Plan

def fileName (plan : Plan) (settings : Settings) : String :=
  plan.name ++ "." ++ settings.fileExtension

def derivation (plan : Plan) (model : Model) (settings : Settings) : Derivation :=
  Derivation.ofUnit model settings (plan.messages.map (·.2))

def document (plan : Plan) (model : Model) (settings : Settings) : Reported Document := do
  let schemas ← Deriving.fromStart ((plan.derivation model settings).componentSchemas plan)
  pure { title := plan.title, version := plan.version, schemas }

def write (plan : Plan) (model : Model) (settings : Settings) : Reported OutputFile := do
  let document ← plan.document model settings
  let name := plan.fileName settings
  if !plan.services.isEmpty then report (.servicesSkipped name plan.services.length)
  report (.documentWritten name document.schemas.length)
  pure { name, content := document.text settings.yaml }

end Plan

namespace Model

def ofRequest (request : Request) : Reported Model := do
  let model ← request.link
  report (.linked model.files.length model.messages.length model.enums.length)
  pure model

def filesNamed (model : Model) (names : List String) : Except Failure (List File) :=
  names.mapM fun name =>
    match model.file? name with
    | some file => .ok file
    | none => .error (.unknownFile name)

def documents (model : Model) (settings : Settings) (names : List String) :
    Reported (List OutputFile) := do
  let files ← model.filesNamed names
  (Plan.all model settings files).mapM fun plan => plan.write model settings

end Model

end ProtoSchema
