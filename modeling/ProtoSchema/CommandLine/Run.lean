import ProtoSchema.CommandLine.Arguments
import ProtoSchema.CommandLine.Expansion
import ProtoSchema.Document.Generate

/-!
Running a command: read requests from files, write or print the documents they ask for, and name
what went wrong together with the file it went wrong with.
-/
namespace ProtoSchema.CommandLine

inductive RunError where
  | badPattern (error : Wildcard.ExpansionError)
  | noMatch (pattern : String)
  | unreadable (path : String) (error : StorageError)
  | undecodable (path : String) (failure : Failure)
  | badParameter (path : String) (failure : Failure)
  | unlinked (failure : Failure)
  | notGenerated (path : String) (failure : Failure)
  | folderNotMade (path : String) (error : StorageError)
  | unwritable (path : String) (error : StorageError)

def RunError.trail : RunError → List String
  | .badPattern error => ["failed to resolve input file paths", error.message]
  | .noMatch pattern =>
    ["failed to resolve input file paths", "glob pattern matched no files: " ++ pattern]
  | .unreadable path error => ["failed to read source file " ++ path, error.message]
  | .undecodable path failure => ("failed to decode request " ++ path) :: failure.trail
  | .badParameter path failure => ("invalid parameters for " ++ path) :: failure.trail
  | .unlinked failure => failure.trail
  | .notGenerated path failure => ("failed to generate from " ++ path) :: failure.trail
  | .folderNotMade path error => ["failed to create " ++ path, error.message]
  | .unwritable path error => ["failed to write " ++ path, error.message]

def RunError.message (error : RunError) : String := String.intercalate ": " error.trail

variable {m : Type → Type} [Monad m] [Host m]

abbrev Running (m : Type → Type) := ExceptT RunError m

/-- The result of an action on files, whose errors are put into words by `describe`. -/
def attempt {α : Type} (describe : StorageError → RunError)
    (action : m (Except StorageError α)) : Running m α :=
  ExceptT.mk ((·.mapError describe) <$> action)

/-- The files that an input stands for: the pattern's, or the file it names. -/
def inputFiles (input : String) : Running m (List String) := do
  if Wildcard.isPattern input then
    match ← ExceptT.lift (Wildcard.expand (m := m) input).run with
    | .error error => throw (.badPattern error)
    | .ok [] => throw (.noMatch input)
    | .ok paths => pure paths
  else pure [input]

/-- The documents of the request in a file. The given parameter takes the place of the request's
own. -/
def documentsOf (path : String) (parameter : Option String) (content : Json.Bytes) :
    Except RunError (List OutputFile) := do
  let request ← (Request.ofBytes content).mapError fun failure =>
    .undecodable path (.malformedRequest failure)
  let parameter := (parameter <|> request.parameter).getD ""
  let settings ← (Settings.parse parameter).mapError fun error =>
    .badParameter path (.settings error)
  let (linked, _) := (Model.ofRequest request).run.run []
  let model ← linked.mapError .unlinked
  let (written, _) := (model.documents settings request.filesToGenerate).run.run []
  written.mapError (.notGenerated path)

def deliver (outputFolder : Option String) (document : OutputFile) : Running m Unit := do
  match outputFolder with
  | none => ExceptT.lift (Host.print (document.content ++ "\n"))
  | some folder =>
    attempt (.folderNotMade folder) (Host.makeFolders folder)
    let path := Path.join folder document.name
    attempt (.unwritable path) (Host.write path document.content)
    ExceptT.lift (Host.printError ("wrote " ++ path ++ "\n"))

/-- All inputs are resolved before the first file is read. -/
def generate (inputs : List String) (parameter outputFolder : Option String) : Running m Unit := do
  let paths ← inputs.mapM inputFiles
  for path in paths.flatten do
    let content ← attempt (.unreadable path) (Host.read path)
    let documents ← liftExcept (documentsOf path parameter content)
    documents.forM (deliver outputFolder)

def nameWidth : Nat := 52

def definitionLine (definition : Definition) : String :=
  let padding := List.replicate (nameWidth - definition.name.length) ' '
  definition.name ++ String.ofList padding ++ " " ++ definition.target.name ++ "\n"

def programName : String := "proto-openapi"

def programVersion : String := "0.1.0"

def usage : String :=
  "Usage: " ++ programName ++ " generate --input <INPUT>... [--parameter <PARAMETER>]"
    ++ " [--out-dir <OUT_DIR>]\n"
    ++ "       " ++ programName ++ " markers\n"

/-- Run the command that the arguments ask for. The result is the exit code. -/
def run (arguments : List String) : m Nat := do
  match Command.ofArguments? arguments with
  | none =>
    Host.printError usage
    pure 2
  | some .help =>
    Host.print usage
    pure 0
  | some .version =>
    Host.print (programName ++ " " ++ programVersion ++ "\n")
    pure 0
  | some .markers =>
    Registry.builtin.forM fun definition => Host.print (definitionLine definition)
    pure 0
  | some (.generate inputs parameter outputFolder) =>
    match ← (generate inputs parameter outputFolder : Running m Unit).run with
    | .ok () => pure 0
    | .error error =>
      Host.printError ("error: " ++ error.message ++ "\n")
      pure 1

end ProtoSchema.CommandLine
