import ProtoSchema.Text.Split

/-!
The settings of a run, read from a parameter text such as `yaml,use_ref=true`: entries between
commas, each a key with or without a value. Of several entries for one setting the last one counts.
-/
namespace ProtoSchema

inductive Grouping where
  | perPackage
  | perFile
  | singleFile
deriving DecidableEq

structure Settings where
  grouping : Grouping := .perPackage
  yaml : Bool := false
  /-- Point at the messages of the document instead of repeating their schemas. -/
  useRef : Bool := false
  includeDescription : Bool := true
  multilineDescription : Bool := false
  enumAsIntOrString : Bool := false
  /-- Absolute names of messages whose schema is an open object. -/
  emptySchemas : List String := []
  /-- Describe the exclusive fields of a oneof. -/
  protoOneof : Bool := false
  /-- Describe 64-bit integers as integers and not as integers or strings. -/
  nativeIntegers : Bool := false
  ignoreDirectives : Bool := false
  /-- Directive lines that contain one of these are ordinary text. -/
  ignoredDirectives : List String := []
deriving DecidableEq

inductive SettingsError where
  | unknownArgument (key : String)
  | invalidValue (key value : String)
  | perFileAndSingleFile
deriving DecidableEq

def SettingsError.message : SettingsError → String
  | .unknownArgument key => "unknown argument '" ++ key ++ "' specified"
  | .invalidValue key value => "unknown value '" ++ value ++ "' for " ++ key
  | .perFileAndSingleFile =>
    "output is already to be generated per file, cannot output to a single file"

namespace Settings

def fileExtension (settings : Settings) : String := if settings.yaml then "yaml" else "json"

structure Draft where
  settings : Settings := {}
  perFile : Bool := false
  singleFile : Bool := false
deriving DecidableEq

/-- An empty value switches a flag on; letter case does not matter. -/
def readFlag (key value : String) : Except SettingsError Bool :=
  match value.map Char.toLower with
  | "" => .ok true
  | "true" => .ok true
  | "false" => .ok false
  | _ => .error (.invalidValue key value)

def readNames (separator : Char) (value : String) : List String :=
  ((Text.pieces separator value.toList).filter fun name => !name.isEmpty).map String.ofList

namespace Draft

private def flag (draft : Draft) (key value : String) (change : Settings → Bool → Settings) :
    Except SettingsError Draft :=
  (readFlag key value).map fun on => { draft with settings := change draft.settings on }

def add (draft : Draft) (key value : String) : Except SettingsError Draft :=
  match key with
  | "per_file" => (readFlag key value).map fun on => { draft with perFile := on }
  | "single_file" => (readFlag key value).map fun on => { draft with singleFile := on }
  | "yaml" => draft.flag key value fun settings on => { settings with yaml := on }
  | "use_ref" => draft.flag key value fun settings on => { settings with useRef := on }
  | "include_description" =>
    draft.flag key value fun settings on => { settings with includeDescription := on }
  | "multiline_description" =>
    draft.flag key value fun settings on => { settings with multilineDescription := on }
  | "enum_as_int_or_string" =>
    draft.flag key value fun settings on => { settings with enumAsIntOrString := on }
  | "proto_oneof" => draft.flag key value fun settings on => { settings with protoOneof := on }
  | "int_native" => draft.flag key value fun settings on => { settings with nativeIntegers := on }
  | "disable_kube_markers" =>
    draft.flag key value fun settings on => { settings with ignoreDirectives := on }
  | "disable_validation" =>
    draft.flag key value fun settings on => { settings with ignoreDirectives := on }
  | "additional_empty_schema" =>
    .ok { draft with settings := { draft.settings with emptySchemas := readNames '+' value } }
  | "ignored_kube_markers" =>
    .ok { draft with settings := { draft.settings with ignoredDirectives := readNames '|' value } }
  | _ => .error (.unknownArgument key)

def finish (draft : Draft) : Except SettingsError Settings :=
  match draft.perFile, draft.singleFile with
  | true, true => .error .perFileAndSingleFile
  | true, false => .ok { draft.settings with grouping := .perFile }
  | false, true => .ok { draft.settings with grouping := .singleFile }
  | false, false => .ok { draft.settings with grouping := .perPackage }

end Draft

/-- The non-empty entries of a parameter text; an entry without an equals sign has an empty
value. -/
def entries (parameter : String) : List (String × String) :=
  ((Text.pieces ',' parameter.toList).filter fun entry => !entry.isEmpty).map fun entry =>
    match Text.cutAt? '=' entry with
    | some (key, value) => (String.ofList key, String.ofList value)
    | none => (String.ofList entry, "")

def parse (parameter : String) : Except SettingsError Settings := do
  let draft ← (entries parameter).foldlM (fun draft (key, value) => Draft.add draft key value) {}
  draft.finish

end Settings

end ProtoSchema
