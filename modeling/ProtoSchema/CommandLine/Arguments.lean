import ProtoSchema.Text.Split

/-!
The arguments of a call. Options come in a long and a short form, with their value behind an equals
sign, behind the letter, or in the next argument; `-i` takes all values up to the next option.
-/
namespace ProtoSchema.CommandLine

inductive Command where
  | generate (inputs : List String) (parameter outputFolder : Option String)
  | markers
  | version
  | help
deriving DecidableEq

inductive Flag where
  | input
  | parameter
  | outputFolder
deriving DecidableEq

def Flag.ofLong? : String → Option Flag
  | "input" => some .input
  | "parameter" => some .parameter
  | "out-dir" => some .outputFolder
  | _ => none

def Flag.ofShort? : Char → Option Flag
  | 'i' => some .input
  | 'p' => some .parameter
  | 'o' => some .outputFolder
  | _ => none

/-- What an argument looks like. A sole dash is a value. -/
inductive Argument where
  | separator
  | long (name : String) (attached : Option String)
  | short (letter : Char) (attached : Option String)
  | value (text : String)
deriving DecidableEq

def Argument.of (text : String) : Argument :=
  match text.toList with
  | ['-', '-'] => .separator
  | '-' :: '-' :: name =>
    match Text.cutAt? '=' name with
    | some (name, attached) => .long (String.ofList name) (some (String.ofList attached))
    | none => .long (String.ofList name) none
  | ['-', letter] => .short letter none
  | '-' :: letter :: '=' :: attached => .short letter (some (String.ofList attached))
  | '-' :: letter :: attached => .short letter (some (String.ofList attached))
  | _ => .value text

structure Draft where
  inputs : List String := []
  parameter : Option String := none
  outputFolder : Option String := none
  /-- The option that the next value belongs to, and whether it has a value already. -/
  pending : Option (Flag × Bool) := none
deriving DecidableEq

namespace Draft

/-- No option is left without a value. -/
def settle (draft : Draft) : Option Draft :=
  match draft.pending with
  | some (_, false) => none
  | _ => some { draft with pending := none }

/-- Give an option a value. Only inputs may have several, and the name of a folder is not empty. -/
def add (draft : Draft) (flag : Flag) (value : String) : Option Draft :=
  match flag with
  | .input => some { draft with inputs := draft.inputs ++ [value] }
  | .parameter =>
    if draft.parameter.isSome then none else some { draft with parameter := some value }
  | .outputFolder =>
    if draft.outputFolder.isSome || value.isEmpty then none
    else some { draft with outputFolder := some value }

def addOption (draft : Draft) (flag : Flag) (attached : Option String) : Option Draft := do
  let draft ← draft.settle
  match attached with
  | some value => draft.add flag value
  | none => some { draft with pending := some (flag, false) }

def addValue (draft : Draft) (value : String) : Option Draft := do
  let (flag, _) ← draft.pending
  let draft ← draft.add flag value
  pure { draft with pending := if flag = .input then some (.input, true) else none }

def finish (draft : Draft) : Option Command := do
  let draft ← draft.settle
  if draft.inputs.isEmpty then none
  else some (.generate draft.inputs draft.parameter draft.outputFolder)

end Draft

/-- Read the arguments of `generate`; nothing stands for wrong usage. -/
def readGenerate (draft : Draft) : List String → Option Command
  | [] => draft.finish
  | argument :: rest =>
    match Argument.of argument with
    | .separator => if rest.isEmpty then draft.finish else none
    | .long "help" none => draft.settle.map fun _ => .help
    | .short 'h' _ => draft.settle.map fun _ => .help
    | .long name attached => do
      readGenerate (← draft.addOption (← Flag.ofLong? name) attached) rest
    | .short letter attached => do
      readGenerate (← draft.addOption (← Flag.ofShort? letter) attached) rest
    | .value value => do readGenerate (← draft.addValue value) rest

def readMarkers : List String → Option Command
  | [] => some .markers
  | argument :: rest =>
    match Argument.of argument with
    | .separator => if rest.isEmpty then some .markers else none
    | .long "help" none => some .help
    | .short 'h' _ => some .help
    | _ => none

def Command.ofArguments? : List String → Option Command
  | [] => none
  | "generate" :: rest => readGenerate {} rest
  | "markers" :: rest => readMarkers rest
  | ["help"] => some .help
  | ["help", command] =>
    if ["generate", "markers", "help"].contains command then some .help else none
  | argument :: _ =>
    match Argument.of argument with
    | .long "version" none => some .version
    | .short 'V' _ => some .version
    | .long "help" none => some .help
    | .short 'h' _ => some .help
    | _ => none

end ProtoSchema.CommandLine
