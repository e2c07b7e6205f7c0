import ProtoSchema.CommandLine.Host
import ProtoSchema.CommandLine.Wildcard
import ProtoSchema.Path

/-!
The paths that a pattern stands for, in the order in which folders list their names sorted. A
pattern is followed step by step; only folders that a step with wildcards leads into are listed.
-/
namespace ProtoSchema.Wildcard

inductive ExpansionError where
  | malformed (error : PatternError)
  | unlisted (folder : String) (error : StorageError)

def ExpansionError.message : ExpansionError → String
  | .malformed error => error.message
  | .unlisted folder error =>
    "attempting to read \x60" ++ folder ++ "\x60 resulted in an error: " ++ error.message

/-- A path that steps of a pattern lead to. Whether it is a folder is asked only once. -/
structure Found where
  path : String
  isFolder : Bool

abbrev Expanding (m : Type → Type) := ExceptT ExpansionError m

variable {m : Type → Type} [Monad m] [Host m]

def start : String := "."

/-- Whether a path leads nowhere from the start, which paths do not mention. -/
def isStart (path : String) : Bool :=
  !Path.isAbsolute path && !path.isEmpty && (Path.steps path).isEmpty

def below (folder name : String) : String :=
  if isStart folder then name else Path.join folder name

/-- The steps of a pattern, and whether it ends with a slash. -/
def patternSteps (text : List Char) : List (List Char) × Bool :=
  let steps := Text.pieces '/' text
  if steps.getLast? = some [] then (steps.dropLast, true) else (steps, false)

def look (path : String) : Expanding m Found := do
  return ⟨path, ← ExceptT.lift (Host.isFolder path)⟩

def listing (folder : String) : Expanding m (List FolderEntry) := do
  match ← ExceptT.lift (Host.children (m := m) folder) with
  | .error error => throw (.unlisted folder error)
  | .ok entries => pure (entries.mergeSort fun entry other => entry.name ≤ other.name)

mutual

/-- The paths that the steps of a pattern lead to from a place. `fuel` bounds how deep they go. -/
def fill (foldersOnly : Bool) : (fuel : Nat) → List Pattern → Found → Expanding m (List String)
  | 0, _, _ => pure []
  | _, [], _ => pure []
  | fuel + 1, pattern :: rest, place => do
    match pattern.name? with
    | some name =>
      let next := below place.path name
      let there ←
        if name = "." ∨ name = ".." then pure place.isFolder
        else (·.isSome) <$> ExceptT.lift (Host.kind? (m := m) next)
      if there then arrive foldersOnly fuel rest (← look next) else pure []
    | none =>
      if !place.isFolder then pure []
      else
        let entries ← listing place.path
        let dotted := if pattern.head? = some (.exactly '.') then ["..", "."] else []
        let special ← (dotted.filter fun name => pattern.holds name.toList).mapM fun name => do
          arrive foldersOnly fuel rest (← look (Path.join place.path name))
        let listed ← entries.mapM fun entry =>
          visit foldersOnly fuel (pattern :: rest)
            ⟨below place.path entry.name, entry.kind = .folder⟩ entry.name
        pure (special.flatten ++ listed.flatten)

def arrive (foldersOnly : Bool) : (fuel : Nat) → List Pattern → Found → Expanding m (List String)
  | 0, _, _ => pure []
  | _, [], place => pure (if foldersOnly && !place.isFolder then [] else [place.path])
  | fuel + 1, rest, place => fill foldersOnly fuel rest place

/-- The paths that the steps lead to from a listed place, whose name the first step has to match. -/
def visit (foldersOnly : Bool) : (fuel : Nat) → List Pattern → Found → (name : String) →
    Expanding m (List String)
  | 0, _, _, _ => pure []
  | _, [], _, _ => pure []
  | fuel + 1, pattern :: rest, place, name => do
    if pattern.isRecursive then
      let further := rest.dropWhile Pattern.isRecursive
      let own ←
        match further with
        | [] => pure (if place.isFolder then [place.path] else [])
        | next :: others =>
          if next.holds name.toList then arrive foldersOnly fuel others place else pure []
      let deeper ←
        if place.isFolder then fill foldersOnly fuel (pattern :: further) place else pure []
      pure (own ++ deeper)
    else if pattern.holds name.toList then arrive foldersOnly fuel rest place
    else pure []

end

def deepestFolder : Nat := 4096

def readPattern (text : List Char) : Expanding m Pattern :=
  liftExcept ((Pattern.parse text).mapError ExpansionError.malformed)

/-- The paths that a pattern stands for. It has to make sense as a whole and step by step. -/
def expand (text : String) : Expanding m (List String) := do
  let _ ← readPattern text.toList
  let absolute := text.toList.head? = some '/'
  let (steps, foldersOnly) :=
    patternSteps (if absolute then text.toList.drop 1 else text.toList)
  let patterns ← steps.mapM readPattern
  let bound := 3 * (patterns.length + deepestFolder)
  fill foldersOnly bound patterns (← look (if absolute then "/" else start))

end ProtoSchema.Wildcard
