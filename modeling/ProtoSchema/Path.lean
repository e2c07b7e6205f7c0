import ProtoSchema.Text.Split

/-!
Paths of files: names of folders and files with slashes between them. An empty name and a point
stand for no step at all, two points for the step to the folder above.
-/
namespace ProtoSchema.Path

def names (path : String) : List String := (Text.pieces '/' path.toList).map String.ofList

/-- The steps of a path, without those that lead nowhere. -/
def steps (path : String) : List String :=
  (names path).filter fun name => name ≠ "" ∧ name ≠ "."

def isAbsolute (path : String) : Bool := path.toList.head? = some '/'

/-- The name at the end of a path, unless the path ends with a step upwards or has no step. -/
def fileName? (path : String) : Option String :=
  match (steps path).getLast? with
  | some name => if name = ".." then none else some name
  | none => none

/-- A file name without what follows its last point. A point at the start of the name does not
count. -/
def withoutExtension (name : String) : String :=
  match Text.cutAt? '.' name.toList.reverse with
  | some (_, before) => if before.isEmpty then name else String.ofList before.reverse
  | none => name

/-- The file name of a path without its extension; a path without a file name stands for itself. -/
def stem (path : String) : String :=
  match fileName? path with
  | some name => withoutExtension name
  | none => path

/-- The path of a file in a folder. An absolute path stays as it is. -/
def join (folder name : String) : String :=
  if isAbsolute name || folder.isEmpty then name
  else if folder.toList.getLast? = some '/' then folder ++ name
  else folder ++ "/" ++ name

def trimSlashes (path : String) : String :=
  String.ofList (path.toList.reverse.dropWhile (· = '/')).reverse

/-- A path, followed by the paths of all folders above it from the nearest to the outermost. -/
def lineage (path : String) : List String :=
  let steps := steps path
  let outer (count : Nat) : String :=
    (if isAbsolute path then "/" else "") ++ String.intercalate "/" (steps.take count)
  path :: ((List.range steps.length).reverse.filter (0 < ·)).map outer

end ProtoSchema.Path
