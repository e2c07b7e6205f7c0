import ProtoSchema.Json.Scan
import ProtoSchema.Path

/-!
What the command line needs from where it runs: files, folders and two streams of text. `Memory`
provides them in a value that is passed along.
-/
namespace ProtoSchema

inductive StorageError where
  | notFound
  | alreadyExists
  | notFolder
  | isFolder
  | nameTooLong
  | nullInName
  | other (text : String)
deriving DecidableEq

def StorageError.message : StorageError → String
  | .notFound => "No such file or directory (os error 2)"
  | .alreadyExists => "File exists (os error 17)"
  | .notFolder => "Not a directory (os error 20)"
  | .isFolder => "Is a directory (os error 21)"
  | .nameTooLong => "File name too long (os error 36)"
  | .nullInName => "file name contained an unexpected NUL byte"
  | .other text => text

inductive EntryKind where
  | file
  | folder
deriving DecidableEq

structure FolderEntry where
  name : String
  kind : EntryKind
deriving DecidableEq

class Host (m : Type → Type) where
  read : (path : String) → m (Except StorageError Json.Bytes)
  write : (path content : String) → m (Except StorageError Unit)
  makeFolder : (path : String) → m (Except StorageError Unit)
  kind? : (path : String) → m (Option EntryKind)
  /-- What stands in a folder, in no particular order. -/
  children : (path : String) → m (Except StorageError (List FolderEntry))
  print : String → m Unit
  printError : String → m Unit

namespace Host

variable {m : Type → Type} [Monad m] [Host m]

def isFolder (path : String) : m Bool := return (← kind? path) = some .folder

def ensureFolder (path : String) : m (Except StorageError Unit) := do
  match ← makeFolder path with
  | .error .alreadyExists =>
    pure (if ← isFolder (m := m) path then .ok () else .error .alreadyExists)
  | result => pure result

/-- Make the first of some folders, each of which lies in the next one. The next one is made first
where it is missing. -/
def ensureLineage : (paths : List String) → m (Except StorageError Unit)
  | [] => pure (.ok ())
  | path :: above => do
    match ← ensureFolder (m := m) path with
    | .error .notFound =>
      match ← ensureLineage above with
      | .ok () => ensureFolder path
      | error => pure error
    | result => pure result

def makeFolders (path : String) : m (Except StorageError Unit) := ensureLineage (Path.lineage path)

end Host

/-! ## Files in memory -/

/-- The steps from the root down to a file or folder. -/
abbrev Place := List String

structure Memory where
  files : List (Place × Json.Bytes) := []
  folders : List Place := []
  printed : String := ""
  printedErrors : String := ""

namespace Memory

/-- The folder that relative paths start from. A path can lead out of it, and as no path spells its
name, not into it again. -/
def workingPlace : Place := [""]

/-- All places above a place, the root among them. -/
def placesAbove (place : Place) : List Place := (List.range place.length).map place.take

/-- The null device, an empty file that is always there. -/
def nullDevice : Place := ["dev", "null"]

/-- The given files below the working folder and the null device, in folders made for them. -/
def ofFiles (files : List (String × Json.Bytes)) : Memory :=
  let given := files.map fun (path, content) => (workingPlace ++ Path.steps path, content)
  let placed := given ++ [(nullDevice, [])]
  { files := placed, folders := workingPlace :: placed.flatMap fun (place, _) => placesAbove place }

def contents (memory : Memory) : List (String × Json.Bytes) :=
  memory.files.filterMap fun (place, content) =>
    match place with
    | "" :: steps => some (String.intercalate "/" steps, content)
    | _ => none

def kindAt? (memory : Memory) (place : Place) : Option EntryKind :=
  if place = [] ∨ place ∈ memory.folders then some .folder
  else if (memory.files.lookup place).isSome then some .file
  else none

def longestName : Nat := 255

def longestPath : Nat := 4095

/-- Follow the names of a path from a place. Every place that is left has to be a folder; the root
is the folder above itself. -/
def follow (memory : Memory) (place : Place) : List String → Except StorageError Place
  | [] => .ok place
  | name :: rest =>
    match memory.kindAt? place with
    | none => .error .notFound
    | some .file => .error .notFolder
    | some .folder =>
      if name = "" ∨ name = "." then follow memory place rest
      else if name = ".." then follow memory place.dropLast rest
      else if longestName < name.utf8ByteSize then .error .nameTooLong
      else follow memory (place ++ [name]) rest

/-- The text of a path is checked before any of its names is looked up. -/
def checkPath (path : String) : Except StorageError Unit :=
  if path.toList.any (·.toNat = 0) then .error .nullInName
  else if path.isEmpty then .error .notFound
  else if longestPath < path.utf8ByteSize then .error .nameTooLong
  else .ok ()

def origin (path : String) : Place := if Path.isAbsolute path then [] else workingPlace

def locate (memory : Memory) (path : String) : Except StorageError Place := do
  checkPath path
  memory.follow (origin path) (Path.names path)

def readFile (memory : Memory) (path : String) : Except StorageError Json.Bytes := do
  let place ← memory.locate path
  match memory.kindAt? place, memory.files.lookup place with
  | some .folder, _ => .error .isFolder
  | _, some content => .ok content
  | _, none => .error .notFound

def writeFile (memory : Memory) (path content : String) : Except StorageError Memory := do
  let place ← memory.locate path
  match memory.kindAt? place with
  | some .folder => .error .isFolder
  | _ =>
    let others := memory.files.filter fun (other, _) => other ≠ place
    .ok { memory with files := others ++ [(place, content.toUTF8.toList)] }

/-- Make a folder in a folder that is there. Slashes at the end of its path do not count. -/
def withFolder (memory : Memory) (path : String) : Except StorageError Memory := do
  checkPath path
  let place ← memory.follow (origin path) (Path.names (Path.trimSlashes path))
  match memory.kindAt? place with
  | some _ => .error .alreadyExists
  | none => .ok { memory with folders := memory.folders ++ [place] }

/-- What stands in a folder. The working folder has no name by which the root could list it. -/
def childrenAt (memory : Memory) (place : Place) : List FolderEntry :=
  let children (others : List Place) : List String :=
    (others.filter fun other =>
        other ≠ [] ∧ other ≠ workingPlace ∧ other.dropLast = place).filterMap (·.getLast?)
      |>.eraseDups
  (children memory.folders).map (⟨·, .folder⟩)
    ++ (children (memory.files.map (·.1))).map (⟨·, .file⟩)

def readFolder (memory : Memory) (path : String) : Except StorageError (List FolderEntry) := do
  let place ← memory.locate path
  match memory.kindAt? place with
  | some .folder => .ok (memory.childrenAt place)
  | some .file => .error .notFolder
  | none => .error .notFound

private def update (result : Memory → Except StorageError Memory) :
    StateM Memory (Except StorageError Unit) := do
  match result (← get) with
  | .ok memory => set memory; pure (.ok ())
  | .error error => pure (.error error)

instance : Host (StateM Memory) where
  read path := return (← get).readFile path
  write path content := update fun memory => memory.writeFile path content
  makeFolder path := update fun memory => memory.withFolder path
  kind? path := do
    let memory ← get
    match memory.locate path with
    | .ok place => pure (memory.kindAt? place)
    | .error _ => pure none
  children path := return (← get).readFolder path
  print text := modify fun memory => { memory with printed := memory.printed ++ text }
  printError text :=
    modify fun memory => { memory with printedErrors := memory.printedErrors ++ text }

end Memory

end ProtoSchema
