import ProtoSchema.CommandLine.Run

/-!
The program: the command line on the files and streams of the process.
-/
namespace ProtoSchema

/-- A path seen from the current folder. -/
private def entryAt (path : String) : IO.FS.DirEntry := ⟨".", path⟩

private def storageError : IO.Error → StorageError
  | .noFileOrDirectory .. => .notFound
  | .alreadyExists .. => .alreadyExists
  | error => .other (toString error)

private def attempted {α : Type} (action : IO α) : IO (Except StorageError α) := do
  match ← action.toBaseIO with
  | .ok value => pure (.ok value)
  | .error error => pure (.error (storageError error))

instance : Host IO where
  read path := do
    if ← (entryAt path).path.isDir then pure (.error .isFolder)
    else (·.map (·.toList)) <$> attempted (IO.FS.readBinFile (entryAt path).path)
  write path content := attempted (IO.FS.writeFile (entryAt path).path content)
  makeFolder path := attempted (IO.FS.createDir (entryAt path).path)
  kind? path := do
    if ← (entryAt path).path.isDir then pure (some .folder)
    else if ← (entryAt path).path.pathExists then pure (some .file)
    else pure none
  children path := do
    match ← attempted (entryAt path).path.readDir with
    | .error error => pure (.error error)
    | .ok entries => (.ok <$> ·) <| entries.toList.mapM fun entry => do
      return ⟨entry.fileName, if ← entry.path.isDir then .folder else .file⟩
  print := IO.print
  printError := IO.eprint

end ProtoSchema

def main (arguments : List String) : IO UInt32 := do
  pure (UInt32.ofNat (← ProtoSchema.CommandLine.run arguments))
