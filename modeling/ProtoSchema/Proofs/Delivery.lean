import ProtoSchema.CommandLine.Run
import ProtoSchema.Proofs.FileOrder
import ProtoSchema.Proofs.Storage

/-!
What becomes of documents that are delivered into a folder.
-/
namespace ProtoSchema

namespace Memory

variable {before after : Memory} {place : Place} {path : String}

/-- The action keeps all folders and the file at the place, whatever it returns. -/
def Steady {α : Type} (place : Place) (action : StateM Memory α) : Prop :=
  ∀ before, Keeps place before (action.run before).2

namespace Steady

variable {α β : Type}

theorem pure (value : α) : Steady place (Pure.pure value : StateM Memory α) := fun before => .refl place before

theorem bind {first : StateM Memory α} {next : α → StateM Memory β} (one : Steady place first)
    (two : ∀ value, Steady place (next value)) : Steady place (first >>= next) :=
  fun before => (one before).trans (two _ _)

end Steady

theorem Steady.keeps {α : Type} {action : StateM Memory α} {result : α} (steady : Steady place action)
    (ended : (action.run before).run = (result, after)) : Keeps place before after := by
  have kept := steady before
  rwa [show (action.run before).2 = after from congrArg Prod.snd ended] at kept

theorem run_makeFolder (path : String) (before : Memory) :
    (Host.makeFolder path : StateM Memory (Except StorageError Unit)).run before =
      match before.withFolder path with
      | .ok after => (.ok (), after)
      | .error reason => (.error reason, before) := by
  change StateT.run (match before.withFolder path with
    | .ok after => do set after; pure (.ok ())
    | .error reason => pure (.error reason) : StateM Memory (Except StorageError Unit)) before = _
  cases before.withFolder path <;> rfl

theorem run_write (path content : String) (before : Memory) :
    (Host.write path content : StateM Memory (Except StorageError Unit)).run before =
      match before.writeFile path content with
      | .ok after => (.ok (), after)
      | .error reason => (.error reason, before) := by
  change StateT.run (match before.writeFile path content with
    | .ok after => do set after; pure (.ok ())
    | .error reason => pure (.error reason) : StateM Memory (Except StorageError Unit)) before = _
  cases before.writeFile path content <;> rfl

theorem steady_makeFolder (place : Place) (path : String) :
    Steady place (Host.makeFolder path : StateM Memory (Except StorageError Unit)) := by
  intro before
  rw [run_makeFolder]
  cases made : before.withFolder path with
  | error reason => exact .refl place before
  | ok after => exact withFolder_keeps place made

theorem steady_isFolder (place : Place) (path : String) :
    Steady place (Host.isFolder path : StateM Memory Bool) := by
  refine Steady.bind ?_ fun kind => .pure _
  change Steady place (get >>= _)
  refine Steady.bind (fun before => .refl place before) fun memory => ?_
  split
  · exact .pure _
  · exact .pure _

theorem steady_ensureFolder (place : Place) (path : String) :
    Steady place (Host.ensureFolder path : StateM Memory (Except StorageError Unit)) := by
  refine (steady_makeFolder place path).bind fun result => ?_
  split
  · exact (steady_isFolder place path).bind fun _ => .pure _
  · exact .pure _

theorem steady_makeFolders (place : Place) (path : String) :
    Steady place (Host.makeFolders path : StateM Memory (Except StorageError Unit)) := by
  have lineage (paths : List String) :
      Steady place (Host.ensureLineage paths : StateM Memory (Except StorageError Unit)) := by
    induction paths with
    | nil => exact .pure _
    | cons path above ih =>
        refine (steady_ensureFolder place path).bind fun result => ?_
        split
        · refine ih.bind fun made => ?_
          split
          · exact steady_ensureFolder place path
          · exact .pure _
        · exact .pure _
  exact lineage (Path.lineage path)

end Memory

namespace CommandLine

open Memory (placeOf Keeps Steady)

/-- The path at which a document is written in a folder. -/
def destination (folder : String) (document : OutputFile) : String := Path.join folder document.name

/-- Documents are delivered into a folder one by one, until one of them fails. -/
def delivery (folder : String) (documents : List OutputFile) (before : Memory) :
    Except RunError Unit × Memory :=
  ((documents.forM (deliver (some folder)) : Running (StateM Memory) Unit).run.run before).run

/-- All documents are delivered into the folder. -/
def Delivers (folder : String) (documents : List OutputFile) (before after : Memory) : Prop :=
  delivery folder documents before = (.ok (), after)

theorem delivers_of_isOk {folder : String} {documents : List OutputFile} {before : Memory}
    (succeeds : (delivery folder documents before).1.isOk = true) :
    Delivers folder documents before (delivery folder documents before).2 := by
  obtain ⟨_, ended⟩ := exists_of_isOk succeeds
  exact Prod.ext ended rfl

section

variable {α β : Type} {place : Place}

theorem steady_bind {first : Running (StateM Memory) α} {next : α → Running (StateM Memory) β}
    (one : Steady place first.run) (two : ∀ value, Steady place (next value).run) :
    Steady place (first >>= next).run := by
  change Steady place (first.run >>= ExceptT.bindCont next)
  refine one.bind fun result => ?_
  cases result with
  | error failure => exact .pure _
  | ok value => exact two value

theorem steady_attempt (describe : StorageError → RunError) {action : StateM Memory (Except StorageError α)}
    (steady : Steady place action) : Steady place (attempt describe action).run := steady

theorem steady_printError (place : Place) (text : String) :
    Steady place (ExceptT.lift (Host.printError text) : Running (StateM Memory) Unit).run :=
  fun _ => ⟨fun _ => id, id, rfl⟩

theorem steady_write {path : String} (apart : placeOf path ≠ place) (content : String) :
    Steady place (Host.write path content : StateM Memory (Except StorageError Unit)) := by
  intro before
  rw [Memory.run_write]
  cases written : before.writeFile path content with
  | error reason => exact .refl place before
  | ok after => exact Memory.writeFile_keeps written apart

/-- Where it is not written, the delivery of a document changes nothing that is there. -/
theorem steady_deliver {folder : String} {document : OutputFile}
    (apart : placeOf (destination folder document) ≠ place) :
    Steady place (deliver (some folder) document : Running (StateM Memory) Unit).run :=
  steady_bind (steady_attempt _ (Memory.steady_makeFolders place folder)) fun _ =>
    steady_bind (steady_attempt _ (steady_write apart document.content)) fun _ =>
      steady_printError place _

end

variable {folder : String} {document : OutputFile} {before after : Memory}

theorem exists_of_run_ok {α β : Type} {first : Running (StateM Memory) α}
    {next : α → Running (StateM Memory) β} {value : β}
    (ended : ((first >>= next).run.run before).run = (.ok value, after)) :
    ∃ result between, (first.run.run before).run = (.ok result, between) ∧
      ((next result).run.run between).run = (.ok value, after) := by
  rw [run_bind] at ended
  split at ended
  · exact ⟨_, _, ‹_›, ended⟩
  · cases ended

theorem run_of_attempt_ok {α : Type} {describe : StorageError → RunError}
    {action : StateM Memory (Except StorageError α)} {value : α}
    (ended : ((attempt describe action : Running (StateM Memory) α).run.run before).run =
      (.ok value, after)) : action.run before = (.ok value, after) := by
  have split : (((action.run before).run.1.mapError describe, (action.run before).run.2) :
      Except RunError α × Memory) = (.ok value, after) := ended
  obtain ⟨result, same⟩ := Prod.mk.inj split
  cases shown : (action.run before).run.1 with
  | error reason =>
      rw [shown] at result
      cases result
  | ok given =>
      rw [shown] at result
      cases result
      exact Prod.ext shown same

/-- A document that is delivered can be read. -/
theorem readFile_of_deliver
    (ended : ((deliver (some folder) document : Running (StateM Memory) Unit).run.run before).run =
      (.ok (), after)) :
    after.readFile (destination folder document) = .ok document.content.toUTF8.toList := by
  obtain ⟨_, made, -, rest⟩ := exists_of_run_ok ended
  obtain ⟨_, between, wrote, told⟩ := exists_of_run_ok rest
  have written : made.writeFile (destination folder document) document.content = .ok between := by
    have ran := run_of_attempt_ok wrote
    rw [Memory.run_write] at ran
    split at ran
    · cases ran
      assumption
    · cases ran
  exact Memory.readFile_of_keeps ((steady_printError _ _).keeps told) (Memory.readFile_of_writeFile written)

theorem steady_deliveries {place : Place} {documents : List OutputFile}
    (apart : ∀ document ∈ documents, placeOf (destination folder document) ≠ place) :
    Steady place (documents.forM (deliver (some folder)) : Running (StateM Memory) Unit).run := by
  induction documents with
  | nil => exact .pure _
  | cons document rest ih =>
      have others := ih fun other later => apart other (List.mem_cons_of_mem _ later)
      exact steady_bind (steady_deliver (apart document List.mem_cons_self)) fun _ => others

/-- Of the documents that are delivered at one place, the last one is there in the end. -/
theorem readFile_of_deliveries {front rest : List OutputFile}
    (apart : ∀ later ∈ rest, placeOf (destination folder later) ≠ placeOf (destination folder document))
    (delivers : Delivers folder (front ++ document :: rest) before after) :
    after.readFile (destination folder document) = .ok document.content.toUTF8.toList := by
  induction front generalizing before with
  | nil =>
      obtain ⟨_, between, delivered, others⟩ := exists_of_run_ok delivers
      exact Memory.readFile_of_keeps ((steady_deliveries apart).keeps others)
        (readFile_of_deliver delivered)
  | cons first others ih =>
      obtain ⟨_, between, -, later⟩ := exists_of_run_ok delivers
      exact ih later

end CommandLine

end ProtoSchema
