import ProtoSchema.CommandLine.Host
import ProtoSchema.Proofs.Deriving

/-!
Files in memory. A path leads to one place, whatever is stored; and a file stays what it is while folders
are made and files are written at other places.
-/
namespace ProtoSchema.Memory

/-! ## Places of paths -/

/-- Where names lead from a place, when all folders on the way are there. -/
def landing (place : Place) : List String → Place
  | [] => place
  | name :: rest =>
    if name = "" ∨ name = "." then landing place rest
    else if name = ".." then landing place.dropLast rest
    else landing (place ++ [name]) rest

/-- The place that a path leads to. -/
def placeOf (path : String) : Place := landing (origin path) (Path.names path)

variable {memory before after : Memory} {place : Place} {path : String}

theorem landing_append (place : Place) (front behind : List String) :
    landing place (front ++ behind) = landing (landing place front) behind := by
  induction front generalizing place with
  | nil => rfl
  | cons name rest ih =>
      simp only [List.cons_append, landing]
      split
      · exact ih place
      · split <;> exact ih _

theorem follow_eq_landing {names : List String} {reached : Place}
    (followed : memory.follow place names = .ok reached) : reached = landing place names := by
  induction names generalizing place with
  | nil =>
      cases followed
      rfl
  | cons name rest ih =>
      unfold follow at followed
      unfold landing
      split at followed
      · cases followed
      · cases followed
      · split at followed
        · rw [if_pos ‹_›]
          exact ih followed
        · rw [if_neg ‹_›]
          split at followed
          · rw [if_pos ‹_›]
            exact ih followed
          · rw [if_neg ‹_›]
            split at followed
            · cases followed
            · exact ih followed

theorem locate_eq_placeOf (located : memory.locate path = .ok place) : place = placeOf path := by
  unfold locate at located
  cases checked : checkPath path with
  | error reason =>
      rw [checked] at located
      cases located
  | ok =>
      rw [checked] at located
      exact follow_eq_landing located

/-! ## What stays -/

/-- All folders are still there, and so is the file at the place, with its content. -/
structure Keeps (place : Place) (before after : Memory) : Prop where
  folders : ∀ other, before.kindAt? other = some .folder → after.kindAt? other = some .folder
  file : before.kindAt? place = some .file → after.kindAt? place = some .file
  content : after.files.lookup place = before.files.lookup place

theorem Keeps.refl (place : Place) (memory : Memory) : Keeps place memory memory :=
  ⟨fun _ => id, id, rfl⟩

theorem Keeps.trans {between : Memory} (first : Keeps place before between)
    (second : Keeps place between after) : Keeps place before after where
  folders other there := second.folders other (first.folders other there)
  file there := second.file (first.file there)
  content := second.content.trans first.content

theorem follow_keeps (folders : ∀ other, before.kindAt? other = some .folder →
      after.kindAt? other = some .folder) {names : List String} {reached : Place}
    (followed : before.follow place names = .ok reached) : after.follow place names = .ok reached := by
  induction names generalizing place with
  | nil => exact followed
  | cons name rest ih =>
      unfold follow at followed ⊢
      cases kind : before.kindAt? place with
      | none =>
          rw [kind] at followed
          cases followed
      | some entry =>
          cases entry with
          | file =>
              rw [kind] at followed
              cases followed
          | folder =>
              rw [kind] at followed
              rw [folders place kind]
              dsimp only at followed ⊢
              split at followed
              · rw [if_pos ‹_›]
                exact ih followed
              · rw [if_neg ‹_›]
                split at followed
                · rw [if_pos ‹_›]
                  exact ih followed
                · rw [if_neg ‹_›]
                  split at followed
                  · cases followed
                  · rw [if_neg ‹_›]
                    exact ih followed

theorem kindAt?_eq_folder_iff :
    memory.kindAt? place = some .folder ↔ place = [] ∨ place ∈ memory.folders := by
  unfold kindAt?
  split
  · simpa
  · rename_i other
    rw [iff_false_right other]
    split <;> simp

theorem kindAt?_of_held {content : Json.Bytes} (held : memory.files.lookup place = some content)
    (other : memory.kindAt? place ≠ some .folder) : memory.kindAt? place = some .file := by
  unfold kindAt? at other ⊢
  split
  · exact absurd (if_pos ‹_›) other
  · rw [held]
    rfl

/-- A file that can be read is at the place of its path. -/
theorem readFile_ok_iff {content : Json.Bytes} :
    memory.readFile path = .ok content ↔ memory.locate path = .ok (placeOf path) ∧
      memory.kindAt? (placeOf path) = some .file ∧ memory.files.lookup (placeOf path) = some content := by
  constructor
  · intro read
    obtain ⟨place, located, opened⟩ := exists_of_bind_ok read
    cases locate_eq_placeOf located
    split at opened
    · cases opened
    · rename_i held notFolder
      cases opened
      exact ⟨located, kindAt?_of_held held notFolder, held⟩
    · cases opened
  · rintro ⟨located, kind, held⟩
    simp [readFile, located, kind, held, bind, Except.bind]

theorem locate_keeps (folders : ∀ other, before.kindAt? other = some .folder →
      after.kindAt? other = some .folder) (located : before.locate path = .ok place) :
    after.locate path = .ok place := by
  obtain ⟨_, checked, followed⟩ := exists_of_bind_ok located
  unfold locate
  rw [checked]
  exact follow_keeps folders followed

theorem readFile_of_keeps {content : Json.Bytes} (keeps : Keeps (placeOf path) before after)
    (read : before.readFile path = .ok content) : after.readFile path = .ok content := by
  obtain ⟨located, kind, held⟩ := readFile_ok_iff.1 read
  exact readFile_ok_iff.2
    ⟨locate_keeps keeps.folders located, keeps.file kind, keeps.content.trans held⟩

/-! ## Making folders and writing files -/

theorem withFolder_keeps (place : Place) (made : before.withFolder path = .ok after) :
    Keeps place before after := by
  obtain ⟨_, -, rest⟩ := exists_of_bind_ok made
  obtain ⟨added, -, ended⟩ := exists_of_bind_ok rest
  split at ended
  · cases ended
  · rename_i free
    cases ended
    have kept (other : Place) (kind : EntryKind) (there : before.kindAt? other = some kind) :
        ({ before with folders := before.folders ++ [added] } : Memory).kindAt? other = some kind := by
      have apart : other ≠ added := by
        rintro rfl
        cases there.symm.trans free
      unfold kindAt? at there ⊢
      simpa [List.mem_append, apart] using there
    exact ⟨fun other => kept other .folder, kept place .file, rfl⟩

theorem lookup_replaced (files : List (Place × Json.Bytes)) (place other : Place) (content : Json.Bytes) :
    ((files.filter fun (taken, _) => taken ≠ place) ++ [(place, content)]).lookup other =
      if other = place then some content else files.lookup other := by
  induction files with
  | nil =>
      by_cases same : other = place
      · simp [same]
      · simp [same, List.lookup_cons, beq_false_of_ne same]
  | cons entry rest ih =>
      obtain ⟨taken, held⟩ := entry
      by_cases replaced : taken = place
      · subst replaced
        rw [List.filter_cons_of_neg (by simp), ih]
        by_cases same : other = taken
        · simp [same]
        · simp [same, List.lookup_cons, beq_false_of_ne same]
      · rw [List.filter_cons_of_pos (by simpa using replaced), List.cons_append, List.lookup_cons, ih]
        by_cases same : other = taken
        · subst same
          simp [replaced]
        · simp [List.lookup_cons, beq_false_of_ne same]

variable {content : String}

/-- What a file is written to is the place of its path, and everything else stays. -/
theorem writeFile_ok (written : before.writeFile path content = .ok after) :
    before.locate path = .ok (placeOf path) ∧ before.kindAt? (placeOf path) ≠ some .folder ∧
      after.folders = before.folders ∧ ∀ other, after.files.lookup other =
        if other = placeOf path then some content.toUTF8.toList else before.files.lookup other := by
  obtain ⟨place, located, ended⟩ := exists_of_bind_ok written
  cases locate_eq_placeOf located
  split at ended
  · cases ended
  · rename_i notFolder
    cases ended
    exact ⟨located, notFolder, rfl, fun other => lookup_replaced _ _ _ _⟩

theorem folder_iff_of_writeFile (written : before.writeFile path content = .ok after) (other : Place) :
    after.kindAt? other = some .folder ↔ before.kindAt? other = some .folder := by
  obtain ⟨-, -, folders, -⟩ := writeFile_ok written
  rw [kindAt?_eq_folder_iff, kindAt?_eq_folder_iff, folders]

theorem writeFile_keeps (written : before.writeFile path content = .ok after)
    (apart : placeOf path ≠ place) : Keeps place before after := by
  obtain ⟨-, -, folders, held⟩ := writeFile_ok written
  refine ⟨fun other => (folder_iff_of_writeFile written other).2, fun file => ?_,
    by rw [held, if_neg (Ne.symm apart)]⟩
  unfold kindAt? at file ⊢
  rw [folders, held, if_neg (Ne.symm apart)]
  exact file

theorem readFile_of_writeFile (written : before.writeFile path content = .ok after) :
    after.readFile path = .ok content.toUTF8.toList := by
  obtain ⟨located, notFolder, folders, held⟩ := writeFile_ok written
  have here := (held (placeOf path)).trans (if_pos rfl)
  refine readFile_ok_iff.2 ⟨locate_keeps (fun other => (folder_iff_of_writeFile written other).2) located,
    kindAt?_of_held here ?_, here⟩
  rwa [Ne, folder_iff_of_writeFile written]

end ProtoSchema.Memory
