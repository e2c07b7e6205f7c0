import Mathlib.Data.List.Sort
import ProtoSchema.Proofs.DocumentCoverage

/-!
The order of the files that documents are for. A plan lists what its files declare by name, so it is the
same for any order of these files and any repetition; the comment of the first file alone goes into a
title.
-/
namespace ProtoSchema

open List (Forall₂)

/-- Entries that ascend are the same where the same are among them. -/
theorem Entries.Ascending.eq_of_mem_iff {α : Type} {one two : List (String × α)} (first : Ascending one)
    (second : Ascending two) (same : ∀ entry, entry ∈ one ↔ entry ∈ two) : one = two := by
  have irreflexive : Std.Irrefl fun one two : String × α => one.1 < two.1 := ⟨fun _ => lt_irrefl _⟩
  have asymmetric : Std.Antisymm fun one two : String × α => one.1 < two.1 :=
    ⟨fun _ _ before behind => absurd behind before.asymm⟩
  exact List.Pairwise.eq_of_mem_iff first second same

/-- Both ends are failures, and the same, or both are values, and related. -/
inductive EndAlike {α β : Type} (related : α → β → Prop) : Except Failure α → Except Failure β → Prop
  | error (failure : Failure) : EndAlike related (.error failure) (.error failure)
  | ok {one : α} {two : β} : related one two → EndAlike related (.ok one) (.ok two)

theorem endAlike_eq_iff {α : Type} {one two : Except Failure α} :
    EndAlike Eq one two ↔ one = two := by
  constructor
  · rintro (failure | rfl)
    · rfl
    · rfl
  · rintro rfl
    cases one with
    | error failure => exact .error failure
    | ok value => exact .ok rfl

section

variable {α β γ δ : Type} {related : γ → δ → Prop} {planned : α → β → Prop}
  {perform : α → Reported γ} {act : β → Reported δ} {steps : List α} {others : List β}

/-- Steps in a row end alike if every two steps do, whatever was reported before. -/
theorem EndAlike.mapM (each : ∀ step other, planned step other → ∀ events later,
      EndAlike related ((perform step).runFrom events).1 ((act other).runFrom later).1)
    (all : Forall₂ planned steps others) (events later : List Event) :
    EndAlike (Forall₂ related) ((steps.mapM perform).runFrom events).1
      ((others.mapM act).runFrom later).1 := by
  induction all generalizing events later with
  | nil => exact .ok .nil
  | @cons step other rest remaining first _ ih =>
      have here := each step other first events later
      rw [List.mapM_cons, List.mapM_cons, Reported.runFrom_bind, Reported.runFrom_bind]
      generalize (perform step).runFrom events = left at here ⊢
      generalize (act other).runFrom later = right at here ⊢
      obtain ⟨left, events⟩ := left
      obtain ⟨right, later⟩ := right
      cases here with
      | error failure => exact .error failure
      | ok alike =>
          have there := ih events later
          simp only [Reported.runFrom_bind]
          generalize (rest.mapM perform).runFrom events = left at there ⊢
          generalize (remaining.mapM act).runFrom later = right at there ⊢
          obtain ⟨left, events⟩ := left
          obtain ⟨right, later⟩ := right
          cases there with
          | error failure => exact .error failure
          | ok tail => exact .ok (.cons alike tail)

end

namespace Plan

variable {model : Model} {settings : Settings} {files others : List File} {one two : Plan}

/-! ## Plans for the same files -/

/-- The plans are for one set of declarations, and differ in their titles and services at most. -/
structure Alike (one two : Plan) : Prop where
  name : one.name = two.name
  version : one.version = two.version
  messages : one.messages = two.messages
  enums : one.enums = two.enums

theorem byName_ascending (declared : List (String × Nat)) : Entries.Ascending (byName declared) :=
  Entries.Ascending.foldl_putSorted List.Pairwise.nil declared

theorem ofFiles_alike (apart : model.NamesApart) (same : ∀ file, file ∈ files ↔ file ∈ others)
    (label title other version : String) :
    (ofFiles model label title version files).Alike (ofFiles model label other version others) where
  name := rfl
  version := rfl
  messages := by
    refine Entries.Ascending.eq_of_mem_iff (byName_ascending _) (byName_ascending _) fun ⟨name, id⟩ => ?_
    exact (mem_messages_ofFiles apart).trans
      (.trans (by simp only [same]) (mem_messages_ofFiles apart).symm)
  enums := by
    refine Entries.Ascending.eq_of_mem_iff (byName_ascending _) (byName_ascending _) fun ⟨name, id⟩ => ?_
    exact (mem_enums_ofFiles apart).trans (.trans (by simp only [same]) (mem_enums_ofFiles apart).symm)

theorem perPackage_alike (apart : model.NamesApart) (same : ∀ file, file ∈ files ↔ file ∈ others)
    (packages : List String) :
    Forall₂ Alike
      (packages.filterMap fun package =>
        match files.filter (·.package = package) with
        | [] => none
        | first :: rest => some (perPackage model settings first (first :: rest)))
      (packages.filterMap fun package =>
        match others.filter (·.package = package) with
        | [] => none
        | first :: rest => some (perPackage model settings first (first :: rest))) := by
  induction packages with
  | nil => exact .nil
  | cons package rest ih =>
      have group : ∀ file, file ∈ files.filter (·.package = package) ↔
          file ∈ others.filter (·.package = package) := by
        intro file
        rw [List.mem_filter, List.mem_filter, same]
      have named : ∀ file ∈ others.filter (·.package = package), file.package = package :=
        fun file member => by simpa using (List.mem_filter.1 member).2
      rw [List.filterMap_cons, List.filterMap_cons]
      generalize files.filter (·.package = package) = left at group ⊢
      generalize others.filter (·.package = package) = right at group named ⊢
      rcases left with _ | ⟨first, left⟩
      · rcases right with _ | ⟨second, right⟩
        · exact ih
        · cases (group second).2 List.mem_cons_self
      · rcases right with _ | ⟨second, right⟩
        · cases (group first).1 List.mem_cons_self
        · refine .cons ?_ ih
          unfold perPackage
          rw [named first ((group first).1 List.mem_cons_self), named second List.mem_cons_self]
          exact ofFiles_alike apart group package _ _ (versionOf package)

theorem packages_eq (same : ∀ file, file ∈ files ↔ file ∈ others) :
    (files.map (·.package)).eraseDups.mergeSort = (others.map (·.package)).eraseDups.mergeSort := by
  refine List.Pairwise.eq_of_mem_iff (packages_ascending files) (packages_ascending others) fun package => ?_
  simp only [List.mem_mergeSort, List.mem_eraseDups, List.mem_map, same]

/-! ## What is written -/

theorem write_eq (plan : Plan) (events : List Event) :
    ((plan.write model settings).runFrom events).1 =
      (((plan.derivation model settings).componentSchemas plan).runFrom {}).1.map fun schemas =>
        { name := plan.fileName settings
          content := Document.text { title := plan.title, version := plan.version, schemas }
            settings.yaml } := by
  rw [write_runFrom, document_runFrom]
  cases (((plan.derivation model settings).componentSchemas plan).runFrom {}).1 <;> rfl

theorem Alike.components (alike : one.Alike two) :
    (one.derivation model settings).componentSchemas one =
      (two.derivation model settings).componentSchemas two := by
  unfold Derivation.componentSchemas Derivation.messageComponents Derivation.enumComponents derivation
  rw [alike.messages, alike.enums]

theorem Alike.fileName (alike : one.Alike two) : one.fileName settings = two.fileName settings := by
  unfold Plan.fileName
  rw [alike.name]

theorem Alike.write_eq (alike : one.Alike two) (titled : one.title = two.title) (events later : List Event) :
    ((one.write model settings).runFrom events).1 = ((two.write model settings).runFrom later).1 := by
  rw [Plan.write_eq, Plan.write_eq, alike.components, alike.fileName, alike.version, titled]

end Plan

/-- The outputs hold documents that differ in their titles at most. -/
def OutputFile.SameButTitle (yaml : Bool) (one two : OutputFile) : Prop :=
  one.name = two.name ∧ ∃ (document : Document) (title : String),
    one.content = document.text yaml ∧ two.content = Document.text { document with title } yaml

theorem Plan.Alike.write_alike {model : Model} {settings : Settings} {one two : Plan}
    (alike : one.Alike two) (events later : List Event) :
    EndAlike (OutputFile.SameButTitle settings.yaml) ((one.write model settings).runFrom events).1
      ((two.write model settings).runFrom later).1 := by
  rw [Plan.write_eq, Plan.write_eq, alike.components, alike.fileName, alike.version]
  cases (((two.derivation model settings).componentSchemas two).runFrom {}).1 with
  | error failure => exact .error failure
  | ok schemas => exact .ok ⟨rfl, { title := one.title, version := two.version, schemas }, two.title, rfl, rfl⟩

namespace Model

variable {model : Model} {settings : Settings} {one two : List String} {files others : List File}

theorem exists_filesNamed (known : ∀ name ∈ one, ∃ file, model.file? name = some file) :
    ∃ files, model.filesNamed one = .ok files := by
  induction one with
  | nil => exact ⟨[], rfl⟩
  | cons name rest ih =>
      obtain ⟨file, found⟩ := known name List.mem_cons_self
      obtain ⟨files, later⟩ := ih fun other member => known other (List.mem_cons_of_mem _ member)
      exact ⟨file :: files, by rw [filesNamed_cons, found, later]; rfl⟩

theorem mem_of_filesNamed (known : model.filesNamed one = .ok files) (file : File) :
    file ∈ files ↔ ∃ name ∈ one, model.file? name = some file := by
  have all := forall₂_of_filesNamed known
  constructor
  · exact exists_left_of_mem all
  · rintro ⟨name, member, found⟩
    obtain ⟨other, listed, shown⟩ := exists_right_of_mem all member
    cases found.symm.trans shown
    exact listed

/-- The documents of known files do not depend on the order of these files, nor on how often one is
named: a single document is the same, and documents of packages are the same up to their titles. -/
theorem documents_of_same_files (apart : model.NamesApart)
    (known : ∀ name ∈ one, ∃ file, model.file? name = some file)
    (same : ∀ name, name ∈ one ↔ name ∈ two) (events later : List Event) :
    (settings.grouping = .singleFile →
      ((model.documents settings one).runFrom events).1 =
        ((model.documents settings two).runFrom later).1) ∧
    (settings.grouping = .perPackage →
      EndAlike (Forall₂ (OutputFile.SameButTitle settings.yaml))
        ((model.documents settings one).runFrom events).1
        ((model.documents settings two).runFrom later).1) := by
  obtain ⟨files, first⟩ := exists_filesNamed known
  obtain ⟨others, second⟩ := exists_filesNamed fun name member => known name ((same name).2 member)
  have members : ∀ file, file ∈ files ↔ file ∈ others := by
    intro file
    simp only [mem_of_filesNamed first, mem_of_filesNamed second, same]
  rw [documents_of_known first, documents_of_known second]
  unfold Plan.all
  constructor
  · intro single
    rw [single]
    have plans : Forall₂ (fun one two => one.Alike two ∧ one.title = two.title)
        [Plan.singleFile model files] [Plan.singleFile model others] :=
      .cons ⟨Plan.ofFiles_alike apart members _ _ _ _, rfl⟩ .nil
    refine endAlike_eq_iff.1 ?_
    rw [← List.forall₂_eq_eq_eq]
    exact EndAlike.mapM (fun _ _ planned events later =>
      endAlike_eq_iff.2 (planned.1.write_eq planned.2 events later)) plans events later
  · intro packages
    rw [packages]
    dsimp only
    rw [Plan.packages_eq members]
    exact EndAlike.mapM (fun _ _ alike => alike.write_alike) (Plan.perPackage_alike apart members _) events later

end Model

/-- Two files of one package, described in different words. -/
def Model.allotment : Model where
  files := [
    { name := "bed.proto"
      package := "garden"
      packageComment := " Beds"
      messages := [0]
      enums := []
      services := [] },
    { name := "shed.proto"
      package := "garden"
      packageComment := " Sheds"
      messages := [1]
      enums := []
      services := ["garden.Keys"] }]
  messages := [
    { Message.holding "Bed" [.ofKind "name" .string none] with package := "garden" },
    { Message.holding "Shed" [.holding "bed" 0] with package := "garden" }]
  enums := []

theorem Model.documents_of_same_files_allotment :
    allotment.NamesApart ∧
      ((allotment.documents { grouping := .singleFile } ["bed.proto", "shed.proto"]).runFrom []).1 =
        ((allotment.documents { grouping := .singleFile }
          ["shed.proto", "bed.proto", "shed.proto"]).runFrom []).1 ∧
      EndAlike (Forall₂ (OutputFile.SameButTitle false))
        ((allotment.documents {} ["bed.proto", "shed.proto"]).runFrom []).1
        ((allotment.documents {} ["shed.proto", "bed.proto", "shed.proto"]).runFrom []).1 ∧
      ((allotment.documents {} ["bed.proto", "shed.proto"]).runFrom []).1.toOption ≠
        ((allotment.documents {} ["shed.proto", "bed.proto", "shed.proto"]).runFrom []).1.toOption := by
  have apart : allotment.NamesApart := by
    unfold NamesApart
    decide +kernel
  have known : ∀ name ∈ ["bed.proto", "shed.proto"], ∃ file, allotment.file? name = some file := by
    simp [file?, allotment]
  have same (name : String) :
      name ∈ ["bed.proto", "shed.proto"] ↔ name ∈ ["shed.proto", "bed.proto", "shed.proto"] := by
    simp only [List.mem_cons, List.not_mem_nil, or_false]
    tauto
  exact ⟨apart, (documents_of_same_files apart known same [] []).1 rfl,
    (@documents_of_same_files allotment {} _ _ apart known same [] []).2 rfl, by decide +kernel⟩

end ProtoSchema
