import ProtoSchema.Proofs.Delivery

/-!
Names of documents. Documents of packages have names of their own, and documents of files have names of
their own where the stems of the files differ; documents with plain names of their own are all there after
they are delivered into one folder: `documents_delivered`.
-/
namespace ProtoSchema

/-! ## Plain names in a folder -/

section

variable {folder name : String}

theorem Text.pieces_of_plain (plain : '/' ∉ name.toList) : pieces '/' name.toList = [name.toList] :=
  List.splitOnP_eq_singleton fun c member => by
    simpa using fun same : c = '/' => plain (same ▸ member)

namespace Path

theorem names_of_plain (plain : '/' ∉ name.toList) : names name = [name] := by
  rw [names, Text.pieces_of_plain plain]
  simp

theorem names_append (front : String) (plain : '/' ∉ name.toList) :
    names (front ++ "/" ++ name) = names front ++ [name] := by
  have whole : Text.pieces '/' (front ++ "/" ++ name).toList =
      Text.pieces '/' front.toList ++ [name.toList] := by
    rw [← Text.pieces_of_plain plain, String.toList_append, String.toList_append, List.append_assoc]
    exact List.splitOnP_append_cons _ _ rfl
  rw [names, names, whole]
  simp

theorem not_absolute_of_plain (plain : '/' ∉ name.toList) : isAbsolute name = false := by
  refine decide_eq_false fun first => plain ?_
  exact List.mem_of_mem_head? first

theorem isAbsolute_append (front name : String) :
    isAbsolute (front ++ "/" ++ name) = isAbsolute (front ++ "/") := by
  have filled : (front ++ "/").toList ≠ [] := by simp
  unfold isAbsolute
  rw [String.toList_append, List.head?_append_of_ne_nil _ filled]

/-- In a folder, plain names follow one and the same path. -/
theorem exists_front_of_folder (filled : folder.isEmpty = false) :
    ∃ front, ∀ name : String, '/' ∉ name.toList → join folder name = front ++ "/" ++ name := by
  by_cases ended : folder.toList.getLast? = some '/'
  · obtain ⟨front, whole⟩ := List.getLast?_eq_some_iff.1 ended
    refine ⟨String.ofList front, fun name plain => ?_⟩
    rw [join, not_absolute_of_plain plain, filled, if_neg (by simp), if_pos ended]
    rw [← String.toList_inj]
    simp [whole]
  · refine ⟨folder, fun name plain => ?_⟩
    rw [join, not_absolute_of_plain plain, filled, if_neg (by simp), if_neg ended]

end Path

namespace Memory

/-- The name is that of a file in the folder at hand, wherever that is. -/
structure Plain (name : String) : Prop where
  noSlash : '/' ∉ name.toList
  noStep : name ≠ "" ∧ name ≠ "." ∧ name ≠ ".."

theorem landing_concat (place : Place) (front : List String) (plain : Plain name) :
    landing place (front ++ [name]) = landing place front ++ [name] := by
  obtain ⟨real, here, up⟩ := plain.noStep
  rw [landing_append, landing, if_neg (by simp [real, here]), if_neg up, landing]

/-- Plain names in a folder lead to places in one and the same folder. -/
theorem exists_place_of_folder (folder : String) :
    ∃ place, ∀ name, Plain name → placeOf (Path.join folder name) = place ++ [name] := by
  cases filled : folder.isEmpty with
  | true =>
      refine ⟨workingPlace, fun name plain => ?_⟩
      have relative := Path.not_absolute_of_plain plain.noSlash
      rw [Path.join, relative, filled, if_pos (by rfl), placeOf, origin, relative,
        Path.names_of_plain plain.noSlash]
      exact landing_concat workingPlace [] plain
  | false =>
      obtain ⟨front, joined⟩ := Path.exists_front_of_folder filled
      refine ⟨landing (origin (front ++ "/")) (Path.names front), fun name plain => ?_⟩
      have same : origin (front ++ "/" ++ name) = origin (front ++ "/") := by
        rw [origin, origin, Path.isAbsolute_append]
      rw [joined name plain.noSlash, placeOf, same, Path.names_append front plain.noSlash]
      exact landing_concat _ _ plain

end Memory

end

/-- Documents with plain names of their own are all there after their delivery. -/
theorem CommandLine.readFile_of_plain_deliveries {folder : String} {documents : List OutputFile}
    {before after : Memory} (unique : (documents.map (·.name)).Nodup)
    (plain : ∀ document ∈ documents, Memory.Plain document.name)
    (delivers : Delivers folder documents before after) {document : OutputFile}
    (member : document ∈ documents) :
    after.readFile (destination folder document) = .ok document.content.toUTF8.toList := by
  obtain ⟨front, rest, rfl⟩ := List.append_of_mem member
  obtain ⟨place, places⟩ := Memory.exists_place_of_folder folder
  refine readFile_of_deliveries (fun later behind same => ?_) delivers
  have listed : later ∈ front ++ document :: rest :=
    List.mem_append_right _ (List.mem_cons_of_mem _ behind)
  rw [destination, destination, places _ (plain later listed), places _ (plain document member)] at same
  rw [List.map_append, List.map_cons, List.nodup_append, List.nodup_cons] at unique
  refine unique.2.1.1 (List.mem_map.2 ⟨later, behind, ?_⟩)
  exact List.singleton_inj.1 (List.append_cancel_left same)

/-! ## Names of documents -/

namespace Plan

variable {settings : Settings}

theorem fileName_injective (settings : Settings) :
    Function.Injective fun name => name ++ "." ++ settings.fileExtension := by
  intro one two same
  have lists := congrArg String.toList same
  simp only [String.toList_append, List.append_assoc, List.append_cancel_right_eq] at lists
  exact String.toList_inj.1 lists

/-- The name of a document ends like a file of its kind. -/
theorem plain_fileName {plan : Plan} (noSlash : '/' ∉ (plan.fileName settings).toList) :
    Memory.Plain (plan.fileName settings) := by
  have long : 2 < (plan.fileName settings).toList.length := by
    unfold fileName Settings.fileExtension
    cases settings.yaml <;> simp
  refine ⟨noSlash, ?_, ?_, ?_⟩ <;> intro same <;> rw [same] at long <;> exact absurd long (by decide)

theorem nodup_map_filterMap {α β : Type} {name : β → α} {make : α → Option β} {keys : List α}
    (named : ∀ key value, make key = some value → name value = key) (unique : keys.Nodup) :
    ((keys.filterMap make).map name).Nodup := by
  rw [List.Nodup, List.pairwise_map, List.pairwise_filterMap]
  refine unique.imp fun {before key} apart value first other second => ?_
  rw [named _ _ first, named _ _ second]
  exact apart

/-- Where documents are not made for single files, each has a name of its own. -/
theorem nodup_names_all {model : Model} {files : List File} (grouping : settings.grouping ≠ .perFile) :
    ((all model settings files).map (·.name)).Nodup := by
  unfold all
  cases shown : settings.grouping with
  | singleFile => exact List.nodup_singleton _
  | perFile => exact absurd shown grouping
  | perPackage =>
      refine nodup_map_filterMap (fun package plan made => ?_)
        ((packages_ascending files).imp fun before => ne_of_lt before)
      split at made
      · cases made
      · rename_i first rest grouped
        have member : first ∈ files.filter (·.package = package) := by
          rw [grouped]
          exact List.mem_cons_self
        cases made
        exact of_decide_eq_true (List.mem_filter.1 member).2

theorem names_all_of_perFile {model : Model} {files : List File} (grouping : settings.grouping = .perFile) :
    (all model settings files).map (·.name) = files.map fun file => Path.stem file.name := by
  unfold all
  rw [grouping, List.map_map]
  rfl

end Plan

namespace Model

variable {model : Model} {settings : Settings} {names : List String} {files : List File}
  {outputs : List OutputFile}

theorem stems_of_filesNamed (known : model.filesNamed names = .ok files) :
    files.map (fun file => Path.stem file.name) = names.map Path.stem := by
  have all := forall₂_of_filesNamed known
  clear known
  induction all with
  | nil => rfl
  | @cons name file _ _ found _ ih =>
      have named : file.name = name := by simpa using List.find?_some found
      rw [List.map_cons, List.map_cons, ih, named]

theorem names_of_documents {events : List Event}
    (generated : ((model.documents settings names).runFrom events).1 = .ok outputs) :
    ∃ files, model.filesNamed names = .ok files ∧
      outputs.map (·.name) = (Plan.all model settings files).map (·.fileName settings) := by
  obtain ⟨files, known, written⟩ := documents_ok generated
  refine ⟨files, known, ?_⟩
  generalize Plan.all model settings files = plans at written ⊢
  clear generated
  induction written with
  | nil => rfl
  | cons first _ ih =>
      obtain ⟨now, ended⟩ := first
      rw [Plan.write_runFrom] at ended
      obtain ⟨document, -, rfl⟩ := exists_of_map_ok ended
      rw [List.map_cons, List.map_cons, ih]

/-- Which documents have names of their own, and which are there after they are delivered into a folder. A
document is lost only to a later one at the same place, and plain names that differ have different
places. -/
theorem documents_delivered
    (generated : ((model.documents settings names).runFrom []).1 = .ok outputs) :
    (settings.grouping ≠ .perFile → (outputs.map (·.name)).Nodup) ∧
    (settings.grouping = .perFile → ((outputs.map (·.name)).Nodup ↔ (names.map Path.stem).Nodup)) ∧
    ∀ folder before after, CommandLine.Delivers folder outputs before after →
      (∀ front document rest, outputs = front ++ document :: rest →
        (∀ later ∈ rest, Memory.placeOf (CommandLine.destination folder later) ≠
          Memory.placeOf (CommandLine.destination folder document)) →
        after.readFile (CommandLine.destination folder document) =
          .ok document.content.toUTF8.toList) ∧
      ((outputs.map (·.name)).Nodup → (∀ document ∈ outputs, '/' ∉ document.name.toList) →
        ∀ document ∈ outputs,
          after.readFile (CommandLine.destination folder document) =
            .ok document.content.toUTF8.toList) := by
  obtain ⟨files, known, named⟩ := names_of_documents generated
  have nodup_iff : (outputs.map (·.name)).Nodup ↔ ((Plan.all model settings files).map (·.name)).Nodup := by
    have split : (Plan.all model settings files).map (·.fileName settings) =
        ((Plan.all model settings files).map (·.name)).map fun name =>
          name ++ "." ++ settings.fileExtension := by
      rw [List.map_map]
      rfl
    rw [named, split, List.nodup_map_iff (Plan.fileName_injective settings)]
  refine ⟨fun grouping => nodup_iff.2 (Plan.nodup_names_all grouping), fun grouping => ?_,
    fun folder before after delivers => ⟨fun front document rest whole apart => ?_, ?_⟩⟩
  · rw [nodup_iff, Plan.names_all_of_perFile grouping, stems_of_filesNamed known]
  · rw [whole] at delivers
    exact CommandLine.readFile_of_deliveries apart delivers
  · intro unique noSlashes document member
    have plain (output : OutputFile) (listed : output ∈ outputs) : Memory.Plain output.name := by
      have among : output.name ∈ outputs.map (·.name) := List.mem_map_of_mem listed
      rw [named] at among
      obtain ⟨plan, -, same⟩ := List.mem_map.1 among
      have noSlash := noSlashes output listed
      rw [← same] at noSlash ⊢
      exact Plan.plain_fileName noSlash
    exact CommandLine.readFile_of_plain_deliveries unique plain delivers member

theorem documents_delivered_nursery :
    ∃ outputs after,
      ((nursery.documents { grouping := .perFile } ["garden.proto", "forest.proto"]).runFrom []).1 =
        .ok outputs ∧
      CommandLine.Delivers "out" outputs (.ofFiles []) after ∧ (outputs.map (·.name)).Nodup ∧
      ∀ document ∈ outputs, after.readFile (CommandLine.destination "out" document) =
        .ok document.content.toUTF8.toList := by
  obtain ⟨outputs, generated⟩ := exists_of_isOk
    (show ((nursery.documents { grouping := .perFile } ["garden.proto", "forest.proto"]).runFrom
      []).1.isOk = true by decide +kernel)
  have checked : ((((nursery.documents { grouping := .perFile }
      ["garden.proto", "forest.proto"]).runFrom []).1.toOption.map fun outputs =>
        (outputs.all fun document => '/' ∉ document.name.toList) &&
          (CommandLine.delivery "out" outputs (.ofFiles [])).1.isOk)) = some true := by
    decide +kernel
  rw [generated] at checked
  obtain ⟨noSlashes, succeeds⟩ := Bool.and_eq_true_iff.1 (Option.some.inj checked)
  have delivers := CommandLine.delivers_of_isOk succeeds
  obtain ⟨-, distinct, deliveries⟩ := documents_delivered generated
  have unique := (distinct rfl).2 (by decide +kernel)
  exact ⟨outputs, _, generated, delivers, unique, (deliveries "out" _ _ delivers).2 unique
    fun document member => by simpa using List.all_eq_true.1 noSlashes document member⟩

/-- Two files of one stem, in folders of their own and in packages of which the names lead to one place. -/
def twins : Model where
  files := [
    { name := "left/x.proto"
      package := "./x"
      packageComment := ""
      messages := []
      enums := []
      services := [] },
    { name := "right/x.proto"
      package := "x"
      packageComment := ""
      messages := []
      enums := []
      services := [] }]
  messages := []
  enums := []

theorem all_twins : Plan.all twins {} twins.files =
    twins.files.map fun file => Plan.perPackage twins {} file [file] := by
  have packages : (twins.files.map (·.package)).eraseDups.mergeSort = ["./x", "x"] :=
    List.mergeSort_of_pairwise (by decide +kernel)
  unfold Plan.all
  dsimp only
  rw [packages]
  rfl

/-- Documents of two files have one name, and of documents of two packages one overwrites the other. -/
theorem documents_overwritten :
    Request.link { files := [{ name := "left/x.proto", package := "./x" },
      { name := "right/x.proto", package := "x" }] } = .ok twins ∧
    (∃ outputs, ((twins.documents { grouping := .perFile } ["left/x.proto", "right/x.proto"]).runFrom []).1 =
      .ok outputs ∧ ¬ (outputs.map (·.name)).Nodup) ∧
    ∃ outputs after, ((twins.documents {} ["left/x.proto", "right/x.proto"]).runFrom []).1 = .ok outputs ∧
      CommandLine.Delivers "out" outputs (.ofFiles []) after ∧ ∃ document ∈ outputs,
        after.readFile (CommandLine.destination "out" document) ≠
          .ok document.content.toUTF8.toList := by
  refine ⟨by rfl, ?_, ?_⟩
  · obtain ⟨outputs, generated⟩ := exists_of_isOk (show ((twins.documents { grouping := .perFile }
      ["left/x.proto", "right/x.proto"]).runFrom []).1.isOk = true by decide +kernel)
    have alike : (((twins.documents { grouping := .perFile }
        ["left/x.proto", "right/x.proto"]).runFrom []).1.toOption.map fun outputs =>
          decide (outputs.map (·.name)).Nodup) = some false := by
      decide +kernel
    rw [generated] at alike
    exact ⟨outputs, generated, of_decide_eq_false (Option.some.inj alike)⟩
  · have known : twins.filesNamed ["left/x.proto", "right/x.proto"] = .ok twins.files := by
      rfl
    rw [documents_of_known known, all_twins]
    obtain ⟨outputs, generated⟩ := exists_of_isOk (show (((twins.files.map fun file =>
      Plan.perPackage twins {} file [file]).mapM fun plan : Plan => plan.write twins {}).runFrom
        []).1.isOk = true by decide +kernel)
    have checked : ((((twins.files.map fun file => Plan.perPackage twins {} file [file]).mapM
        fun plan : Plan => plan.write twins {}).runFrom []).1.toOption.map fun outputs =>
          (CommandLine.delivery "out" outputs (.ofFiles [])).1.isOk &&
            outputs.any fun document => ((CommandLine.delivery "out" outputs (.ofFiles [])).2.readFile
              (CommandLine.destination "out" document)).toOption ≠
                some document.content.toUTF8.toList) = some true := by
      decide +kernel
    rw [generated] at checked
    obtain ⟨succeeds, lost⟩ := Bool.and_eq_true_iff.1 (Option.some.inj checked)
    obtain ⟨document, member, other⟩ := List.any_eq_true.1 lost
    exact ⟨outputs, _, generated, CommandLine.delivers_of_isOk succeeds, document, member,
      fun same => of_decide_eq_true other (congrArg Except.toOption same)⟩

end Model

end ProtoSchema
