import ProtoSchema.Proofs.DocumentReferences

/-!
What documents cover. Each document belongs to some of the files, and it has a component for every
top-level declaration of these files that has a schema, and for nothing else.
-/
namespace ProtoSchema

open List (Forall₂)

theorem nodup_eraseDups {α : Type} [BEq α] [LawfulBEq α] (values : List α) :
    values.eraseDups.Nodup := by
  -- The values behind the first one are erased from a shorter list.
  match values with
  | [] => exact List.Pairwise.nil
  | first :: rest =>
      rw [List.eraseDups_cons]
      have shorter := List.length_filter_le (fun other => !other == first) rest
      refine List.nodup_cons.2 ⟨fun again => ?_, nodup_eraseDups _⟩
      simp [List.mem_eraseDups] at again
  termination_by values.length

theorem forall₂_of_common {α β γ : Type} {one : α → β → Prop} {two : α → γ → Prop}
    {both : β → γ → Prop} {common : List α} {left : List β} {right : List γ}
    (first : Forall₂ one common left) (second : Forall₂ two common right)
    (joins : ∀ value given other, one value given → two value other → both given other) :
    Forall₂ both left right := by
  induction first generalizing right with
  | nil =>
      cases second
      exact .nil
  | cons here _ ih =>
      cases second with
      | cons there others => exact .cons (joins _ _ _ here there) (ih others)

/-- How the files are spread over documents: the files of each document, in the order of the
documents. -/
inductive Grouping.Spreads (files : List File) : Grouping → List (List File) → Prop
  | singleFile : Spreads files .singleFile [files]
  | perFile : Spreads files .perFile (files.map fun file => [file])
  | perPackage (packages : List String) :
      packages.Pairwise (· < ·) →
      (∀ package, package ∈ packages ↔ ∃ file ∈ files, file.package = package) →
      Spreads files .perPackage (packages.map fun package => files.filter (·.package = package))

namespace Model

/-- No two declarations have the same absolute name. -/
def NamesApart (model : Model) : Prop :=
  (model.messages.map (·.absoluteName) ++ model.enums.map (·.absoluteName)).Nodup

/-- A message that the files declare at their top level and that has a schema of its own. -/
structure DeclaresMessage (model : Model) (files : List File) (id : Nat) (message : Message) :
    Prop where
  declared : ∃ file ∈ files, id ∈ file.messages
  found : model.message? id = some message
  top : message.parent = none
  plain : message.mapEntry = false

/-- An enum that the files declare at their top level. -/
structure DeclaresEnum (model : Model) (files : List File) (id : Nat) (enum : Enum) : Prop where
  declared : ∃ file ∈ files, id ∈ file.enums
  found : model.enum? id = some enum
  top : enum.parent = none

def Declares (model : Model) (files : List File) (name : String) : Prop :=
  (∃ id message, model.DeclaresMessage files id message ∧ name = message.absoluteName) ∨
    ∃ id enum, model.DeclaresEnum files id enum ∧ name = enum.absoluteName

variable {model : Model} {one two : Nat}

theorem index_inj {α : Type} {nameOf : α → String} {declared : List α} {left right : α}
    (unique : (declared.map nameOf).Nodup) (first : declared[one]? = some left)
    (second : declared[two]? = some right) (same : nameOf left = nameOf right) : one = two := by
  have inside : one < (declared.map nameOf).length := by
    rw [List.length_map]
    exact (List.getElem?_eq_some_iff.1 first).1
  refine (List.getElem?_inj inside unique).1 ?_
  simp [first, second, same]

theorem NamesApart.message_inj {left right : Message} (apart : model.NamesApart)
    (first : model.message? one = some left) (second : model.message? two = some right)
    (same : left.absoluteName = right.absoluteName) : one = two :=
  index_inj (List.nodup_append.1 apart).1 first second same

theorem NamesApart.enum_inj {left right : Enum} (apart : model.NamesApart)
    (first : model.enum? one = some left) (second : model.enum? two = some right)
    (same : left.absoluteName = right.absoluteName) : one = two :=
  index_inj (List.nodup_append.1 apart).2.1 first second same

theorem NamesApart.message_ne_enum {message : Message} {enum : Enum} (apart : model.NamesApart)
    (first : model.message? one = some message) (second : model.enum? two = some enum) :
    message.absoluteName ≠ enum.absoluteName :=
  (List.nodup_append.1 apart).2.2 _ (List.mem_map_of_mem (List.mem_of_getElem? first)) _
    (List.mem_map_of_mem (List.mem_of_getElem? second))

end Model

theorem Model.forall₂_of_filesNamed {model : Model} {names : List String} {files : List File}
    (known : model.filesNamed names = .ok files) :
    Forall₂ (fun name file => model.file? name = some file) names files := by
  refine (mapM_ok_iff.1 known).imp fun name file found => ?_
  cases shown : model.file? name with
  | none =>
      rw [shown] at found
      cases found
  | some other =>
      rw [shown] at found
      cases found
      rfl

/-! ## Plans -/

namespace Plan

variable {model : Model} {settings : Settings} {files : List File} {plan : Plan}
  {label title version name : String} {id : Nat}

/-- Where no two declarations have one name, none is dropped. -/
theorem mem_byName {α : Type} {find? : Nat → Option α} {nameOf : α → String} {ids : List Nat}
    (apart : ∀ one two left right, find? one = some left → find? two = some right →
      nameOf left = nameOf right → one = two) :
    (name, id) ∈ byName (ids.filterMap fun id =>
        (find? id).map fun declared => (nameOf declared, id)) ↔
      id ∈ ids ∧ ∃ declared, find? id = some declared ∧ name = nameOf declared := by
  have listed : ∀ name id, (name, id) ∈ (ids.filterMap fun id =>
      (find? id).map fun declared => (nameOf declared, id)) ↔
        id ∈ ids ∧ ∃ declared, find? id = some declared ∧ name = nameOf declared := by
    intro name id
    simp only [List.mem_filterMap, Option.map_eq_some_iff, Prod.mk.injEq]
    constructor
    · rintro ⟨other, member, declared, found, rfl, rfl⟩
      exact ⟨member, declared, found, rfl⟩
    · rintro ⟨member, declared, found, rfl⟩
      exact ⟨id, member, declared, found, rfl, rfl⟩
  rw [← listed]
  refine ⟨fun member => (Entries.mem_of_mem_foldl_putSorted member).resolve_right List.not_mem_nil,
    fun member => ?_⟩
  have found := Entries.lookup_foldl_putSorted name (ids.filterMap fun id =>
    (find? id).map fun declared => (nameOf declared, id)) []
  rw [Entries.lookup_of_unique (List.mem_reverse.2 member) fun other also => ?_] at found
  · exact mem_of_lookup found
  · obtain ⟨-, left, first, sameLeft⟩ := (listed name other).1 (List.mem_reverse.1 also)
    obtain ⟨-, right, second, sameRight⟩ := (listed name id).1 member
    exact apart other id left right first second (sameLeft.symm.trans sameRight)

theorem mem_messages_ofFiles (apart : model.NamesApart) :
    (name, id) ∈ (ofFiles model label title version files).messages ↔
      (∃ file ∈ files, id ∈ file.messages) ∧
        ∃ message, model.message? id = some message ∧ name = message.absoluteName := by
  rw [← List.mem_flatMap]
  exact mem_byName fun _ _ _ _ => apart.message_inj

theorem mem_enums_ofFiles (apart : model.NamesApart) :
    (name, id) ∈ (ofFiles model label title version files).enums ↔
      (∃ file ∈ files, id ∈ file.enums) ∧
        ∃ enum, model.enum? id = some enum ∧ name = enum.absoluteName := by
  rw [← List.mem_flatMap]
  exact mem_byName fun _ _ _ _ => apart.enum_inj

theorem ofFiles_enumsApart (apart : model.NamesApart) :
    (ofFiles model label title version files).EnumsApart model := by
  intro name id enum listed found _ member
  obtain ⟨-, other, same, rfl⟩ := (mem_enums_ofFiles apart).1 listed
  obtain ⟨⟨_, owner⟩, inPlan, rfl⟩ := List.mem_map.1 member
  obtain ⟨-, message, present, clash⟩ := (mem_messages_ofFiles apart).1 inPlan
  exact apart.message_ne_enum present same clash.symm

/-- The packages of some files, in ascending order. -/
theorem packages_ascending (files : List File) :
    ((files.map (·.package)).eraseDups.mergeSort).Pairwise (· < ·) := by
  have sorted : ((files.map (·.package)).eraseDups.mergeSort).Pairwise (· ≤ ·) := by
    have pairwise := @List.pairwise_mergeSort String (fun one two => decide (one ≤ two))
      (fun _ _ _ => by simpa using le_trans) (fun one two => by simpa using le_total one two)
      (files.map (·.package)).eraseDups
    simpa using pairwise
  have distinct : ((files.map (·.package)).eraseDups.mergeSort).Nodup :=
    (List.mergeSort_perm _ _).nodup_iff.2 (nodup_eraseDups _)
  exact (sorted.and distinct).imp fun both => lt_of_le_of_ne both.1 both.2

/-- Every document is planned for the files that are spread to it. -/
theorem all_spreads (model : Model) (settings : Settings) (files : List File) :
    ∃ groups, settings.grouping.Spreads files groups ∧
      Forall₂ (fun plan group => ∃ label title version, plan = ofFiles model label title version group)
        (Plan.all model settings files) groups := by
  unfold Plan.all
  cases settings.grouping with
  | singleFile => exact ⟨_, .singleFile, .cons ⟨_, _, _, rfl⟩ .nil⟩
  | perFile =>
      refine ⟨_, .perFile, ?_⟩
      rw [List.forall₂_map_left_iff, List.forall₂_map_right_iff]
      exact List.forall₂_same.2 fun file _ => ⟨_, _, _, rfl⟩
  | perPackage =>
      have present : ∀ package, package ∈ (files.map (·.package)).eraseDups.mergeSort ↔
          ∃ file ∈ files, file.package = package := by
        intro package
        rw [List.mem_mergeSort, List.mem_eraseDups, List.mem_map]
      refine ⟨_, .perPackage _ (packages_ascending files) present, ?_⟩
      simp only
      -- A package is passed over only where it has no file, and each of these has one.
      generalize (files.map (·.package)).eraseDups.mergeSort = packages at present
      have some : ∀ package ∈ packages, ∃ file ∈ files, file.package = package :=
        fun package member => (present package).1 member
      clear present
      induction packages with
      | nil => exact .nil
      | cons package rest ih =>
          obtain ⟨file, member, same⟩ := some package List.mem_cons_self
          have others := ih fun package later => some package (List.mem_cons_of_mem _ later)
          have kept : file ∈ files.filter (·.package = package) := by simpa [same] using member
          rw [List.filterMap_cons, List.map_cons]
          cases grouped : files.filter (·.package = package) with
          | nil =>
              rw [grouped] at kept
              cases kept
          | cons first group => exact .cons ⟨_, _, _, rfl⟩ others

end Plan

/-! ## Components -/

namespace Derivation

variable {derivation : Derivation} {plan : Plan} {session after : Session}

theorem names_messageComponents {schemas : List (String × Schema)}
    (ended : (derivation.messageComponents plan).runFrom session = (.ok schemas, after)) :
    (Entries.names schemas).Sublist (Entries.names plan.messages) := by
  obtain ⟨found, rfl, all⟩ := messageComponents_ok ended
  have kept : (Entries.names (plan.messages.filter fun entry => entry.2 ∈ derivation.components)).Sublist
      (Entries.names plan.messages) := List.filter_sublist.map _
  refine List.Sublist.trans ?_ kept
  clear ended kept
  generalize plan.messages.filter (fun entry => entry.2 ∈ derivation.components) = entries at all ⊢
  induction all with
  | nil => exact .slnil
  | cons first _ ih =>
      obtain ⟨answer, -, rfl⟩ := first
      cases answer with
      | none => exact ih.cons _
      | some schema => exact ih.cons_cons _

/-- Of the messages that a plan lists, those with a component have one of the plan's names. -/
theorem declares_of_mem_messageComponents {schemas : List (String × Schema)} {name : String}
    {schema : Schema}
    (ended : (derivation.messageComponents plan).runFrom session = (.ok schemas, after))
    (member : (name, schema) ∈ schemas) :
    ∃ id message, (name, id) ∈ plan.messages ∧ id ∈ derivation.components ∧
      derivation.model.message? id = some message ∧ message.mapEntry = false := by
  obtain ⟨id, listed, component, settled⟩ := settled_of_mem_messageComponents ended member
  obtain ⟨message, found, plain⟩ := ((settled_of_messageSchema settled).2 schema rfl).1
  exact ⟨id, message, listed, component, found, plain⟩

end Derivation

/-- The components of a document are the schemas of the top-level declarations of some files, as the
derivation has them in its last session. -/
structure Document.Covers (document : Document) (derivation : Derivation) (session : Session)
    (files : List File) : Prop where
  ascending : (Entries.names document.schemas).Pairwise (· < ·)
  names : ∀ name, name ∈ Entries.names document.schemas ↔ derivation.model.Declares files name
  messages : ∀ id message, derivation.model.DeclaresMessage files id message →
    ∃ schema, document.schemas.lookup message.absoluteName = some schema ∧
      (derivation.messageSchema id).runFrom session = (.ok (some schema), session)
  enums : ∀ id enum, derivation.model.DeclaresEnum files id enum →
    document.schemas.lookup enum.absoluteName = some (derivation.enumSchema enum)

/-- The output holds the text of a document that covers the files. -/
def OutputFile.Covers (output : OutputFile) (model : Model) (settings : Settings)
    (files : List File) : Prop :=
  ∃ (plan : Plan) (document : Document) (session : Session),
    (∃ label title version, plan = Plan.ofFiles model label title version files) ∧
    output.content = document.text settings.yaml ∧
    ((plan.derivation model settings).componentSchemas plan).runFrom {} =
      (.ok document.schemas, session) ∧
    document.Covers (plan.derivation model settings) session files

namespace Plan

variable {model : Model} {settings : Settings} {files : List File} {plan : Plan} {session : Session}
  {messages : List (String × Schema)} {label title version name : String} {id : Nat}

theorem lookup_enumComponents {enum : Enum} (apart : model.NamesApart)
    (listed : (enum.absoluteName, id) ∈ plan.enums) (lists : plan.ListsDeclarations model)
    (found : model.enum? id = some enum) (top : enum.parent = none) :
    ((plan.derivation model settings).enumComponents plan).reverse.lookup enum.absoluteName =
      some ((plan.derivation model settings).enumSchema enum) := by
  have component : (enum.absoluteName, (plan.derivation model settings).enumSchema enum) ∈
      (plan.derivation model settings).enumComponents plan := by
    have shown : (plan.derivation model settings).model.enum? id = some enum := found
    refine List.mem_filterMap.2 ⟨_, listed, ?_⟩
    simp [shown, top]
  refine Entries.lookup_of_unique (List.mem_reverse.2 component) fun other also => ?_
  obtain ⟨second, likewise, present, same, -, rfl⟩ := mem_enumComponents (List.mem_reverse.1 also)
  obtain ⟨_, again, name⟩ := lists.enums _ _ present
  cases same.symm.trans again
  cases apart.enum_inj found same name
  cases found.symm.trans same
  rfl

theorem covers_of_document {events : List Event} {document : Document} (apart : model.NamesApart)
    (planned : plan = ofFiles model label title version files)
    (made : ((plan.document model settings).runFrom events).1 = .ok document) :
    ∃ session, ((plan.derivation model settings).componentSchemas plan).runFrom {} =
        (.ok document.schemas, session) ∧
      document.Covers (plan.derivation model settings) session files := by
  obtain ⟨messages, session, ran, whole, schemas, -⟩ := document_ok made
  have lists : plan.ListsDeclarations model := planned ▸ ofFiles_listsDeclarations
  have enumsApart : plan.EnumsApart model := planned ▸ ofFiles_enumsApart apart
  have shownMessages : ∀ id message, model.DeclaresMessage files id message →
      ∃ schema, document.schemas.lookup message.absoluteName = some schema ∧
        (plan.derivation model settings).Settled session id (some schema) := by
    rintro id message ⟨declared, found, top, plain⟩
    have listed : (message.absoluteName, id) ∈ plan.messages :=
      planned ▸ (mem_messages_ofFiles apart).2 ⟨declared, message, found, rfl⟩
    obtain ⟨other, schema, same, -, stands, settled⟩ := lists.component_of_target ran
      (mem_components.2 ⟨⟨_, listed⟩, message, found, top⟩) ⟨message, found, plain⟩
    cases same.symm.trans found
    exact ⟨schema, by rw [schemas, enumsApart.lookup_put listed, stands], settled⟩
  have shownEnums : ∀ id enum, model.DeclaresEnum files id enum →
      document.schemas.lookup enum.absoluteName =
        some ((plan.derivation model settings).enumSchema enum) := by
    rintro id enum ⟨declared, found, top⟩
    have listed : (enum.absoluteName, id) ∈ plan.enums :=
      planned ▸ (mem_enums_ofFiles apart).2 ⟨declared, enum, found, rfl⟩
    rw [schemas, Entries.lookup_foldl_putSorted,
      lookup_enumComponents apart listed lists found top, Option.some_or]
  refine ⟨session, whole, ?_, fun name => ⟨fun member => ?_, ?_⟩, shownMessages, shownEnums⟩
  · have ascending : Entries.Ascending messages :=
      List.pairwise_map.1 ((List.pairwise_map.2 lists.ascending).sublist
        (Derivation.names_messageComponents ran))
    rw [schemas]
    exact List.pairwise_map.2 (ascending.foldl_putSorted _)
  · obtain ⟨⟨_, schema⟩, component, rfl⟩ := List.mem_map.1 member
    rw [schemas] at component
    rcases Entries.mem_of_mem_foldl_putSorted component with enum | message
    · obtain ⟨id, enum, listed, found, top, -⟩ := mem_enumComponents enum
      rw [planned] at listed
      obtain ⟨declared, _, same, name⟩ := (mem_enums_ofFiles apart).1 listed
      cases same.symm.trans found
      exact .inr ⟨id, enum, ⟨declared, found, top⟩, name⟩
    · obtain ⟨id, message, listed, component, found, plain⟩ :=
        Derivation.declares_of_mem_messageComponents ran message
      obtain ⟨-, other, same, top⟩ := mem_components.1 component
      cases same.symm.trans found
      rw [planned] at listed
      obtain ⟨declared, _, same, name⟩ := (mem_messages_ofFiles apart).1 listed
      cases same.symm.trans found
      exact .inl ⟨id, message, ⟨declared, found, top, plain⟩, name⟩
  · rintro (⟨id, message, declared, rfl⟩ | ⟨id, enum, declared, rfl⟩)
    · obtain ⟨schema, found, -⟩ := shownMessages id message declared
      exact Entries.mem_names (mem_of_lookup found)
    · exact Entries.mem_names (mem_of_lookup (shownEnums id enum declared))

end Plan

namespace Model

variable {model : Model} {settings : Settings} {names : List String} {events : List Event}
  {outputs : List OutputFile}

/-- The documents of known files are spread over them as the grouping says, and each of them covers
the declarations of its own files. -/
theorem documents_cover_declarations (apart : model.NamesApart)
    (generated : ((model.documents settings names).runFrom events).1 = .ok outputs) :
    ∃ files groups, Forall₂ (fun name file => model.file? name = some file) names files ∧
      settings.grouping.Spreads files groups ∧
      Forall₂ (fun output group => output.Covers model settings group) outputs groups := by
  obtain ⟨files, known, written⟩ := documents_ok generated
  obtain ⟨groups, spreads, planned⟩ := Plan.all_spreads model settings files
  refine ⟨files, groups, forall₂_of_filesNamed known, spreads, ?_⟩
  refine forall₂_of_common written planned ?_
  rintro plan output group ⟨now, ended⟩ ⟨label, title, version, same⟩
  rw [Plan.write_runFrom] at ended
  obtain ⟨document, made, rfl⟩ := exists_of_map_ok ended
  obtain ⟨session, ran, covers⟩ := Plan.covers_of_document apart same made
  exact ⟨plan, document, session, ⟨label, title, version, same⟩, rfl, ran, covers⟩

end Model

/-- Two files of two packages: a tree with a nested leaf, and a bed with the modes it is kept in. -/
def Model.nursery : Model where
  files := [
    { name := "garden.proto"
      package := "garden"
      packageComment := ""
      messages := [0]
      enums := [0]
      services := [] },
    { name := "forest.proto"
      package := "forest"
      packageComment := ""
      messages := [1, 2]
      enums := []
      services := [] }]
  messages := [
    { Message.holding "Bed" [.ofKind "name" .string none] with package := "garden" },
    .holding "Tree" [.holding "leaf" 2],
    { Message.holding "Tree.Leaf" [] with parent := some 1 }]
  enums := [
    { name := "Mode"
      dottedName := "Mode"
      package := "garden"
      file := 0
      parent := none
      comment := ""
      values := ["WET", "DRY"] }]

theorem Model.documents_cover_declarations_nursery :
    nursery.NamesApart ∧ ∃ outputs files groups,
      ((nursery.documents { grouping := .perFile } ["garden.proto", "forest.proto"]).runFrom []).1 = .ok outputs ∧
      Grouping.perFile.Spreads files groups ∧
      Forall₂ (fun output group => output.Covers nursery { grouping := .perFile } group)
        outputs groups := by
  have apart : nursery.NamesApart := by
    unfold NamesApart
    decide +kernel
  obtain ⟨outputs, generated⟩ := exists_of_isOk
    (show ((nursery.documents { grouping := .perFile } ["garden.proto", "forest.proto"]).runFrom
      []).1.isOk = true by decide +kernel)
  obtain ⟨files, groups, -, spreads, covers⟩ := documents_cover_declarations apart generated
  exact ⟨apart, outputs, files, groups, generated, spreads, covers⟩

end ProtoSchema
