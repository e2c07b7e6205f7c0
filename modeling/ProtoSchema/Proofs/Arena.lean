import Mathlib.Data.List.Nodup
import ProtoSchema.Proofs.Bounds
import ProtoSchema.Proofs.Outlining

/-!
What a linked model holds. The messages of the model are those that the request declares, in the order of
their sites, and so are its enums; every file has the numbers of what it declares, and every number that
the model keeps is that of a declaration.
-/
namespace ProtoSchema

open List (Forall₂)

namespace Request

/-! ## Declarations of a model -/

/-- The declaration is the one of that name at the site: in its file and package, and with the message
around it for a parent. -/
structure Places (request : Request) (model : Model) (site : Site) (name : String)
    (declared : Declaration) : Prop where
  name : declared.name = name
  file : declared.file = site.file
  package : request.files[site.file]?.map (·.package) = some declared.package
  outermost : declared.parent = none ↔ site.around = []
  undotted : declared.parent = none → declared.dottedName = declared.name
  dotted : ∀ parent, declared.parent = some parent → ∃ around outer,
    site.outer? = some around ∧ around.Before site ∧ request.messageSites[parent]? = some around ∧
      model.message? parent = some outer ∧ outer.file = declared.file ∧
      outer.package = declared.package ∧
      declared.dottedName = Name.qualify outer.dottedName declared.name

/-- All of the field is as it is declared, but for its link and its comment. -/
structure Field.Keeps (raw : Field) (field : ProtoSchema.Field) : Prop where
  name : field.name = raw.name
  wireName : field.wireName = raw.jsonName.getD (Name.wireName raw.name)
  kind : field.kind = raw.kind
  repeated : field.repeated = decide (raw.label = .repeated)
  proto3Optional : field.proto3Optional = raw.proto3Optional
  oneofIndex : field.oneofIndex = raw.oneofIndex
  typeName : field.typeName = raw.reference?

/-- The message is the one that is declared at the site. -/
def PlacesMessage (request : Request) (model : Model) (site : Site) (message : ProtoSchema.Message) : Prop :=
  ∃ raw, request.item? site = some (.message raw) ∧
    request.Places model site raw.name message.toDeclaration ∧
    message.mapEntry = raw.options.any (·.mapEntry) ∧ Forall₂ Field.Keeps raw.fields message.fields

/-- The enum is the one that is declared at the site. -/
def PlacesEnum (request : Request) (model : Model) (site : Site) (enum : ProtoSchema.Enum) : Prop :=
  ∃ raw, request.item? site = some (.enum raw) ∧
    request.Places model site raw.name enum.toDeclaration ∧ enum.values = raw.values.map (·.name)

theorem Site.outer_before {site around : Site} (outer : site.outer? = some around) : around.Before site := by
  obtain ⟨last, shown, rfl⟩ := Option.map_eq_some_iff.1 outer
  obtain ⟨front, whole⟩ := List.getLast?_eq_some_iff.1 shown
  refine Site.before_of_path rfl ?_
  rw [Site.path, Site.path, Site.pathBy, Site.pathBy, whole, List.dropLast_concat, messagePath_concat]
  exact lt_append_cons _ _ _

variable {request : Request} {model : Model} {given : File} {scope : Scope} {site : Site}

/-- What is declared inside a message is declared in the scope of the message at the site around it. -/
theorem exists_outer (reached : given.scope.at? site.around = some scope) {outer : Site}
    (around : site.outer? = some outer) :
    ∃ wider raw, outer.file = site.file ∧ outer.part = .message ∧
      given.scope.at? outer.around = some wider ∧ wider.messages[outer.index]? = some raw ∧
      scope = wider.inside raw := by
  obtain ⟨last, shown, rfl⟩ := Option.map_eq_some_iff.1 around
  obtain ⟨front, whole⟩ := List.getLast?_eq_some_iff.1 shown
  rw [whole, Scope.at?_concat] at reached
  obtain ⟨wider, found, inside⟩ := Option.bind_eq_some_iff.1 reached
  obtain ⟨raw, listed, rfl⟩ := Option.map_eq_some_iff.1 inside
  exact ⟨wider, raw, rfl, rfl, by rw [whole, List.dropLast_concat, found], listed, rfl⟩

theorem Links.exists_message_at (links : request.Links model) (member : site ∈ request.messageSites) :
    ∃ message, request.messageSites[request.numberOf site]? = some site ∧
      model.message? (request.numberOf site) = some message ∧ request.MessageAt site message := by
  have found : request.messageSites[request.numberOf site]? = some site := by
    have inside := List.idxOf_lt_length_of_mem member
    rw [numberOf, List.getElem?_eq_getElem inside, List.getElem_idxOf]
  obtain ⟨message, shown, there⟩ := exists_getElem?_of_forall₂ links.messages_at found
  exact ⟨message, found, shown, there⟩

theorem Links.places (links : request.Links model) (found : request.files[site.file]? = some given)
    (reached : given.scope.at? site.around = some scope) (name : String) (path : List Int) :
    request.Places model site name
      ((surroundings request.numberOf given site scope).declaration name path) where
  name := rfl
  file := rfl
  package := by
    rw [found]
    rfl
  outermost := by simp [Surroundings.declaration, surroundings, Site.outer?]
  undotted parent := by
    have top : site.around = [] := by
      simpa [Surroundings.declaration, surroundings, Site.outer?] using parent
    rw [top] at reached
    cases reached
    simp [Surroundings.declaration, surroundings, File.scope, Name.qualify]
  dotted parent shown := by
    obtain ⟨outer, around, rfl⟩ := Option.map_eq_some_iff.1 shown
    obtain ⟨wider, raw, sameFile, named, deeper, listed, rfl⟩ := exists_outer reached around
    rw [← sameFile] at found
    have member : outer ∈ request.messageSites :=
      mem_messageSites_iff.2 ⟨raw, by rw [item?_eq found deeper, named, Scope.item?, listed, Option.map_some]⟩
    obtain ⟨message, place, shown, there⟩ := links.exists_message_at member
    refine ⟨outer, message, around, Site.outer_before around, place, shown, ?_⟩
    cases there with
    | intro also alsoReached _ alsoListed _ =>
        cases found.symm.trans also
        cases deeper.symm.trans alsoReached
        cases listed.symm.trans alsoListed
        exact ⟨sameFile, rfl, rfl⟩

theorem forall₂_mapIdx {α β : Type} {related : α → β → Prop} {change : Nat → α → β}
    {values : List α}
    (each : ∀ index, ∀ value ∈ values, related value (change index value)) :
    Forall₂ related values (values.mapIdx change) := by
  refine List.forall₂_iff_get.2 ⟨by simp, fun index _ _ => ?_⟩
  simp only [List.get_eq_getElem, List.getElem_mapIdx]
  exact each index _ (List.getElem_mem _)

theorem Links.places_messages (links : request.Links model) :
    Forall₂ (request.PlacesMessage model) request.messageSites model.messages := by
  refine links.messages_at.imp fun site message there => ?_
  cases there with
  | @intro given scope raw found reached named listed _ =>
      refine ⟨raw, ?_, links.places found reached raw.name _, rfl, forall₂_mapIdx fun index field _ => ?_⟩
      · rw [item?_eq found reached, named, Scope.item?, listed, Option.map_some]
      · exact ⟨rfl, rfl, rfl, rfl, rfl, rfl, rfl⟩

theorem Links.places_enums (links : request.Links model) :
    Forall₂ (request.PlacesEnum model) request.enumSites model.enums := by
  refine links.enums_at.imp fun site enum there => ?_
  cases there with
  | @enum given scope raw found reached named listed =>
      refine ⟨raw, ?_, links.places found reached raw.name _, rfl⟩
      rw [item?_eq found reached, named, Scope.item?, listed, Option.map_some]

/-! ## Files of a model -/

/-- What a file declares has the number of the file. -/
def File.Numbered (index : Nat) : Outline → Prop
  | .message declared => declared.file = index
  | .enum declared => declared.file = index

theorem File.numbered_of_mem {file : File} {index id : Nat} {outline : Outline}
    (member : outline ∈ file.outline index id) : File.Numbered index outline := by
  -- The file is outlined alike when all numbers of files become this one.
  let here : Renumbering := { Renumbering.same with file := fun _ => index }
  have same : file.outline index id = (file.outline index id).map (Outline.renumbered here) :=
    @File.outline_renumbered here file index id id fun _ _ => rfl
  rw [same] at member
  obtain ⟨other, -, rfl⟩ := List.mem_map.1 member
  cases other <;> rfl

theorem flatMap_linkFiles (messages enums : Nat) (files : List (File × List Outline)) :
    (linkFiles messages enums files).flatMap (·.messages) =
        List.range' messages (Outline.messages (files.flatMap (·.2))).length ∧
      (linkFiles messages enums files).flatMap (·.enums) =
        List.range' enums (Outline.enums (files.flatMap (·.2))).length := by
  induction files generalizing messages enums with
  | nil => exact ⟨rfl, rfl⟩
  | cons entry rest ih =>
      obtain ⟨file, outlines⟩ := entry
      obtain ⟨behind, enumsBehind⟩ := ih (messages + (Outline.messages outlines).length)
        (enums + (Outline.enums outlines).length)
      simp only [linkFiles, List.flatMap_cons, Outline.messages_append, Outline.enums_append,
        List.length_append, behind, enumsBehind, List.range'_append_1, and_self]

theorem forall₂_linkFiles (messages enums : Nat) (files : List (File × List Outline)) :
    Forall₂ (fun given file => file.name = given.name ∧ file.package = given.package ∧
        file.packageComment = given.commentAt [packagePart])
      (files.map (·.1)) (linkFiles messages enums files) := by
  induction files generalizing messages enums with
  | nil => exact .nil
  | cons entry rest ih => exact .cons ⟨rfl, rfl, rfl⟩ (ih _ _)

theorem Links.forall₂_files (links : request.Links model) :
    Forall₂ (fun given file => file.name = given.name ∧ file.package = given.package ∧
        file.packageComment = given.commentAt [packagePart])
      request.files model.files := by
  have all := forall₂_linkFiles 0 0 (outlineFiles 0 0 request.files)
  rwa [map_outlineFiles, ← links.files] at all

theorem Links.flatMap_messages (links : request.Links model) :
    model.files.flatMap (·.messages) = List.range model.messages.length := by
  have count : (Outline.messages (outlined request.files)).length = model.messages.length :=
    links.messages.length_eq
  rw [links.files, (flatMap_linkFiles 0 0 _).1, ← count, List.range_eq_range']
  rfl

theorem Links.flatMap_enums (links : request.Links model) :
    model.files.flatMap (·.enums) = List.range model.enums.length := by
  rw [links.files, (flatMap_linkFiles 0 0 _).2, links.enums, List.range_eq_range']
  rfl

/-- Each number has one place among parts that do not share any. -/
theorem index_of_mem_parts {α : Type} {parts : α → List Nat} {values : List α} {i j id : Nat} {one two : α}
    (unique : (values.flatMap parts).Nodup) (first : values[i]? = some one) (second : values[j]? = some two)
    (inside : id ∈ parts one) (also : id ∈ parts two) : i = j := by
  obtain ⟨iBound, rfl⟩ := List.getElem?_eq_some_iff.1 first
  obtain ⟨jBound, rfl⟩ := List.getElem?_eq_some_iff.1 second
  have apart := List.pairwise_iff_getElem.1 (List.nodup_flatMap.1 unique).2
  rcases Nat.lt_trichotomy i j with before | same | behind
  · exact absurd also (apart i j iBound jBound before inside)
  · exact same
  · exact absurd inside (apart j i jBound iBound behind also)

/-- Where blocks of numbers make up an arena, and each number of it is in the block of its file, the block
of a file has the numbers of what is in the file. -/
theorem mem_block_iff {α β : Type} {block : β → List Nat} {files : List β} {arena : List α}
    {fileOf : α → Nat}
    (blocks : files.flatMap block = List.range arena.length)
    (owned : ∀ id declared, arena[id]? = some declared →
      ∃ file, files[fileOf declared]? = some file ∧ id ∈ block file)
    {index id : Nat} {file : β} (place : files[index]? = some file) :
    id ∈ block file ↔ ∃ declared, arena[id]? = some declared ∧ fileOf declared = index := by
  constructor
  · intro member
    have inside : id ∈ List.range arena.length :=
      blocks ▸ List.mem_flatMap.2 ⟨file, List.mem_of_getElem? place, member⟩
    have bound := List.mem_range.1 inside
    have found : arena[id]? = some arena[id] := List.getElem?_eq_getElem bound
    obtain ⟨other, there, also⟩ := owned id _ found
    have unique : (files.flatMap block).Nodup := blocks ▸ List.nodup_range
    exact ⟨_, found, index_of_mem_parts unique there place also member⟩
  · rintro ⟨declared, found, rfl⟩
    obtain ⟨other, there, member⟩ := owned id declared found
    cases place.symm.trans there
    exact member

/-- What is declared is declared in a file, and has its number. -/
theorem exists_numbered {α : Type} (family : Outline.Family α) {files : List File} {id : Nat} {declared : α}
    (found : (family.declared (outlined files))[id]? = some declared) :
    ∃ (file : File) (index : Nat) (before : List Outline) (j : Nat) (outline : Outline),
      file.Stands files index before ∧ id = (family.declared before).length + j ∧
      j < (family.declared (file.outline 0 0)).length ∧ family.select outline = some declared ∧
      File.Numbered index outline := by
  obtain ⟨inside, -⟩ := List.getElem?_eq_some_iff.1 found
  obtain ⟨file, -, index, before, j, stands, rfl, within⟩ := exists_stands_of_lt family inside
  have own : declared ∈ family.declared (file.outline index (Outline.messages before).length) :=
    List.mem_of_getElem? ((stands.getElem?_declared family within).symm.trans found)
  obtain ⟨outline, listed, chosen⟩ := List.mem_filterMap.1 own
  exact ⟨file, index, before, j, outline, stands, rfl, within, chosen, File.numbered_of_mem listed⟩

theorem Links.exists_file_of_message (links : request.Links model) {id : Nat}
    {message : ProtoSchema.Message} (found : model.message? id = some message) :
    ∃ file, model.files[message.file]? = some file ∧ id ∈ file.messages := by
  obtain ⟨outline, shown, linked⟩ := links.exists_outline found
  obtain ⟨fields, rfl, -⟩ := linkMessage_ok linked
  obtain ⟨file, index, before, j, declared, stands, rfl, within, chosen, numbered⟩ :=
    exists_numbered .message shown
  have owner : outline.file = index := by
    cases declared with
    | message => cases chosen; exact numbered
    | enum => cases chosen
  have place := stands.linked
  rw [← links.files] at place
  refine ⟨_, by rw [owner, place], List.mem_range'_1.2 ⟨Nat.le_add_right _ _, ?_⟩⟩
  exact Nat.add_lt_add_left within _

theorem Links.exists_file_of_enum (links : request.Links model) {id : Nat}
    {enum : ProtoSchema.Enum} (found : model.enum? id = some enum) :
    ∃ file, model.files[enum.file]? = some file ∧ id ∈ file.enums := by
  rw [Model.enum?, links.enums] at found
  obtain ⟨file, index, before, j, declared, stands, rfl, within, chosen, numbered⟩ :=
    exists_numbered .enum found
  have owner : enum.file = index := by
    cases declared with
    | enum => cases chosen; exact numbered
    | message => cases chosen
  have place := stands.linked
  rw [← links.files] at place
  refine ⟨_, by rw [owner, place], List.mem_range'_1.2 ⟨Nat.le_add_right _ _, ?_⟩⟩
  exact Nat.add_lt_add_left within _

section

variable {index id : Nat} {file : ProtoSchema.File}

theorem Links.lt_of_mem_messages (links : request.Links model) (listed : file ∈ model.files)
    (member : id ∈ file.messages) : id < model.messages.length := by
  rw [← List.mem_range, ← links.flatMap_messages]
  exact List.mem_flatMap.2 ⟨file, listed, member⟩

theorem Links.lt_of_mem_enums (links : request.Links model) (listed : file ∈ model.files)
    (member : id ∈ file.enums) : id < model.enums.length := by
  rw [← List.mem_range, ← links.flatMap_enums]
  exact List.mem_flatMap.2 ⟨file, listed, member⟩

theorem Links.mem_messages_iff (links : request.Links model) (place : model.files[index]? = some file) :
    id ∈ file.messages ↔ ∃ message, model.message? id = some message ∧ message.file = index :=
  mem_block_iff links.flatMap_messages (fun _ _ => links.exists_file_of_message) place

theorem Links.mem_enums_iff (links : request.Links model) (place : model.files[index]? = some file) :
    id ∈ file.enums ↔ ∃ enum, model.enum? id = some enum ∧ enum.file = index :=
  mem_block_iff links.flatMap_enums (fun _ _ => links.exists_file_of_enum) place

end

/-- A file is looked up by the name that it alone has. -/
theorem Links.fileIndex?_eq_some_iff (links : request.Links model) {name : String} {index : Nat} :
    model.fileIndex? name = some index ↔ request.files[index]?.map (·.name) = some name := by
  have unique := links.unique
  rw [← List.getElem?_map, ← links.map_name_files, Model.fileIndex?, List.findIdx?_eq_some_iff_getElem]
  rw [← links.map_name_files] at unique
  constructor
  · rintro ⟨inside, named, -⟩
    rw [List.getElem?_map, List.getElem?_eq_getElem inside, Option.map_some]
    exact congrArg some (of_decide_eq_true named)
  · intro found
    obtain ⟨inside, named⟩ := List.getElem?_eq_some_iff.1 found
    rw [List.length_map] at inside
    rw [List.getElem_map] at named
    refine ⟨inside, by simpa using named, fun j earlier also => ?_⟩
    have again : (model.files.map (·.name))[j]? = some name := by
      rw [List.getElem?_map, List.getElem?_eq_getElem]
      simpa using also
    have bound : j < (model.files.map (·.name)).length := (List.getElem?_eq_some_iff.1 again).1
    exact absurd ((List.getElem?_inj bound unique).1 (again.trans found.symm)) (Nat.ne_of_lt earlier)

/-! ## Numbers in a model -/

theorem index_lt_of_before {sites : List Site} {i j : Nat} {one two : Site}
    (ascending : sites.Pairwise Site.Before) (first : sites[i]? = some one) (second : sites[j]? = some two)
    (before : one.Before two) : i < j := by
  obtain ⟨iBound, rfl⟩ := List.getElem?_eq_some_iff.1 first
  obtain ⟨jBound, rfl⟩ := List.getElem?_eq_some_iff.1 second
  rcases Nat.lt_trichotomy i j with earlier | rfl | later
  · exact earlier
  · exact absurd before (Site.before_irrefl _)
  · have behind := List.pairwise_iff_getElem.1 ascending j i jBound iBound later
    exact absurd (before.trans behind) (Site.before_irrefl _)

theorem Links.parent_lt (links : request.Links model) {id parent : Nat} {message : ProtoSchema.Message}
    (found : model.message? id = some message) (nested : message.parent = some parent) : parent < id := by
  obtain ⟨site, place, raw, -, places, -⟩ := exists_getElem?_of_forall₂ links.places_messages.flip found
  obtain ⟨around, -, -, before, outer, -⟩ := places.dotted parent nested
  exact index_lt_of_before request.messageSites_ascending outer place before

theorem Links.surrounds (links : request.Links model) {name : String} {declared : Declaration}
    (places : request.Places model site name declared) : model.Surrounds declared where
  file := by
    have counts : model.files.length = request.files.length := by
      have names := congrArg List.length links.map_name_files
      rwa [List.length_map, List.length_map] at names
    obtain ⟨given, found, -⟩ := Option.map_eq_some_iff.1 places.package
    rw [places.file, counts]
    exact (List.getElem?_eq_some_iff.1 found).1
  parent parent nested := by
    obtain ⟨_, outer, -, -, -, found, -⟩ := places.dotted parent nested
    exact (List.getElem?_eq_some_iff.1 found).1

theorem Links.closed (links : request.Links model) : model.Closed where
  messages message member := by
    obtain ⟨site, -, raw, -, places, -⟩ := exists_left_of_mem links.places_messages member
    exact links.surrounds places
  enums enum member := by
    obtain ⟨site, -, raw, -, places, -⟩ := exists_left_of_mem links.places_enums member
    exact links.surrounds places
  links message member field inside link linked := by
    obtain ⟨site, -, there⟩ := exists_left_of_mem links.messages_at member
    cases there with
    | intro found reached named listed resolved =>
        obtain ⟨index, bound, rfl⟩ := List.mem_mapIdx.1 inside
        obtain ⟨typeName, -, resolved⟩ := Option.bind_eq_some_iff.1 linked
        have leads := links.mem_names.1 (List.mem_reverse.1 (mem_of_lookup resolved))
        cases link with
        | message id =>
            obtain ⟨target, shown, -⟩ := leads
            exact (List.getElem?_eq_some_iff.1 shown).1
        | enum id =>
            obtain ⟨target, shown, -⟩ := leads
            exact (List.getElem?_eq_some_iff.1 shown).1
  listed file member := ⟨fun _ => links.lt_of_mem_messages member, fun _ => links.lt_of_mem_enums member⟩

/-! ## The arenas -/

/-- The model holds what the request declares, each message and each enum once and in the order of the
declarations: first a message, then the messages nested in it. The files have the numbers of what they
declare, block by block, and every number is in range. -/
structure Arena (request : Request) (model : Model) : Prop where
  messageSites (site : Site) : site ∈ request.messageSites ↔ ∃ raw, request.item? site = some (.message raw)
  enumSites (site : Site) : site ∈ request.enumSites ↔ ∃ raw, request.item? site = some (.enum raw)
  messagesAscend : request.messageSites.Pairwise Site.Before
  enumsAscend : request.enumSites.Pairwise Site.Before
  messages : Forall₂ (request.PlacesMessage model) request.messageSites model.messages
  enums : Forall₂ (request.PlacesEnum model) request.enumSites model.enums
  parents : ∀ id message parent, model.message? id = some message → message.parent = some parent →
    parent < id
  files : Forall₂ (fun given file => file.name = given.name ∧ file.package = given.package) request.files
    model.files
  messageBlocks : model.files.flatMap (·.messages) = List.range model.messages.length
  enumBlocks : model.files.flatMap (·.enums) = List.range model.enums.length
  messageFiles : ∀ (index id : Nat) (file : ProtoSchema.File), model.files[index]? = some file →
    (id ∈ file.messages ↔ ∃ message, model.message? id = some message ∧ message.file = index)
  enumFiles : ∀ (index id : Nat) (file : ProtoSchema.File), model.files[index]? = some file →
    (id ∈ file.enums ↔ ∃ enum, model.enum? id = some enum ∧ enum.file = index)
  fileIndices : ∀ name index, model.fileIndex? name = some index ↔
    request.files[index]?.map (·.name) = some name
  closed : model.Closed

theorem Links.arena (links : request.Links model) : request.Arena model where
  messageSites _ := mem_messageSites_iff
  enumSites _ := mem_enumSites_iff
  messagesAscend := request.messageSites_ascending
  enumsAscend := request.enumSites_ascending
  messages := links.places_messages
  enums := links.places_enums
  parents _ _ _ := links.parent_lt
  files := links.forall₂_files.imp fun _ _ same => ⟨same.1, same.2.1⟩
  messageBlocks := links.flatMap_messages
  enumBlocks := links.flatMap_enums
  messageFiles _ _ _ := links.mem_messages_iff
  enumFiles _ _ _ := links.mem_enums_iff
  fileIndices _ _ := links.fileIndex?_eq_some_iff
  closed := links.closed

/-- Linking yields a well-formed arena, and nothing is looked up beyond it: documents and calls are the
same whatever would stand behind its messages and enums. -/
theorem arena_of_link (linked : request.link = .ok model) :
    request.Arena model ∧ ∀ settings messages enums,
      (∀ names, (model.extended messages enums).documents settings names =
        model.documents settings names) ∧
      ∀ unit calls, (∀ id ∈ unit, id < model.messages.length) →
        (∀ call ∈ calls, Derivation.Call.Within model call) →
        (Derivation.ofUnit (model.extended messages enums) settings unit).replies calls {} =
          (Derivation.ofUnit model settings unit).replies calls {} := by
  have links := links_of_link linked
  refine ⟨links.arena, fun settings messages enums => ⟨fun names => ?_, fun unit calls known within => ?_⟩⟩
  · exact links.closed.documents_extended messages enums settings names
  · exact Derivation.replies_extended messages enums links.closed settings known within

/-- A hive holds combs, and its keeper is declared in a file of her own. -/
def hive : Request where
  files := [
    { name := "hive.proto"
      package := "garden"
      messages := [
        { name := "Hive"
          nested := [
            { name := "Comb"
              nested := [{ name := "Cell" }]
              enums := [{ name := "Filling" }] }]
          fields := [
            { name := "combs"
              label := .repeated
              kind := .message
              typeName := some ".garden.Hive.Comb" }] }]
      enums := [{ name := "Season" }] },
    { name := "keeper.proto"
      package := "garden"
      messages := [
        { name := "Keeper"
          fields := [
            { name := "hive"
              kind := .message
              typeName := some ".garden.Hive" }] }] }]

theorem arena_of_link_hive :
    ∃ model, hive.link = .ok model ∧ hive.Arena model ∧
      model.messages.map (·.dottedName) = ["Hive", "Hive.Comb", "Hive.Comb.Cell", "Keeper"] ∧
      model.messages.map (·.parent) = [none, some 0, some 1, none] ∧
      model.files.map (·.enums) = [[0, 1], []] ∧ ∀ messages enums,
        (Derivation.ofUnit (model.extended messages enums) {} [0, 3]).replies [.message 3, .enum 1] {} =
          (Derivation.ofUnit model {} [0, 3]).replies [.message 3, .enum 1] {} := by
  have linked : hive.link = .ok (hive.link.toOption.getD ⟨[], [], []⟩) := by
    rfl
  obtain ⟨arena, bounded⟩ := arena_of_link linked
  refine ⟨_, linked, arena, by decide +kernel, by decide +kernel, by decide +kernel, fun messages enums => ?_⟩
  refine (bounded {} messages enums).2 [0, 3] [.message 3, .enum 1] (by decide +kernel) fun call member => ?_
  simp only [List.mem_cons, List.not_mem_nil, or_false] at member
  rcases member with rfl | rfl
  · exact (by decide +kernel : 3 < (hive.link.toOption.getD ⟨[], [], []⟩).messages.length)
  · exact (by decide +kernel : 1 < (hive.link.toOption.getD ⟨[], [], []⟩).enums.length)

end Request

end ProtoSchema
