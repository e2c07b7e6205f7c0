import ProtoSchema.Proofs.DocumentCoverage
import ProtoSchema.Proofs.Renumbering

/-!
Linked requests. What a file declares does not depend on the files before it, but for the numbers it
gets; each declaration of a linked model is one that a file of the request declares, and a field is
linked to the declaration that has the name of its type.
-/
namespace ProtoSchema

open List (Forall₂)

theorem map_mapIdx {α β γ : Type} (perform : Nat → α → β) (change : β → γ) (values : List α) :
    (values.mapIdx perform).map change = values.mapIdx fun index value => change (perform index value) :=
  List.ext_getElem? fun index => by simp [Function.comp_def]

theorem exists_getElem?_of_forall₂ {α β : Type} {related : α → β → Prop} {left : List α}
    {right : List β} (all : Forall₂ related left right) {index : Nat} {given : α}
    (found : left[index]? = some given) : ∃ value, right[index]? = some value ∧ related given value := by
  induction all generalizing index with
  | nil => cases found
  | cons first _ ih =>
      cases index with
      | zero =>
          cases found
          exact ⟨_, rfl, first⟩
      | succ index => exact ih found

/-- The `count` messages from `id` on get the numbers from `next` on, in their order. -/
def Renumbering.Moves (numbers : Renumbering) (id next count : Nat) : Prop :=
  ∀ j < count, numbers.message (id + j) = next + j

/-- Numbers that are further on, those of files and those of messages each by the same. -/
def Renumbering.shift (file message : Nat) : Renumbering where
  file index := index + file
  message id := id + message
  enum := id
  injective _ _ same := Nat.add_right_cancel same

namespace Request

variable {numbers : Renumbering}

/-! ## Outlines under other numbers -/

def Outline.absoluteName : Outline → String
  | .message declared => declared.absoluteName
  | .enum declared => declared.absoluteName

def Outline.renumbered (numbers : Renumbering) : Outline → Outline
  | .message declared => .message (declared.renumbered numbers)
  | .enum declared => .enum (declared.renumbered numbers)

def Surroundings.renumbered (numbers : Renumbering) (around : Surroundings) : Surroundings :=
  { around with
    fileIndex := numbers.file around.fileIndex
    parent := around.parent.map numbers.message }

namespace Outline

theorem messages_cons (declared : ProtoSchema.Message) (rest : List Outline) :
    messages (.message declared :: rest) = declared :: messages rest := rfl

theorem enums_cons (declared : ProtoSchema.Enum) (rest : List Outline) :
    enums (.enum declared :: rest) = declared :: enums rest := rfl

theorem messages_append (left right : List Outline) :
    messages (left ++ right) = messages left ++ messages right := List.filterMap_append

theorem enums_append (left right : List Outline) :
    enums (left ++ right) = enums left ++ enums right := List.filterMap_append

/-- Messages or enums: how they are told from other declarations, and what they are called. -/
structure Family (α : Type) where
  select : Outline → Option α
  name : α → String
  change : Renumbering → α → α
  select_renumbered (numbers : Renumbering) (outline : Outline) :
    select (outline.renumbered numbers) = (select outline).map (change numbers)
  name_change (numbers : Renumbering) (declared : α) : name (change numbers declared) = name declared

namespace Family

def message : Family ProtoSchema.Message where
  select := message?
  name declared := declared.absoluteName
  change := Message.renumbered
  select_renumbered _ outline := by cases outline <;> rfl
  name_change _ _ := rfl

def enum : Family ProtoSchema.Enum where
  select := enum?
  name declared := declared.absoluteName
  change := Enum.renumbered
  select_renumbered _ outline := by cases outline <;> rfl
  name_change _ _ := rfl

variable {α : Type} (family : Family α)

def declared (outlines : List Outline) : List α := outlines.filterMap family.select

def names (outlines : List Outline) : List String := (family.declared outlines).map family.name

theorem length_names (outlines : List Outline) :
    (family.names outlines).length = (family.declared outlines).length := List.length_map ..

theorem getElem?_names (outlines : List Outline) (index : Nat) :
    (family.names outlines)[index]? = (family.declared outlines)[index]?.map family.name :=
  List.getElem?_map ..

theorem declared_append (left right : List Outline) :
    family.declared (left ++ right) = family.declared left ++ family.declared right := List.filterMap_append

theorem declared_renumbered (outlines : List Outline) :
    family.declared (outlines.map (renumbered numbers)) =
      (family.declared outlines).map (family.change numbers) := by
  unfold declared
  rw [List.filterMap_map, List.map_filterMap]
  congr 1
  funext outline
  exact family.select_renumbered numbers outline

theorem names_renumbered (outlines : List Outline) :
    family.names (outlines.map (renumbered numbers)) = family.names outlines := by
  unfold names
  rw [declared_renumbered, List.map_map]
  exact List.map_congr_left fun declared _ => family.name_change numbers declared

end Family

theorem messages_renumbered (outlines : List Outline) :
    messages (outlines.map (renumbered numbers)) =
      (messages outlines).map (Message.renumbered numbers) :=
  Family.message.declared_renumbered outlines

end Outline

theorem messages_outlineEnums (around : Surroundings) (part : Int) (enums : List Enum) :
    Outline.messages (outlineEnums around part enums) = [] := by
  rw [Outline.messages, List.filterMap_eq_nil_iff]
  intro outline member
  obtain ⟨_, _, rfl⟩ := List.mem_mapIdx.1 member
  rfl

theorem outlineEnums_renumbered (around : Surroundings) (part : Int) (enums : List Enum) :
    outlineEnums (around.renumbered numbers) part enums =
      (outlineEnums around part enums).map (Outline.renumbered numbers) := by
  unfold outlineEnums
  rw [map_mapIdx]
  rfl

mutual

theorem outlineMessage_renumbered (around : Surroundings) (id next : Nat) (path : List Int) :
    (message : Message) →
    numbers.Moves id next (Outline.messages (outlineMessage around id path message)).length →
    outlineMessage (around.renumbered numbers) next path message =
      (outlineMessage around id path message).map (Outline.renumbered numbers)
  | ⟨name, fields, nested, enums, options⟩, moves => by
      rw [outlineMessage] at moves ⊢
      rw [outlineMessage]
      simp only [Outline.messages_cons, Outline.messages_append, messages_outlineEnums, List.append_nil,
        List.length_cons] at moves
      have first : numbers.message id = next := moves 0 (by omega)
      have within : (around.renumbered numbers).inside next name path =
          (around.inside id name path).renumbered numbers := by
        simp only [Surroundings.inside, Surroundings.renumbered, Option.map_some, first]
      have inside := outlineMessages_renumbered (around.inside id name path) nestedMessages (id + 1)
        (next + 1) 0 nested fun j bound => by
          rw [Nat.add_assoc, Nat.add_assoc, Nat.add_comm 1 j]
          exact moves (j + 1) (by omega)
      simp only [within, inside, outlineEnums_renumbered, List.map_cons, List.map_append]
      congr 1
      simp only [Outline.renumbered, Message.renumbered, map_mapIdx]
      rfl

theorem outlineMessages_renumbered (around : Surroundings) (part : Int) (id next index : Nat) :
    (messages : List Message) →
    numbers.Moves id next (Outline.messages (outlineMessages around part id index messages)).length →
    outlineMessages (around.renumbered numbers) part next index messages =
      (outlineMessages around part id index messages).map (Outline.renumbered numbers)
  | [], _ => rfl
  | message :: rest, moves => by
      simp only [outlineMessages, Outline.messages_append, List.length_append] at moves ⊢
      have first := outlineMessage_renumbered around id next (around.partPath part index) message
        fun j bound => moves j (by omega)
      have path : (around.renumbered numbers).partPath part index = around.partPath part index := rfl
      rw [path, first, Outline.messages_renumbered, List.length_map, List.map_append]
      congr 1
      refine outlineMessages_renumbered around part _ _ (index + 1) rest fun j bound => ?_
      rw [Nat.add_assoc, Nat.add_assoc]
      exact moves _ (by omega)

end

theorem File.outline_renumbered (file : File) (index id next : Nat)
    (moves : numbers.Moves id next (Outline.messages (file.outline index id)).length) :
    file.outline (numbers.file index) next =
      (file.outline index id).map (Outline.renumbered numbers) := by
  unfold File.outline at moves ⊢
  simp only [Outline.messages_append, messages_outlineEnums, List.append_nil] at moves
  rw [List.map_append, ← outlineMessages_renumbered _ _ id next 0 file.messages moves,
    ← outlineEnums_renumbered]
  rfl

/-- A file declares the same wherever it stands. -/
theorem File.outline_eq (file : File) (index id : Nat) :
    file.outline index id = (file.outline 0 0).map (Outline.renumbered (.shift index id)) := by
  have moves : (Renumbering.shift index id).Moves 0 id (Outline.messages (file.outline 0 0)).length :=
    fun j _ => by
      rw [Nat.zero_add]
      exact Nat.add_comm j id
  have shifted : (Renumbering.shift index id).file 0 = index := Nat.zero_add index
  rw [← File.outline_renumbered file 0 0 id moves, shifted]

theorem File.names_outline {α : Type} (family : Outline.Family α) (file : File) (index id : Nat) :
    family.names (file.outline index id) = family.names (file.outline 0 0) := by
  rw [File.outline_eq, family.names_renumbered]

theorem File.length_declared {α : Type} (family : Outline.Family α) (file : File) (index id : Nat) :
    (family.declared (file.outline index id)).length = (family.declared (file.outline 0 0)).length := by
  rw [File.outline_eq, family.declared_renumbered, List.length_map]

/-! ## Places of files -/

/-- The file of a model, with the first numbers of its declarations. -/
def File.linked (file : File) (messages enums : Nat) : ProtoSchema.File where
  name := file.name
  package := file.package
  packageComment := file.commentAt [packagePart]
  messages := List.range' messages (Outline.messages (file.outline 0 0)).length
  enums := List.range' enums (Outline.enums (file.outline 0 0)).length
  services := file.services.map fun service => Name.qualify file.package service.name

/-- What is outlined in all the files, in their order. -/
def outlined (files : List File) : List Outline := (outlineFiles 0 0 files).flatMap (·.2)

/-- The file is the one at the index, and `before` is outlined in the files before it. -/
structure File.Stands (file : File) (files : List File) (index : Nat) (before : List Outline) : Prop where
  outlined : ∃ after, Request.outlined files =
    before ++ (file.outline index (Outline.messages before).length ++ after)
  linked : (linkFiles 0 0 (outlineFiles 0 0 files))[index]? =
    some (file.linked (Outline.messages before).length (Outline.enums before).length)

/-- What the file declares is declared in all the files together, behind what is declared before it. -/
theorem File.Stands.getElem?_declared {α : Type} (family : Outline.Family α) {file : File} {files : List File}
    {index j : Nat} {before : List Outline} (stands : file.Stands files index before)
    (inside : j < (family.declared (file.outline 0 0)).length) :
    (family.declared (Request.outlined files))[(family.declared before).length + j]? =
      (family.declared (file.outline index (Outline.messages before).length))[j]? := by
  obtain ⟨after, whole⟩ := stands.outlined
  rw [← file.length_declared family index (Outline.messages before).length] at inside
  rw [whole, family.declared_append, family.declared_append,
    List.getElem?_append_right (Nat.le_add_right _ j), Nat.add_sub_cancel_left,
    List.getElem?_append_left inside]

theorem outlineFiles_split {index id : Nat} {files : List File} {file : File} {outlines : List Outline}
    {front rest : List (File × List Outline)}
    (split : outlineFiles index id files = front ++ (file, outlines) :: rest) :
    outlines = file.outline (index + front.length)
      (id + (Outline.messages (front.flatMap (·.2))).length) := by
  induction front generalizing index id files with
  | nil =>
      cases files with
      | nil => cases split
      | cons first others =>
          cases split
          rfl
  | cons entry front ih =>
      cases files with
      | nil => cases split
      | cons first others =>
          obtain ⟨rfl, later⟩ := List.cons.inj split
          rw [ih later, List.flatMap_cons, Outline.messages_append, List.length_append,
            List.length_cons, Nat.add_assoc, Nat.add_assoc, Nat.add_comm 1]

theorem linkFiles_append (messages enums : Nat) (front rest : List (File × List Outline)) :
    linkFiles messages enums (front ++ rest) = linkFiles messages enums front ++
      linkFiles (messages + (Outline.messages (front.flatMap (·.2))).length)
        (enums + (Outline.enums (front.flatMap (·.2))).length) rest := by
  induction front generalizing messages enums with
  | nil => rfl
  | cons entry front ih =>
      obtain ⟨file, outlines⟩ := entry
      rw [List.cons_append, linkFiles, linkFiles, ih]
      simp only [List.cons_append, List.flatMap_cons, Outline.messages_append, Outline.enums_append,
        List.length_append, Nat.add_assoc]

theorem length_linkFiles (messages enums : Nat) (files : List (File × List Outline)) :
    (linkFiles messages enums files).length = files.length := by
  induction files generalizing messages enums with
  | nil => rfl
  | cons entry rest ih =>
      rw [linkFiles, List.length_cons, List.length_cons, ih]

theorem stands_of_split {files : List File} {file : File} {outlines : List Outline}
    {front rest : List (File × List Outline)}
    (split : outlineFiles 0 0 files = front ++ (file, outlines) :: rest) :
    file.Stands files front.length (front.flatMap (·.2)) ∧
      outlines = file.outline front.length (Outline.messages (front.flatMap (·.2))).length := by
  have here := outlineFiles_split split
  rw [Nat.zero_add, Nat.zero_add] at here
  have messages := file.length_declared .message front.length (Outline.messages (front.flatMap (·.2))).length
  have enums := file.length_declared .enum front.length (Outline.messages (front.flatMap (·.2))).length
  rw [← here] at messages enums
  refine ⟨⟨⟨rest.flatMap (·.2), ?_⟩, ?_⟩, here⟩
  · rw [Request.outlined, split, List.flatMap_append, List.flatMap_cons, here]
  · rw [split, linkFiles_append, List.getElem?_append_right (by rw [length_linkFiles]),
      length_linkFiles, Nat.sub_self, linkFiles]
    simp only [List.getElem?_cons_zero, Nat.zero_add, Option.some.injEq]
    exact congrArg₂ (fun messages enums => ProtoSchema.File.mk _ _ _ (List.range' _ messages)
      (List.range' _ enums) _) messages enums

theorem map_outlineFiles (index id : Nat) (files : List File) :
    (outlineFiles index id files).map (·.1) = files := by
  induction files generalizing index id with
  | nil => rfl
  | cons file rest ih => rw [outlineFiles, List.map_cons, ih]

theorem exists_stands_of_mem {files : List File} {file : File} (member : file ∈ files) :
    ∃ index before, file.Stands files index before := by
  rw [← map_outlineFiles 0 0 files] at member
  obtain ⟨⟨_, outlines⟩, listed, rfl⟩ := List.mem_map.1 member
  obtain ⟨front, rest, split⟩ := List.append_of_mem listed
  exact ⟨_, _, (stands_of_split split).1⟩

theorem exists_split_of_lt_flatMap {α β : Type} {parts : α → List β} {values : List α} {index : Nat}
    (inside : index < (values.flatMap parts).length) :
    ∃ front value rest j, values = front ++ value :: rest ∧
      index = (front.flatMap parts).length + j ∧ j < (parts value).length := by
  induction values generalizing index with
  | nil => exact absurd inside (Nat.not_lt_zero index)
  | cons first others ih =>
      rw [List.flatMap_cons, List.length_append] at inside
      by_cases here : index < (parts first).length
      · exact ⟨[], first, others, index, rfl, (Nat.zero_add index).symm, here⟩
      · have behind : index - (parts first).length < (others.flatMap parts).length := by omega
        obtain ⟨front, value, rest, j, rfl, place, within⟩ := ih behind
        refine ⟨first :: front, value, rest, j, rfl, ?_, within⟩
        rw [List.flatMap_cons, List.length_append]
        omega

/-- Everything that is declared is declared in one of the files. -/
theorem exists_stands_of_lt {α : Type} (family : Outline.Family α) {files : List File} {id : Nat}
    (inside : id < (family.declared (outlined files)).length) :
    ∃ file ∈ files, ∃ index before j, file.Stands files index before ∧
      id = (family.declared before).length + j ∧ j < (family.declared (file.outline 0 0)).length := by
  have spread (entries : List (File × List Outline)) :
      family.declared (entries.flatMap (·.2)) = entries.flatMap fun entry => family.declared entry.2 :=
    List.filterMap_flatMap ..
  unfold outlined at inside
  rw [spread] at inside
  obtain ⟨front, ⟨file, outlines⟩, rest, j, split, place, within⟩ := exists_split_of_lt_flatMap inside
  obtain ⟨stands, here⟩ := stands_of_split split
  have given : file ∈ (outlineFiles 0 0 files).map (·.1) := by
    rw [split]
    simp
  rw [map_outlineFiles] at given
  rw [← spread] at place
  rw [here, file.length_declared] at within
  exact ⟨file, given, _, _, j, stands, place, within⟩

theorem names_outlined {α : Type} (family : Outline.Family α) (files : List File) :
    family.names (outlined files) = files.flatMap fun file => family.names (file.outline 0 0) := by
  have grow (index id : Nat) (files : List File) :
      family.names ((outlineFiles index id files).flatMap (·.2)) =
        files.flatMap fun file => family.names (file.outline 0 0) := by
    induction files generalizing index id with
    | nil => rfl
    | cons file rest ih =>
        rw [outlineFiles, List.flatMap_cons, List.flatMap_cons, ← ih, ← file.names_outline family index id]
        unfold Outline.Family.names
        rw [family.declared_append, List.map_append]
  exact grow 0 0 files

theorem map_name_linkFiles (messages enums : Nat) (files : List (File × List Outline)) :
    (linkFiles messages enums files).map (·.name) = (files.map (·.1)).map (·.name) := by
  induction files generalizing messages enums with
  | nil => rfl
  | cons entry rest ih => rw [linkFiles, List.map_cons, List.map_cons, List.map_cons, ih]

theorem File.Stands.getElem?_name {file : File} {files : List File} {index : Nat} {before : List Outline}
    (stands : file.Stands files index before) : (files.map (·.name))[index]? = some file.name := by
  have names := map_name_linkFiles 0 0 (outlineFiles 0 0 files)
  rw [map_outlineFiles] at names
  rw [← names, List.getElem?_map, stands.linked]
  rfl

/-! ## Linked models -/

theorem nodup_of_repeatedFile? {earlier : List String} {files : List File}
    (none : repeatedFile? earlier files = none) :
    (files.map (·.name)).Nodup ∧ ∀ file ∈ files, file.name ∉ earlier := by
  induction files generalizing earlier with
  | nil => simp
  | cons file rest ih =>
      unfold repeatedFile? at none
      split at none
      · cases none
      · rename_i fresh
        obtain ⟨unique, apart⟩ := ih none
        refine ⟨List.nodup_cons.2 ⟨fun again => ?_, unique⟩, fun other member => ?_⟩
        · obtain ⟨other, member, same⟩ := List.mem_map.1 again
          exact apart other member (same ▸ List.mem_cons_self)
        · rcases List.mem_cons.1 member with rfl | later
          · exact fresh
          · exact fun old => apart other later (List.mem_cons_of_mem _ old)

/-- Everything that is outlined in the files of a request, under its absolute name. -/
def names (request : Request) : List (String × TypeLink) := directory 0 0 (outlined request.files)

/-- The model holds the files of the request and what is outlined in them, linked. -/
structure Links (request : Request) (model : Model) : Prop where
  unique : (request.files.map (·.name)).Nodup
  files : model.files = linkFiles 0 0 (outlineFiles 0 0 request.files)
  messages : Forall₂ (fun outline message => linkMessage request.names outline = .ok message)
    (Outline.messages (outlined request.files)) model.messages
  enums : model.enums = Outline.enums (outlined request.files)

theorem links_of_link {request : Request} {model : Model} (linked : request.link = .ok model) :
    request.Links model := by
  unfold link at linked
  split at linked
  · cases linked
  · rename_i none
    obtain ⟨messages, ended, same⟩ := exists_of_bind_ok linked
    cases same
    exact ⟨(nodup_of_repeatedFile? none).1, rfl, mapM_ok_iff.1 ended, rfl⟩

theorem Links.map_name_files {request : Request} {model : Model} (links : request.Links model) :
    model.files.map (·.name) = request.files.map (·.name) := by
  rw [links.files, map_name_linkFiles, map_outlineFiles]

theorem Links.file?_eq_some {request : Request} {model : Model} (links : request.Links model) {file : File}
    {index : Nat} {before : List Outline} (stands : file.Stands request.files index before) :
    model.file? file.name =
      some (file.linked (Outline.messages before).length (Outline.enums before).length) := by
  have place := stands.linked
  rw [← links.files] at place
  have unique : (model.files.map (·.name)).Nodup := by
    rw [links.map_name_files]
    exact links.unique
  cases shown : model.file? file.name with
  | none => simpa [File.linked] using List.find?_eq_none.1 shown _ (List.mem_of_getElem? place)
  | some found =>
      have same : found.name = file.name := by simpa using List.find?_some shown
      obtain ⟨other, there⟩ := List.getElem?_of_mem (List.mem_of_find?_eq_some shown)
      cases Model.index_inj unique there place same
      exact there.symm.trans place

theorem Links.exists_file {request : Request} {model : Model} (links : request.Links model) {name : String}
    {given : ProtoSchema.File} (found : model.file? name = some given) :
    ∃ (file : File) (index : Nat) (before : List Outline), file ∈ request.files ∧
      file.Stands request.files index before ∧ name = file.name ∧
      given = file.linked (Outline.messages before).length (Outline.enums before).length := by
  have named : given.name = name := by simpa using List.find?_some found
  have member : name ∈ request.files.map (·.name) := by
    rw [← links.map_name_files, ← named]
    exact List.mem_map_of_mem (List.mem_of_find?_eq_some found)
  obtain ⟨file, listed, rfl⟩ := List.mem_map.1 member
  obtain ⟨index, before, stands⟩ := exists_stands_of_mem listed
  exact ⟨file, index, before, listed, stands, rfl,
    Option.some.inj (found.symm.trans (links.file?_eq_some stands))⟩

theorem linkMessage_ok {declared : List (String × TypeLink)} {outline message : ProtoSchema.Message}
    (linked : linkMessage declared outline = .ok message) :
    ∃ fields, message = { outline with fields } ∧
      Forall₂ (fun field given => linkField declared outline.absoluteName field = .ok given)
        outline.fields fields := by
  obtain ⟨fields, ended, same⟩ := exists_of_bind_ok linked
  cases same
  exact ⟨fields, rfl, mapM_ok_iff.1 ended⟩

/-! ## Names -/

theorem mem_directory_message {messages enums id : Nat} {name : String} {outlines : List Outline} :
    (name, .message id) ∈ directory messages enums outlines ↔
      ∃ j declared, id = messages + j ∧ (Outline.messages outlines)[j]? = some declared ∧
        name = declared.absoluteName := by
  induction outlines generalizing messages enums with
  | nil => simp [directory, Outline.messages]
  | cons outline rest ih =>
      cases outline with
      | message declared =>
          rw [directory, List.mem_cons, ih, Outline.messages_cons]
          constructor
          · rintro (same | ⟨j, other, rfl, found, rfl⟩)
            · cases same
              exact ⟨0, declared, rfl, rfl, rfl⟩
            · exact ⟨j + 1, other, by omega, found, rfl⟩
          · rintro ⟨j, other, rfl, found, rfl⟩
            cases j with
            | zero =>
                cases found
                exact .inl rfl
            | succ j => exact .inr ⟨j, other, by omega, found, rfl⟩
      | enum declared =>
          have other : (name, TypeLink.message id) ≠ (declared.absoluteName, .enum enums) := by simp
          rw [directory, List.mem_cons, ih, or_iff_right other]
          rfl

theorem mem_directory_enum {messages enums id : Nat} {name : String} {outlines : List Outline} :
    (name, .enum id) ∈ directory messages enums outlines ↔
      ∃ j declared, id = enums + j ∧ (Outline.enums outlines)[j]? = some declared ∧
        name = declared.absoluteName := by
  induction outlines generalizing messages enums with
  | nil => simp [directory, Outline.enums]
  | cons outline rest ih =>
      cases outline with
      | enum declared =>
          rw [directory, List.mem_cons, ih, Outline.enums_cons]
          constructor
          · rintro (same | ⟨j, other, rfl, found, rfl⟩)
            · cases same
              exact ⟨0, declared, rfl, rfl, rfl⟩
            · exact ⟨j + 1, other, by omega, found, rfl⟩
          · rintro ⟨j, other, rfl, found, rfl⟩
            cases j with
            | zero =>
                cases found
                exact .inl rfl
            | succ j => exact .inr ⟨j, other, by omega, found, rfl⟩
      | message declared =>
          have other : (name, TypeLink.enum id) ≠ (declared.absoluteName, .message messages) := by simp
          rw [directory, List.mem_cons, ih, or_iff_right other]
          rfl

end Request

/-- The link leads to a declaration of that absolute name. -/
def Model.LeadsTo (model : Model) (name : String) : TypeLink → Prop
  | .message id => ∃ message, model.message? id = some message ∧ name = message.absoluteName
  | .enum id => ∃ enum, model.enum? id = some enum ∧ name = enum.absoluteName

theorem Model.NamesApart.link_unique {model : Model} {name : String} {one two : TypeLink}
    (apart : model.NamesApart) (first : model.LeadsTo name one) (second : model.LeadsTo name two) :
    one = two := by
  cases one with
  | message one =>
      obtain ⟨left, found, rfl⟩ := first
      cases two with
      | message two =>
          obtain ⟨right, shown, same⟩ := second
          rw [apart.message_inj found shown same]
      | enum two =>
          obtain ⟨right, shown, same⟩ := second
          exact absurd same (apart.message_ne_enum found shown)
  | enum one =>
      obtain ⟨left, found, rfl⟩ := first
      cases two with
      | message two =>
          obtain ⟨right, shown, same⟩ := second
          exact absurd same.symm (apart.message_ne_enum shown found)
      | enum two =>
          obtain ⟨right, shown, same⟩ := second
          rw [apart.enum_inj found shown same]

namespace Request

variable {request : Request} {model : Model}

/-- What is outlined is a message of the model in its place, with its fields linked. -/
theorem Links.exists_message (links : request.Links model) {id : Nat} {outline : ProtoSchema.Message}
    (found : (Outline.messages (outlined request.files))[id]? = some outline) :
    ∃ message, model.message? id = some message ∧ linkMessage request.names outline = .ok message :=
  exists_getElem?_of_forall₂ links.messages found

theorem Links.exists_outline (links : request.Links model) {id : Nat} {message : ProtoSchema.Message}
    (found : model.message? id = some message) :
    ∃ outline, (Outline.messages (outlined request.files))[id]? = some outline ∧
      linkMessage request.names outline = .ok message :=
  exists_getElem?_of_forall₂ links.messages.flip found

theorem Links.message?_eq_none_iff (links : request.Links model) {id : Nat} :
    model.message? id = none ↔ (Outline.messages (outlined request.files))[id]? = none := by
  unfold Model.message?
  rw [List.getElem?_eq_none_iff, List.getElem?_eq_none_iff, links.messages.length_eq]

theorem absoluteName_of_linkMessage {declared : List (String × TypeLink)}
    {outline message : ProtoSchema.Message} (linked : linkMessage declared outline = .ok message) :
    message.absoluteName = outline.absoluteName := by
  obtain ⟨fields, rfl, -⟩ := linkMessage_ok linked
  rfl

theorem Links.names_messages (links : request.Links model) :
    model.messages.map (·.absoluteName) = Outline.Family.message.names (outlined request.files) := by
  have all := links.messages
  change _ = (Outline.messages (outlined request.files)).map (·.absoluteName)
  generalize Outline.messages (outlined request.files) = outlines at all ⊢
  generalize model.messages = messages at all ⊢
  induction all with
  | nil => rfl
  | cons linked _ ih => rw [List.map_cons, List.map_cons, ih, absoluteName_of_linkMessage linked]

theorem Links.mem_names (links : request.Links model) {name : String} {link : TypeLink} :
    (name, link) ∈ request.names ↔ model.LeadsTo name link := by
  unfold names
  cases link with
  | message id =>
      rw [mem_directory_message]
      constructor
      · rintro ⟨j, outline, rfl, found, rfl⟩
        obtain ⟨message, shown, linked⟩ := links.exists_message found
        exact ⟨message, by rw [Nat.zero_add, shown], (absoluteName_of_linkMessage linked).symm⟩
      · rintro ⟨message, shown, rfl⟩
        obtain ⟨outline, found, linked⟩ := links.exists_outline shown
        exact ⟨id, outline, (Nat.zero_add id).symm, found, absoluteName_of_linkMessage linked⟩
  | enum id =>
      rw [mem_directory_enum, Model.LeadsTo, Model.enum?, links.enums]
      constructor
      · rintro ⟨j, enum, rfl, found, rfl⟩
        exact ⟨enum, by rw [Nat.zero_add, found], rfl⟩
      · rintro ⟨enum, found, rfl⟩
        exact ⟨id, enum, (Nat.zero_add id).symm, found, rfl⟩

/-- Where no two declarations have one name, a type name is resolved to what has it. -/
theorem Links.resolve?_eq_some_iff (links : request.Links model) (apart : model.NamesApart)
    {typeName : String} {link : TypeLink} :
    resolve? request.names typeName = some link ↔
      model.LeadsTo (String.ofList (typeName.toList.dropWhile (· = '.'))) link := by
  rw [← links.mem_names, ← List.mem_reverse]
  refine ⟨mem_of_lookup, fun member => Entries.lookup_of_unique member fun other also => ?_⟩
  rw [List.mem_reverse, links.mem_names] at member also
  exact apart.link_unique also member

end Request

end ProtoSchema
