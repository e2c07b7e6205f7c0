import ProtoSchema.Proofs.Linking

/-!
Requests with the files of another one, in any order and among further files. Every declaration of the
smaller request is found in the wider one under its absolute name, and is the same there but for numbers.
-/
namespace ProtoSchema

/-! ## Counterparts -/

/-- The place of a name among the others, by its place among the names. Where there is no name, there is
no other at the place either. -/
def counterpart (names others : List String) (index : Nat) : Nat :=
  match names[index]? with
  | some name => others.idxOf name
  | none => others.length + index

section

variable {names others : List String} {index place : Nat}

theorem counterpart_eq (unique : others.Nodup) (same : names[index]? = others[place]?)
    (inside : index < names.length) : counterpart names others index = place := by
  have found : names[index]? = some names[index] := List.getElem?_eq_getElem inside
  obtain ⟨within, shown⟩ := List.getElem?_eq_some_iff.1 (same ▸ found)
  simp only [counterpart, found]
  rw [← shown, unique.idxOf_getElem]

theorem counterpart_of_none (missing : names[index]? = none) :
    counterpart names others index = others.length + index := by
  simp only [counterpart, missing]

theorem getElem?_counterpart {name : String} (subset : names ⊆ others) (found : names[index]? = some name) :
    others[counterpart names others index]? = some name := by
  have inside := List.idxOf_lt_length_of_mem (subset (List.mem_of_getElem? found))
  simp only [counterpart, found, List.getElem?_eq_getElem inside, List.getElem_idxOf]

theorem counterpart_injective (unique : names.Nodup) (subset : names ⊆ others) :
    Function.Injective (counterpart names others) := by
  intro left right same
  cases first : names[left]? with
  | none =>
      rw [counterpart_of_none first] at same
      cases second : names[right]? with
      | none =>
          rw [counterpart_of_none second] at same
          exact Nat.add_left_cancel same
      | some name =>
          have within := (List.getElem?_eq_some_iff.1 (getElem?_counterpart subset second)).1
          omega
  | some name =>
      have there := getElem?_counterpart subset first
      rw [same] at there
      cases second : names[right]? with
      | none =>
          have within := (List.getElem?_eq_some_iff.1 there).1
          rw [counterpart_of_none second] at within
          omega
      | some other =>
          cases there.symm.trans (getElem?_counterpart subset second)
          exact (List.getElem?_inj (List.getElem?_eq_some_iff.1 first).1 unique).1 (first.trans second.symm)

theorem map_range' {change : Nat → Nat} {start other count : Nat}
    (moves : ∀ j < count, change (start + j) = other + j) :
    (List.range' start count).map change = List.range' other count := by
  refine List.ext_getElem (by simp) fun j bound _ => ?_
  simpa using moves j (by simpa using bound)

end

def File.renumbered (numbers : Renumbering) (file : File) : File :=
  { file with
    messages := file.messages.map numbers.message
    enums := file.enums.map numbers.enum }

namespace Request

/-- The wider request has all files of the request, and in both no two declarations have one name. -/
structure Widens (request wider : Request) (one two : Model) : Prop where
  links : request.Links one
  alsoLinks : wider.Links two
  subset : request.files ⊆ wider.files
  apart : one.NamesApart
  alsoApart : two.NamesApart

open Outline (Family)

variable {request wider : Request} {one two : Model} {file : File} {index other id j : Nat}
  {before behind : List Outline}

theorem Links.unique_messages (links : request.Links one) (apart : one.NamesApart) :
    (Family.message.names (outlined request.files)).Nodup := by
  rw [← links.names_messages]
  exact (List.nodup_append.1 apart).1

theorem Links.unique_enums (links : request.Links one) (apart : one.NamesApart) :
    (Family.enum.names (outlined request.files)).Nodup := by
  have enums : one.enums = Family.enum.declared (outlined request.files) := links.enums
  unfold Family.names
  rw [← enums]
  exact (List.nodup_append.1 apart).2.1

namespace Widens

variable (widens : request.Widens wider one two)

include widens

theorem names_subset {α : Type} (family : Family α) :
    family.names (outlined request.files) ⊆ family.names (outlined wider.files) := by
  intro name member
  rw [names_outlined] at member ⊢
  obtain ⟨file, listed, inside⟩ := List.mem_flatMap.1 member
  exact List.mem_flatMap.2 ⟨file, widens.subset listed, inside⟩

/-- The numbers that the declarations of the request have in the wider one. -/
def numbers : Renumbering where
  file := counterpart (request.files.map (·.name)) (wider.files.map (·.name))
  message := counterpart (Family.message.names (outlined request.files))
    (Family.message.names (outlined wider.files))
  enum := counterpart (Family.enum.names (outlined request.files)) (Family.enum.names (outlined wider.files))
  injective := counterpart_injective (widens.links.unique_messages widens.apart)
    (widens.names_subset .message)

end Widens

/-- What a file declares keeps its order wherever the file stands. -/
theorem counterpart_of_stands {α : Type} (family : Family α)
    (unique : (family.names (outlined wider.files)).Nodup)
    (stands : file.Stands request.files index before) (likewise : file.Stands wider.files other behind)
    (inside : j < (family.declared (file.outline 0 0)).length) :
    counterpart (family.names (outlined request.files)) (family.names (outlined wider.files))
      ((family.declared before).length + j) = (family.declared behind).length + j := by
  have namesOf {files : List File} {index : Nat} {before : List Outline}
      (stands : file.Stands files index before) :
      (family.names (outlined files))[(family.declared before).length + j]? =
        (family.names (file.outline 0 0))[j]? := by
    rw [← file.names_outline family index (Outline.messages before).length, family.getElem?_names,
      family.getElem?_names, stands.getElem?_declared family inside]
  refine counterpart_eq unique ((namesOf stands).trans (namesOf likewise).symm) ?_
  rw [← family.length_names] at inside
  rw [List.getElem?_eq_getElem inside] at namesOf
  exact (List.getElem?_eq_some_iff.1 (namesOf stands)).1

theorem counterpart_of_files (unique : (wider.files.map (·.name)).Nodup)
    (stands : file.Stands request.files index before) (likewise : file.Stands wider.files other behind) :
    counterpart (request.files.map (·.name)) (wider.files.map (·.name)) index = other := by
  refine counterpart_eq unique (stands.getElem?_name.trans likewise.getElem?_name.symm) ?_
  exact (List.getElem?_eq_some_iff.1 stands.getElem?_name).1

namespace Widens

variable (widens : request.Widens wider one two)

include widens

theorem number_eq (stands : file.Stands request.files index before)
    (likewise : file.Stands wider.files other behind)
    (inside : j < (Outline.messages (file.outline 0 0)).length) :
    widens.numbers.message ((Outline.messages before).length + j) = (Outline.messages behind).length + j :=
  counterpart_of_stands .message (widens.alsoLinks.unique_messages widens.alsoApart) stands likewise inside

theorem enumNumber_eq (stands : file.Stands request.files index before)
    (likewise : file.Stands wider.files other behind)
    (inside : j < (Outline.enums (file.outline 0 0)).length) :
    widens.numbers.enum ((Outline.enums before).length + j) = (Outline.enums behind).length + j :=
  counterpart_of_stands .enum (widens.alsoLinks.unique_enums widens.alsoApart) stands likewise inside

/-- A file is outlined alike in both requests, but for numbers. -/
theorem outline_eq (stands : file.Stands request.files index before)
    (likewise : file.Stands wider.files other behind) :
    file.outline other (Outline.messages behind).length =
      (file.outline index (Outline.messages before).length).map (Outline.renumbered widens.numbers) := by
  have moves : widens.numbers.Moves (Outline.messages before).length (Outline.messages behind).length
      (Outline.messages (file.outline index (Outline.messages before).length)).length := by
    intro j bound
    rw [show (Outline.messages (file.outline index (Outline.messages before).length)).length = _ from
      file.length_declared .message index _] at bound
    exact widens.number_eq stands likewise bound
  have place : widens.numbers.file index = other :=
    counterpart_of_files widens.alsoLinks.unique stands likewise
  rw [← File.outline_renumbered file index _ _ moves, place]

/-- What is declared in the request is declared in the wider one, at its number there. -/
theorem getElem?_counterpart {α : Type} (family : Family α)
    (unique : (family.names (outlined wider.files)).Nodup) (id : Nat) :
    (family.declared (outlined wider.files))[counterpart (family.names (outlined request.files))
        (family.names (outlined wider.files)) id]? =
      (family.declared (outlined request.files))[id]?.map (family.change widens.numbers) := by
  by_cases inside : id < (family.declared (outlined request.files)).length
  · obtain ⟨file, listed, index, before, j, stands, rfl, within⟩ := exists_stands_of_lt family inside
    obtain ⟨other, behind, likewise⟩ := exists_stands_of_mem (widens.subset listed)
    rw [counterpart_of_stands family unique stands likewise within,
      likewise.getElem?_declared family within, stands.getElem?_declared family within,
      widens.outline_eq stands likewise, family.declared_renumbered, List.getElem?_map]
  · have missing : (family.declared (outlined request.files))[id]? = none :=
      List.getElem?_eq_none (Nat.le_of_not_lt inside)
    have nameless : (family.names (outlined request.files))[id]? = none := by
      rw [family.getElem?_names, missing, Option.map_none]
    rw [counterpart_of_none nameless, family.length_names, missing, Option.map_none]
    exact List.getElem?_eq_none (Nat.le_add_right _ id)

/-! ## Links under the other numbers -/

theorem enum_renumbered (id : Nat) :
    two.enum? (widens.numbers.enum id) = (one.enum? id).map (Enum.renumbered widens.numbers) := by
  unfold Model.enum?
  rw [widens.links.enums, widens.alsoLinks.enums]
  exact widens.getElem?_counterpart .enum (widens.alsoLinks.unique_enums widens.alsoApart) id

theorem outline?_renumbered (id : Nat) :
    (Outline.messages (outlined wider.files))[widens.numbers.message id]? =
      (Outline.messages (outlined request.files))[id]?.map (Message.renumbered widens.numbers) :=
  widens.getElem?_counterpart .message (widens.alsoLinks.unique_messages widens.alsoApart) id

theorem exists_namesake {message : ProtoSchema.Message} (found : one.message? id = some message) :
    ∃ namesake, two.message? (widens.numbers.message id) = some namesake ∧
      namesake.absoluteName = message.absoluteName := by
  obtain ⟨outline, shown, linked⟩ := widens.links.exists_outline found
  have there := widens.outline?_renumbered id
  rw [shown] at there
  obtain ⟨namesake, present, alsoLinked⟩ := widens.alsoLinks.exists_message there
  refine ⟨namesake, present, ?_⟩
  rw [absoluteName_of_linkMessage linked, absoluteName_of_linkMessage alsoLinked]
  rfl

theorem leadsTo {name : String} {link : TypeLink} (leads : one.LeadsTo name link) :
    two.LeadsTo name (link.renumbered widens.numbers) := by
  cases link with
  | message id =>
      obtain ⟨message, found, rfl⟩ := leads
      obtain ⟨namesake, shown, same⟩ := widens.exists_namesake found
      exact ⟨namesake, shown, same.symm⟩
  | enum id =>
      obtain ⟨enum, found, rfl⟩ := leads
      exact ⟨enum.renumbered widens.numbers, by rw [widens.enum_renumbered, found]; rfl, rfl⟩

theorem linkField_ok {owner : String} {field given : ProtoSchema.Field}
    (linked : linkField request.names owner field = .ok given) :
    linkField wider.names owner (field.renumbered widens.numbers) =
      .ok (given.renumbered widens.numbers) := by
  have typed : (field.renumbered widens.numbers).typeName = field.typeName := rfl
  unfold linkField at linked ⊢
  rw [typed]
  cases named : field.typeName with
  | none =>
      simp only [named] at linked
      cases linked
      rfl
  | some typeName =>
      simp only [named] at linked ⊢
      cases resolved : resolve? request.names typeName with
      | none =>
          rw [resolved] at linked
          cases linked
      | some link =>
          rw [resolved] at linked
          cases linked
          have leads := (widens.links.resolve?_eq_some_iff widens.apart).1 resolved
          rw [(widens.alsoLinks.resolve?_eq_some_iff widens.alsoApart).2 (widens.leadsTo leads)]
          rfl

theorem linkMessage_ok {outline message : ProtoSchema.Message}
    (linked : linkMessage request.names outline = .ok message) :
    linkMessage wider.names (outline.renumbered widens.numbers) =
      .ok (message.renumbered widens.numbers) := by
  obtain ⟨fields, rfl, all⟩ := Request.linkMessage_ok linked
  have ended : (outline.renumbered widens.numbers).fields.mapM
      (linkField wider.names (outline.renumbered widens.numbers).absoluteName) =
        .ok (fields.map (Field.renumbered widens.numbers)) := by
    refine mapM_ok_iff.2 ?_
    change List.Forall₂ _ (outline.fields.map _) _
    rw [List.forall₂_map_left_iff, List.forall₂_map_right_iff]
    exact all.imp fun _ _ => widens.linkField_ok
  unfold linkMessage
  rw [ended]
  rfl

/-- The declarations of the request are those of the wider one under the other numbers. -/
theorem embeds : one.Embeds widens.numbers two where
  message id := by
    have there := widens.outline?_renumbered id
    cases found : one.message? id with
    | none =>
        rw [widens.links.message?_eq_none_iff.1 found] at there
        exact widens.alsoLinks.message?_eq_none_iff.2 there
    | some message =>
        obtain ⟨outline, shown, linked⟩ := widens.links.exists_outline found
        rw [shown] at there
        obtain ⟨counterpart, present, alsoLinked⟩ := widens.alsoLinks.exists_message there
        cases (widens.linkMessage_ok linked).symm.trans alsoLinked
        exact present
  enum := widens.enum_renumbered

theorem file_renumbered (stands : file.Stands request.files index before)
    (likewise : file.Stands wider.files other behind) :
    (file.linked (Outline.messages before).length (Outline.enums before).length).renumbered
        widens.numbers =
      file.linked (Outline.messages behind).length (Outline.enums behind).length := by
  unfold File.linked ProtoSchema.File.renumbered
  simp only [map_range' fun _ => widens.number_eq stands likewise,
    map_range' fun _ => widens.enumNumber_eq stands likewise]

/-- A file that is not new is found in both requests, or in neither. -/
theorem file?_eq {name : String} (known : ∀ file ∈ wider.files, file.name = name → file ∈ request.files) :
    two.file? name = (one.file? name).map (ProtoSchema.File.renumbered widens.numbers) := by
  cases found : one.file? name with
  | some given =>
      obtain ⟨file, index, before, listed, stands, rfl, rfl⟩ := widens.links.exists_file found
      obtain ⟨other, behind, likewise⟩ := exists_stands_of_mem (widens.subset listed)
      rw [widens.alsoLinks.file?_eq_some likewise, Option.map_some, widens.file_renumbered stands likewise]
  | none =>
      cases shown : two.file? name with
      | none => rfl
      | some given =>
          obtain ⟨file, index, before, listed, stands, rfl, -⟩ := widens.alsoLinks.exists_file shown
          obtain ⟨other, behind, likewise⟩ := exists_stands_of_mem (known file listed rfl)
          rw [widens.links.file?_eq_some likewise] at found
          cases found

end Widens

end Request

end ProtoSchema
