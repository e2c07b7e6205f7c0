import Mathlib.Data.List.Induction
import ProtoSchema.Proofs.Arena

/-!
Comments of declarations. The comment of a declaration is found in its own file, under its own path, and
among several locations with that path it is the last one: `comments_of_link`.
-/
namespace ProtoSchema.Request

/-! ## Comments in a file -/

def File.locations (given : File) : List Location := (given.sourceInfo.map (·.locations)).getD []

/-- The comment is the one at the last commented location with the path, or empty if there is none. -/
def File.Documents (given : File) (path : List Int) (comment : String) : Prop :=
  (∃ before location after, given.locations = before ++ location :: after ∧ location.path = path ∧
    location.leadingComments = some comment ∧
    ∀ later ∈ after, later.path = path → later.leadingComments = none) ∨
  comment = "" ∧ ∀ location ∈ given.locations, location.path = path → location.leadingComments = none

theorem File.documents_commentAt (given : File) (path : List Int) :
    given.Documents path (given.commentAt path) := by
  have comment : given.commentAt path = (given.locations.reverse.findSome? fun location =>
      if location.path = path then location.leadingComments else none).getD "" := by
    unfold commentAt locations SourceInfo.comment?
    cases given.sourceInfo <;> rfl
  rw [comment]
  cases found : given.locations.reverse.findSome? fun location =>
      if location.path = path then location.leadingComments else none with
  | none =>
      refine .inr ⟨rfl, fun location member same => ?_⟩
      simpa [same] using List.findSome?_eq_none_iff.1 found location (List.mem_reverse.2 member)
  | some words =>
      obtain ⟨after, location, before, whole, here, silent⟩ := List.findSome?_eq_some_iff.1 found
      have split : given.locations = before.reverse ++ location :: after.reverse := by
        rw [← List.reverse_reverse given.locations, whole]
        simp
      have same : location.path = path := by
        by_contra other
        simp [other] at here
      refine .inl ⟨before.reverse, location, after.reverse, split, same, by simpa [same] using here, ?_⟩
      intro later member named
      simpa [named] using silent later (List.mem_reverse.1 member)

/-- The comment is found under the path in the file at the index. -/
def Documents (request : Request) (file : Nat) (path : List Int) (comment : String) : Prop :=
  ∃ given, request.files[file]? = some given ∧ given.Documents path comment

/-! ## Positions in paths -/

theorem pathPosition_eq {index : Nat} (short : index < 2 ^ 31) : pathPosition index = index :=
  Int32.toInt_ofNat_of_lt short

/-- All lists of declarations are short enough for positions in 32 bits. -/
structure Short (request : Request) : Prop where
  files : ∀ file ∈ request.files, file.messages.length < 2 ^ 31 ∧ file.enums.length < 2 ^ 31
  messages : ∀ site raw, request.item? site = some (.message raw) →
    raw.fields.length < 2 ^ 31 ∧ raw.nested.length < 2 ^ 31 ∧ raw.enums.length < 2 ^ 31

variable {request : Request} {model : Model} {site : Site}

theorem Short.scope (short : request.Short) {scope : Scope} (surrounded : request.scope? site = some scope) :
    scope.fields.length < 2 ^ 31 ∧ scope.messages.length < 2 ^ 31 ∧ scope.enums.length < 2 ^ 31 := by
  obtain ⟨given, found, reached⟩ := Option.bind_eq_some_iff.1 surrounded
  cases around : site.outer? with
  | none =>
      have top : site.around = [] := by simpa [Site.outer?] using around
      rw [top] at reached
      cases reached
      exact ⟨by simp [File.scope], short.files given (List.mem_of_getElem? found)⟩
  | some owner =>
      obtain ⟨wider, raw, sameFile, named, deeper, listed, rfl⟩ := exists_outer reached around
      refine short.messages owner raw ?_
      rw [← sameFile] at found
      rw [item?_eq found deeper, named, Scope.item?, listed, Option.map_some]

theorem Short.messagePath_eq (short : request.Short) {file : Nat} {given : File}
    (found : request.files[file]? = some given) {around : List Nat} {scope : Scope}
    (reached : given.scope.at? around = some scope) :
    messagePath pathPosition around = messagePath Nat.cast around := by
  induction around using List.reverseRecOn generalizing scope with
  | nil => rfl
  | append_singleton outer index ih =>
      rw [Scope.at?_concat] at reached
      obtain ⟨wider, deeper, inside⟩ := Option.bind_eq_some_iff.1 reached
      obtain ⟨raw, listed, -⟩ := Option.map_eq_some_iff.1 inside
      have surrounded : request.scope? ⟨file, outer, .message, index⟩ = some wider := by
        rw [scope?, found, Option.bind_some, deeper]
      have bound := (List.getElem?_eq_some_iff.1 listed).1
      have lists := short.scope surrounded
      rw [messagePath_concat, messagePath_concat, ih deeper, pathPosition_eq (by omega)]

/-- Where lists are short, positions do not wrap around. -/
theorem Short.pathBy_eq (short : request.Short) {item : Item} (shown : request.item? site = some item) :
    site.pathBy pathPosition = site.path := by
  obtain ⟨scope, surrounded, listed⟩ := Option.bind_eq_some_iff.1 shown
  obtain ⟨given, found, reached⟩ := Option.bind_eq_some_iff.1 surrounded
  have lists := short.scope surrounded
  have bound : site.index < 2 ^ 31 := by
    cases part : site.part <;> rw [part] at listed <;>
      obtain ⟨_, inside, -⟩ := Option.map_eq_some_iff.1 listed <;>
      have within := (List.getElem?_eq_some_iff.1 inside).1 <;> omega
  rw [Site.pathBy, Site.path, Site.pathBy, short.messagePath_eq found reached, pathPosition_eq bound]

/-! ## Comments of a model -/

/-- Every declaration has the comment that is found under its path in its file, and no two declarations of
a file have one path. -/
structure Commented (request : Request) (model : Model) : Prop where
  message : ∀ site raw, request.item? site = some (.message raw) → ∃ id message,
    request.messageSites[id]? = some site ∧ model.message? id = some message ∧
      request.Documents site.file site.path message.comment
  field : ∀ site raw, request.item? site = some (.message raw) → ∃ id message,
    request.messageSites[id]? = some site ∧ model.message? id = some message ∧
      message.fields.length = raw.fields.length ∧ ∀ index field, message.fields[index]? = some field →
        request.Documents site.file (site.field index).path field.comment
  enum : ∀ site raw, request.item? site = some (.enum raw) → ∃ id enum,
    request.enumSites[id]? = some site ∧ model.enum? id = some enum ∧
      request.Documents site.file site.path enum.comment
  package : ∀ (index : Nat) file, model.files[index]? = some file →
    request.Documents index [packagePart] file.packageComment
  apart : ∀ one two : Site, one.file = two.file → one.path = two.path → one = two
  packageApart : ∀ site : Site, site.path ≠ [packagePart]

theorem comments_of_link (linked : request.link = .ok model) (short : request.Short) :
    request.Commented model where
  message site raw shown := by
    obtain ⟨message, place, found, there⟩ :=
      (links_of_link linked).exists_message_at (mem_messageSites_iff.2 ⟨raw, shown⟩)
    refine ⟨_, message, place, found, ?_⟩
    rw [← short.pathBy_eq shown]
    cases there with
    | intro given _ _ _ _ => exact ⟨_, given, File.documents_commentAt _ _⟩
  field site raw shown := by
    obtain ⟨message, place, found, there⟩ :=
      (links_of_link linked).exists_message_at (mem_messageSites_iff.2 ⟨raw, shown⟩)
    have named : site.part = .message := (part_of_item shown).symm
    have path := short.pathBy_eq shown
    have lists := short.messages site raw shown
    cases there with
    | intro given reached _ listed _ =>
        rw [item?_eq given reached, named, Scope.item?, listed] at shown
        cases shown
        refine ⟨_, _, place, found, List.length_mapIdx, fun index field inside => ⟨_, given, ?_⟩⟩
        obtain ⟨rawField, declared, rfl⟩ := Option.map_eq_some_iff.1 (List.getElem?_mapIdx ▸ inside)
        have bound := (List.getElem?_eq_some_iff.1 declared).1
        have spelled : (site.field index).path =
            site.pathBy pathPosition ++ [messageFields, pathPosition index] := by
          rw [path, Site.path_field, Site.path_of_message named, pathPosition_eq (by omega)]
        rw [spelled]
        exact File.documents_commentAt _ _
  enum site raw shown := by
    obtain ⟨id, place⟩ := List.getElem?_of_mem (mem_enumSites_iff.2 ⟨raw, shown⟩)
    obtain ⟨enum, found, there⟩ := exists_getElem?_of_forall₂ (links_of_link linked).enums_at place
    refine ⟨id, enum, place, found, ?_⟩
    rw [← short.pathBy_eq shown]
    cases there with
    | enum given _ _ _ => exact ⟨_, given, File.documents_commentAt _ _⟩
  package index file place := by
    obtain ⟨given, found, -, -, comment⟩ :=
      exists_getElem?_of_forall₂ (links_of_link linked).forall₂_files.flip place
    rw [comment]
    exact ⟨given, found, given.documents_commentAt _⟩
  apart _ _ := Site.eq_of_path
  packageApart := Site.path_ne_package

/-- A leaf and its veins, with two comments on the leaf and a place without one. -/
def herbarium : Request where
  files := [
    { name := "leaf.proto"
      package := "forest"
      messages := [
        { name := "Leaf"
          fields := [{ name := "age" }]
          nested := [{ name := "Vein" }] }]
      sourceInfo := some {
        locations := [
          { path := [4, 0]
            leadingComments := some " Green.\n" },
          { path := [4, 0]
            leadingComments := some " A leaf.\n" },
          { path := [4, 0] },
          { path := [4, 0, 2, 0]
            leadingComments := some " In days.\n" },
          { path := [4, 0, 3, 0]
            leadingComments := some " A vein.\n" }] } }]

theorem comments_of_link_herbarium :
    ∃ model, herbarium.link = .ok model ∧ herbarium.Short ∧ herbarium.Commented model ∧
      model.messages.map (·.comment) = [" A leaf.\n", " A vein.\n"] := by
  have linked : herbarium.link = .ok (herbarium.link.toOption.getD ⟨[], [], []⟩) := by
    rfl
  have short : herbarium.Short := by
    constructor
    · simp [herbarium]
    · intro site raw shown
      have member := mem_messageSites_iff.2 ⟨raw, shown⟩
      have sites : herbarium.messageSites = [⟨0, [], .message, 0⟩, ⟨0, [0], .message, 0⟩] := by
        decide +kernel
      rw [sites, List.mem_cons, List.mem_singleton] at member
      rcases member with rfl | rfl <;> cases shown <;> decide
  exact ⟨_, linked, short, comments_of_link linked short, by decide +kernel⟩

end ProtoSchema.Request
