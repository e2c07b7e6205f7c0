import ProtoSchema.Proofs.Linking
import ProtoSchema.Proofs.Sites

/-!
What is outlined stands at the sites of the request. Outlining goes through the files as the sites are
listed, and what it notes of a declaration is what is declared at its site: `outlined_sites`. A message or
enum of a linked model therefore has the site that stands in its place among those of its kind.
-/
namespace ProtoSchema

open List (Forall₂)

theorem forall₂_through {α β γ : Type} {related : α → β → Prop} {further : β → γ → Prop}
    {left : List α} {middle : List β} {right : List γ} (first : Forall₂ related left middle)
    (second : Forall₂ further middle right) :
    Forall₂ (fun start stop => ∃ between, related start between ∧ further between stop) left right := by
  induction first generalizing right with
  | nil =>
      cases second
      exact .nil
  | cons here _ ih =>
      cases second with
      | cons there later => exact .cons ⟨_, here, there⟩ (ih later)

namespace Request

/-! ## Outlines at sites -/

/-- What surrounds a declaration at the site, where messages have the given numbers. -/
def surroundings (number : Site → Nat) (given : File) (site : Site) (scope : Scope) : Surroundings where
  file := given
  fileIndex := site.file
  parent := site.outer?.map number
  dottedName := scope.name
  path := messagePath pathPosition site.around

def Surroundings.message (around : Surroundings) (path : List Int) (raw : Message) : ProtoSchema.Message :=
  { around.declaration raw.name path with
    mapEntry := raw.options.any (·.mapEntry)
    fields := raw.fields.mapIdx (around.field path) }

def Surroundings.enum (around : Surroundings) (path : List Int) (raw : Enum) : ProtoSchema.Enum :=
  { around.declaration raw.name path with values := raw.values.map (·.name) }

/-- The outline is that of the message or enum at the site. -/
inductive Outlined (request : Request) (number : Site → Nat) (site : Site) : Outline → Prop
  | message {given : File} {scope : Scope} {raw : Message} :
      request.files[site.file]? = some given → given.scope.at? site.around = some scope →
      site.part = .message → scope.messages[site.index]? = some raw →
      Outlined request number site
        (.message ((surroundings number given site scope).message (site.pathBy pathPosition) raw))
  | enum {given : File} {scope : Scope} {raw : Enum} :
      request.files[site.file]? = some given → given.scope.at? site.around = some scope →
      site.part = .enum → scope.enums[site.index]? = some raw →
      Outlined request number site
        (.enum ((surroundings number given site scope).enum (site.pathBy pathPosition) raw))

/-- The messages among the sites have the numbers from `id` on, in their order. -/
def Numbers (number : Site → Nat) (id : Nat) (sites : List Site) : Prop :=
  ∀ j site, (sites.filter (·.part = .message))[j]? = some site → number site = id + j

variable {request : Request} {number : Site → Nat} {id : Nat}

theorem Numbers.left {front behind : List Site} (numbers : Numbers number id (front ++ behind)) :
    Numbers number id front := by
  intro j site found
  refine numbers j site ?_
  rw [List.filter_append, List.getElem?_append_left (List.getElem?_eq_some_iff.1 found).1, found]

theorem Numbers.right {front behind : List Site} (numbers : Numbers number id (front ++ behind)) :
    Numbers number (id + (front.filter (·.part = .message)).length) behind := by
  intro j site found
  rw [Nat.add_assoc]
  refine numbers _ site ?_
  rw [List.filter_append, List.getElem?_append_right (Nat.le_add_right _ j), Nat.add_sub_cancel_left, found]

theorem Numbers.head {site : Site} {rest : List Site} (numbers : Numbers number id (site :: rest))
    (named : site.part = .message) : number site = id := by
  refine numbers 0 site ?_
  rw [List.filter_cons_of_pos (by simpa using named), List.getElem?_cons_zero]

theorem Numbers.tail {site : Site} {rest : List Site} (numbers : Numbers number id (site :: rest))
    (named : site.part = .message) : Numbers number (id + 1) rest := by
  intro j other found
  rw [Nat.add_assoc, Nat.add_comm 1]
  refine numbers (j + 1) other ?_
  rw [List.filter_cons_of_pos (by simpa using named), List.getElem?_cons_succ, found]

theorem forall₂_messages {sites : List Site} {outlines : List Outline}
    (all : Forall₂ (request.Outlined number) sites outlines) :
    Forall₂ (fun site declared => request.Outlined number site (.message declared))
      (sites.filter (·.part = .message)) (Outline.messages outlines) := by
  induction all with
  | nil => exact .nil
  | cons first _ ih =>
      cases first with
      | message found reached named listed =>
          rw [List.filter_cons_of_pos (by simpa using named)]
          exact .cons (.message found reached named listed) ih
      | enum found reached named listed =>
          rw [List.filter_cons_of_neg (by simp [named])]
          exact ih

theorem forall₂_enums {sites : List Site} {outlines : List Outline}
    (all : Forall₂ (request.Outlined number) sites outlines) :
    Forall₂ (fun site declared => request.Outlined number site (.enum declared))
      (sites.filter (·.part = .enum)) (Outline.enums outlines) := by
  induction all with
  | nil => exact .nil
  | cons first _ ih =>
      cases first with
      | message found reached named listed =>
          rw [List.filter_cons_of_neg (by simp [named])]
          exact ih
      | enum found reached named listed =>
          rw [List.filter_cons_of_pos (by simpa using named)]
          exact .cons (.enum found reached named listed) ih

/-! ## Outlining goes through the sites -/

section

variable {given : File} {file : Nat} {around : List Nat} {scope : Scope}

theorem outlined_outlineEnums (found : request.files[file]? = some given)
    (reached : given.scope.at? around = some scope) (index : Nat) :
    Forall₂ (request.Outlined number) (sitesOfEnums file around scope.enums)
      (outlineEnums (surroundings number given ⟨file, around, .enum, index⟩ scope)
        (Part.enum.number around.isEmpty) scope.enums) := by
  refine List.forall₂_iff_get.2 ⟨by simp [sitesOfEnums, outlineEnums], fun j inside _ => ?_⟩
  have bound : j < scope.enums.length := by simpa [sitesOfEnums] using inside
  simp only [sitesOfEnums, outlineEnums, List.get_eq_getElem, List.getElem_mapIdx]
  exact Outlined.enum found reached rfl (List.getElem?_eq_getElem bound)

mutual

theorem outlined_outlineMessage (found : request.files[file]? = some given) (around : List Nat)
    (scope : Scope) (reached : given.scope.at? around = some scope) (id index : Nat) : (raw : Message) →
    scope.messages[index]? = some raw → Numbers number id (sitesOfMessage file around index raw) →
    Forall₂ (request.Outlined number) (sitesOfMessage file around index raw)
      (outlineMessage (surroundings number given ⟨file, around, .message, index⟩ scope) id
        (Site.pathBy pathPosition ⟨file, around, .message, index⟩) raw)
  | ⟨name, fields, nested, enums, options⟩, listed, numbers => by
      rw [sitesOfMessage] at numbers ⊢
      rw [outlineMessage]
      have numbered : number ⟨file, around, .message, index⟩ = id := numbers.head rfl
      have deeper : given.scope.at? (around ++ [index]) =
          some (scope.inside ⟨name, fields, nested, enums, options⟩) := by
        rw [Scope.at?_concat, reached, Option.bind_some, listed]
        rfl
      have within : (surroundings number given ⟨file, around, .message, index⟩ scope).inside id name
          (Site.pathBy pathPosition ⟨file, around, .message, index⟩) =
            surroundings number given ⟨file, around ++ [index], .message, 0⟩
              (scope.inside ⟨name, fields, nested, enums, options⟩) := by
        simp [surroundings, Surroundings.inside, Site.outer?, numbered, messagePath_concat, Site.pathBy,
          Scope.inside]
      have outermost : (around ++ [index]).isEmpty = false := by simp
      have first := outlined_outlineMessages found (around ++ [index]) _ deeper (id + 1) 0 nested rfl
        (numbers.tail rfl).left
      have second : Forall₂ (request.Outlined number) _ _ := outlined_outlineEnums found deeper 0
      rw [outermost] at first second
      have own : request.Outlined number ⟨file, around, .message, index⟩ _ :=
        .message found reached rfl listed
      rw [within]
      exact .cons own (List.rel_append first second)

theorem outlined_outlineMessages (found : request.files[file]? = some given) (around : List Nat)
    (scope : Scope) (reached : given.scope.at? around = some scope) (id index : Nat) :
    (messages : List Message) → scope.messages.drop index = messages →
    Numbers number id (sitesOfMessages file around index messages) →
    Forall₂ (request.Outlined number) (sitesOfMessages file around index messages)
      (outlineMessages (surroundings number given ⟨file, around, .message, index⟩ scope)
        (Part.message.number around.isEmpty) id index messages)
  | [], _, _ => .nil
  | message :: rest, dropped, numbers => by
      rw [sitesOfMessages] at numbers ⊢
      have listed : scope.messages[index]? = some message := by
        rw [← List.head?_drop, dropped, List.head?_cons]
      have later : scope.messages.drop (index + 1) = rest := by
        rw [← List.tail_drop, dropped, List.tail_cons]
      have first := outlined_outlineMessage found around scope reached id index message listed numbers.left
      have next := numbers.right
      rw [(forall₂_messages first).length_eq] at next
      exact List.rel_append first
        (outlined_outlineMessages found around scope reached _ (index + 1) rest later next)

end

theorem outlined_outline (found : request.files[file]? = some given)
    (numbers : Numbers number id (given.scope.sites file [])) :
    Forall₂ (request.Outlined number) (given.scope.sites file []) (given.outline file id) :=
  List.rel_append (outlined_outlineMessages found [] given.scope rfl id 0 given.messages rfl numbers.left)
    (outlined_outlineEnums found rfl 0)

end

theorem outlined_outlineFiles {index : Nat} {files : List File} (dropped : request.files.drop index = files)
    (numbers : Numbers number id (sitesOfFiles index files)) :
    Forall₂ (request.Outlined number) (sitesOfFiles index files)
      ((outlineFiles index id files).flatMap (·.2)) := by
  induction files generalizing index id with
  | nil => exact .nil
  | cons given rest ih =>
      rw [sitesOfFiles] at numbers ⊢
      have found : request.files[index]? = some given := by
        rw [← List.head?_drop, dropped, List.head?_cons]
      have later : request.files.drop (index + 1) = rest := by
        rw [← List.tail_drop, dropped, List.tail_cons]
      have first := outlined_outline found numbers.left
      have next := numbers.right
      rw [(forall₂_messages first).length_eq] at next
      rw [outlineFiles, List.flatMap_cons]
      exact List.rel_append first (ih later next)

/-- The number of the message at a site. -/
def numberOf (request : Request) (site : Site) : Nat := request.messageSites.idxOf site

theorem nodup_of_ascending {sites : List Site} (ascending : sites.Pairwise Site.Before) : sites.Nodup := by
  refine List.Pairwise.imp ?_ ascending
  rintro site _ before rfl
  exact Site.before_irrefl site before

theorem messageSites_ascending (request : Request) : request.messageSites.Pairwise Site.Before :=
  request.sites_ascending.filter _

theorem enumSites_ascending (request : Request) : request.enumSites.Pairwise Site.Before :=
  request.sites_ascending.filter _

theorem numberOf_eq {site : Site} (found : request.messageSites[id]? = some site) :
    request.numberOf site = id := by
  obtain ⟨inside, rfl⟩ := List.getElem?_eq_some_iff.1 found
  exact (nodup_of_ascending request.messageSites_ascending).idxOf_getElem id inside

/-- Declarations are outlined in the order of the sites, each as it is declared at its site. -/
theorem outlined_sites (request : Request) :
    Forall₂ (request.Outlined request.numberOf) request.sites (outlined request.files) :=
  outlined_outlineFiles rfl fun j site found => by
    rw [Nat.zero_add]
    exact numberOf_eq found

/-! ## Declarations of linked models at their sites -/

theorem mem_sites_iff {site : Site} :
    site ∈ request.sites ↔ site.part ≠ .field ∧ ∃ item, request.item? site = some item := by
  constructor
  · intro member
    obtain ⟨outline, -, there⟩ := exists_right_of_mem request.outlined_sites member
    cases there with
    | message found reached named listed =>
        rw [item?_eq found reached, named]
        exact ⟨Part.noConfusion, _, by rw [Scope.item?, listed, Option.map_some]⟩
    | enum found reached named listed =>
        rw [item?_eq found reached, named]
        exact ⟨Part.noConfusion, _, by rw [Scope.item?, listed, Option.map_some]⟩
  · rintro ⟨named, item, shown⟩
    exact mem_sites_of_item shown named

theorem mem_messageSites_iff {site : Site} :
    site ∈ request.messageSites ↔ ∃ raw, request.item? site = some (.message raw) := by
  rw [messageSites, List.mem_filter, mem_sites_iff, decide_eq_true_eq]
  constructor
  · rintro ⟨⟨-, item, shown⟩, named⟩
    rw [← part_of_item shown] at named
    cases item with
    | message raw => exact ⟨raw, shown⟩
    | enum | field => cases named
  · rintro ⟨raw, shown⟩
    have named : Part.message = site.part := part_of_item shown
    rw [← named]
    exact ⟨⟨Part.noConfusion, _, shown⟩, rfl⟩

theorem mem_enumSites_iff {site : Site} :
    site ∈ request.enumSites ↔ ∃ raw, request.item? site = some (.enum raw) := by
  rw [enumSites, List.mem_filter, mem_sites_iff, decide_eq_true_eq]
  constructor
  · rintro ⟨⟨-, item, shown⟩, named⟩
    rw [← part_of_item shown] at named
    cases item with
    | enum raw => exact ⟨raw, shown⟩
    | message | field => cases named
  · rintro ⟨raw, shown⟩
    have named : Part.enum = site.part := part_of_item shown
    rw [← named]
    exact ⟨⟨Part.noConfusion, _, shown⟩, rfl⟩

/-! ## Linked messages at sites -/

/-- The name of the declared type of a field, for the kinds that have one. -/
def Field.reference? (field : Field) : Option String :=
  if field.kind.namesType then field.typeName else none

def Surroundings.linkedMessage (around : Surroundings) (declared : List (String × TypeLink)) (path : List Int)
    (raw : Message) : ProtoSchema.Message :=
  { around.declaration raw.name path with
    mapEntry := raw.options.any (·.mapEntry)
    fields := raw.fields.mapIdx fun index field =>
      { around.field path index field with link := field.reference?.bind (resolve? declared) } }

/-- The message is the one declared at the site, and every type that its fields name is declared. -/
inductive MessageAt (request : Request) (site : Site) : ProtoSchema.Message → Prop
  | intro {given : File} {scope : Scope} {raw : Message} :
      request.files[site.file]? = some given → given.scope.at? site.around = some scope →
      site.part = .message → scope.messages[site.index]? = some raw →
      (∀ field ∈ raw.fields, ∀ typeName ∈ field.reference?,
        (resolve? request.names typeName).isSome) →
      MessageAt request site ((surroundings request.numberOf given site scope).linkedMessage request.names
        (site.pathBy pathPosition) raw)

theorem linkField_ok {declared : List (String × TypeLink)} {owner : String} {around : Surroundings}
    {path : List Int} {index : Nat} {field : Field} {given : ProtoSchema.Field}
    (linked : linkField declared owner (around.field path index field) = .ok given) :
    given = { around.field path index field with link := field.reference?.bind (resolve? declared) } ∧
      ∀ typeName ∈ field.reference?, (resolve? declared typeName).isSome := by
  have named : (around.field path index field).typeName = field.reference? := rfl
  unfold linkField at linked
  split at linked
  · rename_i missing
    cases linked
    rw [named] at missing
    rw [missing]
    exact ⟨rfl, by simp⟩
  · rename_i typeName shown
    cases resolved : resolve? declared typeName with
    | none =>
        rw [resolved] at linked
        cases linked
    | some link =>
        rw [resolved] at linked
        cases linked
        rw [named] at shown
        rw [shown, Option.bind_some, resolved]
        exact ⟨rfl, by simp [resolved]⟩

theorem linkMessage_outline {declared : List (String × TypeLink)} {around : Surroundings} {path : List Int}
    {raw : Message} {message : ProtoSchema.Message}
    (linked : linkMessage declared (around.message path raw) = .ok message) :
    message = around.linkedMessage declared path raw ∧
      ∀ field ∈ raw.fields, ∀ typeName ∈ field.reference?, (resolve? declared typeName).isSome := by
  obtain ⟨fields, rfl, all⟩ := linkMessage_ok linked
  obtain ⟨lengths, each⟩ := List.forall₂_iff_get.1 all
  have counts : raw.fields.length = fields.length := by simpa [Surroundings.message] using lengths
  have field (index : Nat) (inside : index < raw.fields.length) :=
    linkField_ok (by
      simpa [Surroundings.message] using each index (by simpa [Surroundings.message]) (counts ▸ inside))
  constructor
  · have same : fields = (around.linkedMessage declared path raw).fields := by
      refine List.ext_getElem (by simp [Surroundings.linkedMessage, counts]) fun index inside _ => ?_
      rw [(field index (counts ▸ inside)).1]
      simp [Surroundings.linkedMessage]
    rw [same]
    rfl
  · intro given member
    obtain ⟨index, inside, rfl⟩ := List.getElem_of_mem member
    exact (field index inside).2

variable {model : Model}

theorem Links.messages_at (links : request.Links model) :
    Forall₂ request.MessageAt request.messageSites model.messages := by
  refine (forall₂_through (forall₂_messages request.outlined_sites) links.messages).imp ?_
  rintro site message ⟨outline, there, linked⟩
  cases there with
  | message found reached named listed =>
      obtain ⟨rfl, resolved⟩ := linkMessage_outline linked
      exact .intro found reached named listed resolved

theorem Links.enums_at (links : request.Links model) :
    Forall₂ (fun site enum => request.Outlined request.numberOf site (.enum enum)) request.enumSites
      model.enums := by
  rw [links.enums]
  exact forall₂_enums request.outlined_sites

end Request

end ProtoSchema
