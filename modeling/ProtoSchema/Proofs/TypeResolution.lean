import ProtoSchema.Proofs.Arena

/-!
How linking resolves types. A type name leads to the last declaration of that name, wherever it stands,
and linking fails with the first field whose type is declared nowhere: `resolution_exact`.
-/
namespace ProtoSchema

open List (Forall₂)

section

variable {α β : Type}

/-- Steps in a row fail with the first step that fails. -/
theorem exists_of_mapM_error {ε : Type} {perform : α → Except ε β} {steps : List α} {failure : ε}
    (failed : steps.mapM perform = .error failure) :
    ∃ front step rest, steps = front ++ step :: rest ∧
      (∀ earlier ∈ front, ∃ value, perform earlier = .ok value) ∧ perform step = .error failure := by
  induction steps with
  | nil => cases failed
  | cons step rest ih =>
      rw [List.mapM_cons] at failed
      cases first : perform step with
      | error early =>
          rw [first] at failed
          cases failed
          exact ⟨[], step, rest, rfl, by simp, first⟩
      | ok value =>
          cases later : rest.mapM perform with
          | ok values =>
              rw [first, later] at failed
              cases failed
          | error behind =>
              rw [first, later] at failed
              cases failed
              obtain ⟨front, last, others, rfl, fine, ends⟩ := ih later
              refine ⟨step :: front, last, others, rfl, fun earlier member => ?_, ends⟩
              rcases List.mem_cons.1 member with rfl | inside
              · exact ⟨value, first⟩
              · exact fine earlier inside

theorem forall₂_split {related : α → β → Prop} {left : List α} {front rest : List β} {value : β}
    (all : Forall₂ related left (front ++ value :: rest)) :
    ∃ before given behind, left = before ++ given :: behind ∧ Forall₂ related before front ∧
      related given value ∧ Forall₂ related behind rest := by
  induction front generalizing left with
  | nil =>
      cases all with
      | cons here later => exact ⟨[], _, _, rfl, .nil, here, later⟩
  | cons first others ih =>
      cases all with
      | cons here later =>
          obtain ⟨before, given, behind, rfl, fronts, found, rests⟩ := ih later
          exact ⟨_ :: before, given, behind, rfl, .cons here fronts, found, rests⟩

/-- Read from its end, a list of entries has the last value of a name. -/
theorem exists_of_lookup_reverse {entries : List (String × α)} {name : String} {value : α}
    (found : entries.reverse.lookup name = some value) :
    ∃ front rest, entries = front ++ (name, value) :: rest ∧ ∀ entry ∈ rest, entry.1 ≠ name := by
  obtain ⟨rest, front, whole, absent⟩ := List.lookup_eq_some_iff.1 found
  have split : entries = front.reverse ++ (name, value) :: rest.reverse := by
    rw [← List.reverse_reverse entries, whole]
    simp
  refine ⟨front.reverse, rest.reverse, split, fun entry member => ?_⟩
  have other := absent entry (List.mem_reverse.1 member)
  exact Ne.symm (by simpa using other)

end

namespace Request

variable {request : Request} {model : Model}

/-! ## Absolute names -/

def Item.name : Item → String
  | .message raw => raw.name
  | .enum raw => raw.name
  | .field raw => raw.name

/-- The name of what is declared at the site: in the package of its file, and in the messages around it. -/
def absoluteName? (request : Request) (site : Site) : Option String :=
  request.files[site.file]?.bind fun given => (given.scope.at? site.around).bind fun scope =>
    (scope.item? site.index site.part).map fun item =>
      Name.qualify given.package (Name.qualify scope.name item.name)

/-- The name of a type as it is declared, from its name in a field. -/
def bareName (typeName : String) : String := String.ofList (typeName.toList.dropWhile (· = '.'))

/-- The site of the declaration that a link leads to. -/
def siteOf? (request : Request) : TypeLink → Option Site
  | .message id => request.messageSites[id]?
  | .enum id => request.enumSites[id]?

/-- A message or an enum of that name is declared at the site. -/
def Declares (request : Request) (name : String) (site : Site) : Prop :=
  site.part ≠ .field ∧ request.absoluteName? site = some name

/-- Of all declarations of that name, the link leads to the last one. -/
def LastDeclared (request : Request) (name : String) (link : TypeLink) : Prop :=
  ∃ site, request.siteOf? link = some site ∧ request.Declares name site ∧
    ∀ other, request.Declares name other → other = site ∨ other.Before site

theorem exists_item_of_absoluteName {site : Site} {name : String}
    (named : request.absoluteName? site = some name) : ∃ item, request.item? site = some item := by
  obtain ⟨given, found, inside⟩ := Option.bind_eq_some_iff.1 named
  obtain ⟨scope, reached, shown⟩ := Option.bind_eq_some_iff.1 inside
  obtain ⟨item, listed, -⟩ := Option.map_eq_some_iff.1 shown
  exact ⟨item, by rw [item?_eq found reached, listed]⟩

theorem mem_sites_of_declares {site : Site} {name : String} (declares : request.Declares name site) :
    site ∈ request.sites :=
  mem_sites_iff.2 ⟨declares.1, exists_item_of_absoluteName declares.2⟩

theorem Outlined.absoluteName {number : Site → Nat} {site : Site} {outline : Outline}
    (outlined : request.Outlined number site outline) :
    request.Declares outline.absoluteName site := by
  cases outlined with
  | message found reached named listed =>
      refine ⟨by rw [named]; exact Part.noConfusion, ?_⟩
      rw [absoluteName?, found, Option.bind_some, reached, Option.bind_some, named, Scope.item?, listed]
      rfl
  | enum found reached named listed =>
      refine ⟨by rw [named]; exact Part.noConfusion, ?_⟩
      rw [absoluteName?, found, Option.bind_some, reached, Option.bind_some, named, Scope.item?, listed]
      rfl

/-! ## The directory of names -/

theorem forall₂_directory {number : Site → Nat} {sites : List Site} {outlines : List Outline}
    (all : Forall₂ (request.Outlined number) sites outlines) {messages enums : Nat}
    (messagesFrom : ∀ (j : Nat) (site : Site), (sites.filter (·.part = .message))[j]? = some site →
      request.messageSites[messages + j]? = some site)
    (enumsFrom : ∀ (j : Nat) (site : Site), (sites.filter (·.part = .enum))[j]? = some site →
      request.enumSites[enums + j]? = some site) :
    Forall₂ (fun site entry => request.Declares entry.1 site ∧ request.siteOf? entry.2 = some site) sites
      (directory messages enums outlines) := by
  induction all generalizing messages enums with
  | nil => exact .nil
  | @cons site outline sites outlines first _ ih =>
      have declares := first.absoluteName
      cases first with
      | message _ _ named _ =>
          rw [List.filter_cons_of_pos (by simpa using named)] at messagesFrom
          rw [List.filter_cons_of_neg (by simp [named])] at enumsFrom
          refine .cons ⟨declares, messagesFrom 0 site rfl⟩ (ih (fun j other found => ?_) enumsFrom)
          rw [Nat.add_assoc, Nat.add_comm 1]
          exact messagesFrom (j + 1) other found
      | enum _ _ named _ =>
          rw [List.filter_cons_of_neg (by simp [named])] at messagesFrom
          rw [List.filter_cons_of_pos (by simpa using named)] at enumsFrom
          refine .cons ⟨declares, enumsFrom 0 site rfl⟩ (ih messagesFrom fun j other found => ?_)
          rw [Nat.add_assoc, Nat.add_comm 1]
          exact enumsFrom (j + 1) other found

/-- The names of all declarations, in the order of their sites. -/
theorem forall₂_names (request : Request) :
    Forall₂ (fun site entry => request.Declares entry.1 site ∧ request.siteOf? entry.2 = some site)
      request.sites request.names :=
  forall₂_directory request.outlined_sites (fun j site found => by rwa [Nat.zero_add])
    fun j site found => by rwa [Nat.zero_add]

theorem lastDeclared_of_resolve {typeName : String} {link : TypeLink}
    (resolved : resolve? request.names typeName = some link) :
    request.LastDeclared (bareName typeName) link := by
  obtain ⟨front, rest, whole, absent⟩ := exists_of_lookup_reverse resolved
  have all := request.forall₂_names
  rw [whole] at all
  obtain ⟨before, site, behind, sites, -, ⟨declares, place⟩, later⟩ := forall₂_split all
  refine ⟨site, place, declares, fun other also => ?_⟩
  have ascending := request.sites_ascending
  rw [sites, List.pairwise_append] at ascending
  have member := mem_sites_of_declares also
  rw [sites, List.mem_append, List.mem_cons] at member
  rcases member with earlier | rfl | inside
  · exact .inr (ascending.2.2 other earlier site List.mem_cons_self)
  · exact .inl rfl
  · obtain ⟨entry, listed, ⟨⟨-, named⟩, -⟩⟩ := exists_right_of_mem later inside
    exact absurd (Option.some.inj (named.symm.trans also.2)) (absent entry listed)

theorem resolve_eq_none_iff {typeName : String} :
    resolve? request.names typeName = none ↔ ∀ site, ¬ request.Declares (bareName typeName) site := by
  unfold resolve?
  rw [List.lookup_eq_none_iff]
  constructor
  · intro absent site declares
    obtain ⟨entry, listed, ⟨⟨-, named⟩, -⟩⟩ :=
      exists_right_of_mem request.forall₂_names (mem_sites_of_declares declares)
    have same := Option.some.inj (declares.2.symm.trans named)
    have other := absent entry (List.mem_reverse.2 listed)
    exact ne_of_beq_false (by simpa [bareName] using other) same
  · intro undeclared entry listed
    obtain ⟨site, -, declares, -⟩ := exists_left_of_mem request.forall₂_names (List.mem_reverse.1 listed)
    have other : bareName typeName ≠ entry.1 := fun same => undeclared site (same ▸ declares)
    simpa [bareName] using other

/-! ## Fields and their types -/

/-- The field is of a kind that has a declared type, and names it. -/
def Field.NamesType (field : Field) (typeName : String) : Prop :=
  (field.kind = .message ∨ field.kind = .group ∨ field.kind = .enum) ∧ field.typeName = some typeName

theorem Field.reference?_eq_some_iff {field : Field} {typeName : String} :
    field.reference? = some typeName ↔ field.NamesType typeName := by
  have kinds : field.kind.namesType = true ↔
      field.kind = .message ∨ field.kind = .group ∨ field.kind = .enum := by
    cases field.kind <;> simp [FieldKind.namesType]
  unfold reference? NamesType
  rw [← kinds]
  split <;> simp_all

/-- At the site is a field of which the type is declared nowhere. -/
structure Unresolved (request : Request) (site : Site) (field : Field) (typeName : String) : Prop where
  shown : request.item? site = some (.field field)
  named : field.NamesType typeName
  undeclared : ∀ other, ¬ request.Declares (bareName typeName) other

/-- Of all fields of which the type is declared nowhere, this is the first one: the fields of a message come
before those of the messages that are nested in it. -/
def FirstUnresolved (request : Request) (site : Site) (field : Field) (typeName : String) : Prop :=
  request.Unresolved site field typeName ∧ ∀ other also another, request.Unresolved other also another →
    other = site ∨ site.Before other

/-- The link of the field leads to the last declaration of the type that it names. A field that names no
type has no link. -/
structure Resolves (request : Request) (model : Model) (raw : Field) (field : ProtoSchema.Field) : Prop where
  named : ∀ typeName, raw.NamesType typeName → ∃ link, field.link = some link ∧
    model.LeadsTo (bareName typeName) link ∧ request.LastDeclared (bareName typeName) link
  bare : (∀ typeName, ¬ raw.NamesType typeName) → field.link = none

theorem messagePath_lt_messagePath {left right : List Nat} (first last : List Int)
    (before : messagePath Nat.cast left < messagePath Nat.cast right) :
    messagePath Nat.cast left ++ messageFields :: first < messagePath Nat.cast right ++ last := by
  -- Below a message, its fields have the least number.
  have inner (left right : List Nat)
      (before : (left.flatMap fun index : Nat => [nestedMessages, (index : Int)]) <
        right.flatMap fun index : Nat => [nestedMessages, (index : Int)]) :
      (left.flatMap fun index : Nat => [nestedMessages, (index : Int)]) ++ messageFields :: first <
        (right.flatMap fun index : Nat => [nestedMessages, (index : Int)]) ++ last := by
    induction left generalizing right with
    | nil =>
        cases right with
        | nil => exact absurd before (List.lt_irrefl _)
        | cons other others => exact List.cons_lt_cons_iff.2 (.inl (by decide))
    | cons index rest ih =>
        cases right with
        | nil => exact absurd before (List.not_lt_nil _)
        | cons other others =>
            simp only [List.flatMap_cons, List.cons_append, List.nil_append, List.cons_lt_cons_iff,
              Int.lt_irrefl, true_and, false_or, Int.ofNat_lt, Int.natCast_inj] at before ⊢
            exact before.imp_right fun later => ⟨later.1, ih others later.2⟩
  cases right with
  | nil => exact absurd before (List.not_lt_nil _)
  | cons other others =>
      cases left with
      | nil => exact List.cons_lt_cons_iff.2 (.inl (by decide))
      | cons index rest =>
          simp only [messagePath, List.cons_append, List.cons_lt_cons_iff, Int.lt_irrefl, true_and,
            false_or, Int.ofNat_lt, Int.natCast_inj] at before ⊢
          exact before.imp_right fun later => ⟨later.1, inner rest others later.2⟩

/-- The fields of a message come before those of the messages behind it, nested or not. -/
theorem Site.field_before_field {one two : Site} (before : one.Before two) (first : one.part = .message)
    (second : two.part = .message) (i j : Nat) : (one.field i).Before (two.field j) := by
  rcases List.cons_lt_cons_iff.1 before with earlier | ⟨same, earlier⟩
  · exact Site.before_of_file (Int.ofNat_lt.1 earlier)
  · refine Site.before_of_path (Int.ofNat_inj.1 same) ?_
    rw [Site.path_of_message first, Site.path_of_message second] at earlier
    rw [Site.path_field, Site.path_field]
    exact messagePath_lt_messagePath _ _ earlier

/-- A field is declared in a message. -/
theorem exists_owner {site : Site} {field : Field} (shown : request.item? site = some (.field field)) :
    ∃ owner index raw, site.outer? = some owner ∧ site = owner.field index ∧
      request.item? owner = some (.message raw) ∧ raw.fields[index]? = some field := by
  have named : Part.field = site.part := part_of_item shown
  obtain ⟨scope, surrounded, listed⟩ := Option.bind_eq_some_iff.1 shown
  obtain ⟨given, found, reached⟩ := Option.bind_eq_some_iff.1 surrounded
  rw [← named] at listed
  obtain ⟨_, inside, same⟩ := Option.map_eq_some_iff.1 listed
  cases same
  cases around : site.outer? with
  | none =>
      -- A file declares no fields.
      have top : site.around = [] := by simpa [Site.outer?] using around
      rw [top] at reached
      cases reached
      cases inside
  | some owner =>
      obtain ⟨wider, raw, sameFile, part, deeper, declared, rfl⟩ := exists_outer reached around
      refine ⟨owner, site.index, raw, rfl, ?_, ?_, inside⟩
      · exact Site.eq_field_of_outer around named.symm
      · rw [← sameFile] at found
        rw [item?_eq found deeper, part, Scope.item?, declared, Option.map_some]

theorem MessageAt.resolved {site : Site} {message : ProtoSchema.Message} {raw : Message}
    (there : request.MessageAt site message) (shown : request.item? site = some (.message raw)) :
    (∀ field ∈ raw.fields, ∀ typeName ∈ field.reference?, (resolve? request.names typeName).isSome) ∧
      ∃ around path, message = Surroundings.linkedMessage around request.names path raw := by
  cases there with
  | intro found reached named listed resolved =>
      rw [item?_eq found reached, named, Scope.item?, listed] at shown
      cases shown
      exact ⟨resolved, _, _, rfl⟩

theorem Links.nothing_unresolved (links : request.Links model) {site : Site} {field : Field}
    {typeName : String} : ¬ request.Unresolved site field typeName := by
  intro unresolved
  obtain ⟨owner, index, raw, -, -, declared, listed⟩ := exists_owner unresolved.shown
  obtain ⟨message, -, -, there⟩ := links.exists_message_at (mem_messageSites_iff.2 ⟨raw, declared⟩)
  have resolved := (there.resolved declared).1 field (List.mem_of_getElem? listed) typeName
    (Field.reference?_eq_some_iff.2 unresolved.named)
  rw [resolve_eq_none_iff.2 unresolved.undeclared] at resolved
  cases resolved

/-- In a linked model, every field has the link that its type asks for. -/
theorem Links.resolves (links : request.Links model) {id : Nat} {site : Site} {raw : Message}
    (place : request.messageSites[id]? = some site) (shown : request.item? site = some (.message raw)) :
    ∃ message, model.message? id = some message ∧
      Forall₂ (request.Resolves model) raw.fields message.fields := by
  obtain ⟨message, found, there⟩ := exists_getElem?_of_forall₂ links.messages_at place
  obtain ⟨resolved, around, path, rfl⟩ := there.resolved shown
  refine ⟨_, found, forall₂_mapIdx fun index field member => ⟨fun typeName names => ?_, fun bare => ?_⟩⟩
  · have reference := Field.reference?_eq_some_iff.2 names
    obtain ⟨link, leads⟩ := Option.isSome_iff_exists.1 (resolved field member typeName reference)
    refine ⟨link, ?_, ?_, lastDeclared_of_resolve leads⟩
    · rw [reference, Option.bind_some, leads]
    · exact links.mem_names.1 (List.mem_reverse.1 (mem_of_lookup leads))
  · have reference : field.reference? = none := Option.eq_none_iff_forall_ne_some.2 fun typeName shown =>
      bare typeName (Field.reference?_eq_some_iff.1 shown)
    rw [reference, Option.bind_none]

/-! ## Failures -/

theorem linkField_error {declared : List (String × TypeLink)} {owner : String} {around : Surroundings}
    {path : List Int} {index : Nat} {field : Field} {failure : Failure}
    (failed : linkField declared owner (around.field path index field) = .error failure) :
    ∃ typeName, field.reference? = some typeName ∧ resolve? declared typeName = none ∧
      failure = .unresolvedType (owner ++ "." ++ field.name) typeName := by
  have named : (around.field path index field).typeName = field.reference? := rfl
  unfold linkField at failed
  split at failed
  · cases failed
  · rename_i typeName shown
    split at failed
    · cases failed
    · rename_i missing
      cases failed
      exact ⟨typeName, named ▸ shown, missing, rfl⟩

theorem linkMessage_error {declared : List (String × TypeLink)} {around : Surroundings} {path : List Int}
    {raw : Message} {failure : Failure}
    (failed : linkMessage declared (around.message path raw) = .error failure) :
    ∃ (index : Nat) (field : Field) (typeName : String), raw.fields[index]? = some field ∧
      (∀ earlier ∈ raw.fields.take index, ∀ typeName ∈ earlier.reference?,
        (resolve? declared typeName).isSome) ∧
      field.reference? = some typeName ∧ resolve? declared typeName = none ∧
      failure = .unresolvedType ((around.declaration raw.name path).absoluteName ++ "." ++ field.name)
        typeName := by
  rcases error_of_bind failed with broken | ⟨_, -, impossible⟩
  · obtain ⟨front, step, rest, whole, fine, ends⟩ := exists_of_mapM_error broken
    have fields : (around.message path raw).fields = raw.fields.mapIdx (around.field path) := rfl
    rw [fields] at whole
    have position (j : Nat) : (raw.fields[j]?).map (around.field path j) = (front ++ step :: rest)[j]? := by
      rw [← whole, List.getElem?_mapIdx]
    have here : (front ++ step :: rest)[front.length]? = some step := by simp
    obtain ⟨field, listed, rfl⟩ := Option.map_eq_some_iff.1 ((position front.length).trans here)
    obtain ⟨typeName, reference, missing, same⟩ := linkField_error ends
    refine ⟨front.length, field, typeName, listed, fun earlier member => ?_, reference, missing, same⟩
    obtain ⟨j, inside⟩ := List.getElem?_of_mem member
    have bound := (List.getElem?_eq_some_iff.1 inside).1
    rw [List.length_take] at bound
    have before : j < front.length := by omega
    rw [List.getElem?_take_of_lt before] at inside
    have shown := position j
    rw [inside, List.getElem?_append_left before] at shown
    obtain ⟨value, linked⟩ := fine _ (List.mem_of_getElem? shown.symm)
    exact (linkField_ok linked).2
  · cases impossible

theorem Outlined.shown {number : Site → Nat} {site : Site} {outline : ProtoSchema.Message}
    (outlined : request.Outlined number site (.message outline)) :
    ∃ raw around path, request.item? site = some (.message raw) ∧
      outline = Surroundings.message around path raw := by
  cases outlined with
  | message found reached named listed =>
      exact ⟨_, _, _, by rw [item?_eq found reached, named, Scope.item?, listed, Option.map_some], rfl⟩

/-- A field that names an undeclared type keeps the message around it from being linked. -/
theorem not_linked_of_unresolved {owner : Site} {index : Nat} {outline message : ProtoSchema.Message}
    {field : Field} {typeName : String} (outlined : request.Outlined request.numberOf owner (.message outline))
    (unresolved : request.Unresolved (owner.field index) field typeName) :
    linkMessage request.names outline ≠ .ok message := by
  intro linked
  obtain ⟨raw, around, path, shown, rfl⟩ := outlined.shown
  have named : owner.part = .message := (part_of_item shown).symm
  obtain ⟨_, _, other, outer, same, declared, listed⟩ := exists_owner unresolved.shown
  rw [Site.outer?_field named] at outer
  cases outer
  cases shown.symm.trans declared
  have resolved := (linkMessage_outline linked).2 field (List.mem_of_getElem? listed) typeName
    (Field.reference?_eq_some_iff.2 unresolved.named)
  rw [resolve_eq_none_iff.2 unresolved.undeclared] at resolved
  cases resolved

theorem Site.field_before_of_lt (site : Site) {i j : Nat} (earlier : i < j) :
    (site.field i).Before (site.field j) := by
  refine Site.before_of_path rfl ?_
  rw [Site.path_field, Site.path_field]
  apply List.append_left_lt
  simpa [List.cons_lt_cons_iff] using earlier

/-- The messages before the first one that cannot be linked, and the fields before its first such field,
name only types that are declared. -/
theorem firstUnresolved_of_error {failure : Failure}
    (failed : (Outline.messages (outlined request.files)).mapM (linkMessage request.names) = .error failure) :
    ∃ site field typeName owner, request.FirstUnresolved site field typeName ∧
      site.outer?.bind request.absoluteName? = some owner ∧
      failure = .unresolvedType (owner ++ "." ++ field.name) typeName := by
  obtain ⟨front, outline, rest, whole, fine, ends⟩ := exists_of_mapM_error failed
  have all := forall₂_messages request.outlined_sites
  rw [whole] at all
  obtain ⟨before, site, behind, sites, fronts, there, -⟩ := forall₂_split all
  have called := there.absoluteName.2
  obtain ⟨raw, around, path, shown, rfl⟩ := there.shown
  have named : site.part = .message := (part_of_item shown).symm
  obtain ⟨index, field, typeName, listed, earlier, reference, missing, same⟩ := linkMessage_error ends
  have unresolved : request.Unresolved (site.field index) field typeName :=
    ⟨item?_field shown listed, Field.reference?_eq_some_iff.1 reference, resolve_eq_none_iff.1 missing⟩
  have outer : (site.field index).outer?.bind request.absoluteName? =
      some (around.declaration raw.name path).absoluteName := by
    rw [Site.outer?_field named, Option.bind_some]
    exact called
  refine ⟨site.field index, field, typeName, _, ⟨unresolved, fun other also another elsewhere => ?_⟩,
    outer, same⟩
  obtain ⟨owner, j, declared, -, rfl, shownOwner, place⟩ := exists_owner elsewhere.shown
  have member : owner ∈ before ++ site :: behind := sites ▸ mem_messageSites_iff.2 ⟨declared, shownOwner⟩
  have ascending : (before ++ site :: behind).Pairwise Site.Before := sites ▸ request.messageSites_ascending
  rcases List.mem_append.1 member with ahead | here
  · obtain ⟨linked, inFront, outlined⟩ := exists_right_of_mem fronts ahead
    obtain ⟨value, done⟩ := fine _ inFront
    exact absurd done (not_linked_of_unresolved outlined elsewhere)
  · rcases List.mem_cons.1 here with rfl | later
    · cases shown.symm.trans shownOwner
      rcases Nat.lt_trichotomy j index with sooner | rfl | later
      · have listedBefore : also ∈ raw.fields.take index :=
          List.mem_of_getElem? ((List.getElem?_take_of_lt sooner).trans place)
        have resolved := earlier also listedBefore another (Field.reference?_eq_some_iff.2 elsewhere.named)
        rw [resolve_eq_none_iff.2 elsewhere.undeclared] at resolved
        cases resolved
      · exact .inl rfl
      · exact .inr (owner.field_before_of_lt later)
    · have order := (List.pairwise_cons.1 (List.pairwise_append.1 ascending).2.1).1 owner later
      exact .inr (Site.field_before_field order named (part_of_item shownOwner).symm index j)

theorem FirstUnresolved.unique {one two : Site} {field other : Field} {typeName another : String}
    (first : request.FirstUnresolved one field typeName)
    (second : request.FirstUnresolved two other another) :
    one = two ∧ field = other ∧ typeName = another := by
  have same : one = two := by
    rcases first.2 _ _ _ second.1 with same | before
    · exact same.symm
    · rcases second.2 _ _ _ first.1 with same | behind
      · exact same
      · exact absurd (before.trans behind) (Site.before_irrefl one)
  subst same
  cases first.1.shown.symm.trans second.1.shown
  exact ⟨rfl, rfl, Option.some.inj (first.1.named.2.symm.trans second.1.named.2)⟩

/-! ## Files of one name -/

theorem repeatedFile?_eq_some {earlier : List String} {files : List File} {name : String}
    (found : repeatedFile? earlier files = some name) :
    ∃ front file rest, files = front ++ file :: rest ∧ (front.map (·.name)).Nodup ∧
      (∀ other ∈ front, other.name ∉ earlier) ∧
      (file.name ∈ earlier ∨ file.name ∈ front.map (·.name)) ∧ name = file.name := by
  induction files generalizing earlier with
  | nil => cases found
  | cons file rest ih =>
      unfold repeatedFile? at found
      split at found
      · rename_i again
        cases found
        exact ⟨[], file, rest, rfl, List.nodup_nil, by simp, .inl again, rfl⟩
      · rename_i fresh
        obtain ⟨front, other, behind, rfl, unique, apart, again, same⟩ := ih found
        refine ⟨file :: front, other, behind, rfl, List.nodup_cons.2 ⟨fun listed => ?_, unique⟩,
          ?_, ?_, same⟩
        · obtain ⟨twin, member, named⟩ := List.mem_map.1 listed
          exact apart twin member (named ▸ List.mem_cons_self)
        · intro twin member
          rcases List.mem_cons.1 member with rfl | inside
          · exact fresh
          · exact fun old => apart twin inside (List.mem_cons_of_mem _ old)
        · rcases again with old | listed
          · rcases List.mem_cons.1 old with same | older
            · exact .inr (by rw [same]; exact List.mem_cons_self)
            · exact .inl older
          · exact .inr (List.mem_cons_of_mem _ listed)

theorem repeatedFile?_eq_none {files : List File} (unique : (files.map (·.name)).Nodup) :
    repeatedFile? [] files = none := by
  cases found : repeatedFile? [] files with
  | none => rfl
  | some name =>
      obtain ⟨front, file, rest, rfl, -, -, again, -⟩ := repeatedFile?_eq_some found
      rw [List.map_append, List.map_cons, List.nodup_append] at unique
      rcases again with old | listed
      · cases old
      · exact absurd rfl (unique.2.2 file.name listed file.name List.mem_cons_self)

/-! ## Exactness -/

/-- Linking fails with the first name that two files share, or else with the first field of which the type
is declared nowhere, or else links every field to the last declaration of its type. -/
structure ResolvesTypes (request : Request) : Prop where
  repeated : ¬ (request.files.map (·.name)).Nodup → ∃ front file rest,
    request.files = front ++ file :: rest ∧ (front.map (·.name)).Nodup ∧
      file.name ∈ front.map (·.name) ∧ request.link = .error (.repeatedFile file.name)
  unresolved : (request.files.map (·.name)).Nodup → ∀ failure, request.link = .error failure ↔
    ∃ site field typeName owner, request.FirstUnresolved site field typeName ∧
      site.outer?.bind request.absoluteName? = some owner ∧
      failure = .unresolvedType (owner ++ "." ++ field.name) typeName
  resolved : (request.files.map (·.name)).Nodup →
    ((∃ model, request.link = .ok model) ↔ ∀ site field typeName, ¬ request.Unresolved site field typeName)
  links : ∀ model, request.link = .ok model → ∀ (id : Nat) (site : Site) (raw : Message),
    request.messageSites[id]? = some site → request.item? site = some (.message raw) →
      ∃ message, model.message? id = some message ∧
        Forall₂ (request.Resolves model) raw.fields message.fields

/-- With names of files that differ, what is left to fail is the linking of messages. -/
theorem link_error {failure : Failure} (unique : (request.files.map (·.name)).Nodup)
    (failed : request.link = .error failure) :
    (Outline.messages (outlined request.files)).mapM (linkMessage request.names) = .error failure := by
  unfold link at failed
  rw [repeatedFile?_eq_none unique] at failed
  rcases error_of_bind failed with broken | ⟨_, -, impossible⟩
  · exact broken
  · cases impossible

theorem resolution_exact (request : Request) : request.ResolvesTypes where
  repeated again := by
    cases found : repeatedFile? [] request.files with
    | none => exact absurd (nodup_of_repeatedFile? found).1 again
    | some name =>
        obtain ⟨front, file, rest, whole, unique, -, listed, rfl⟩ := repeatedFile?_eq_some found
        refine ⟨front, file, rest, whole, unique, listed.resolve_left List.not_mem_nil, ?_⟩
        rw [link, found]
  unresolved unique failure := by
    constructor
    · exact fun failed => firstUnresolved_of_error (link_error unique failed)
    · rintro ⟨site, field, typeName, owner, first, named, rfl⟩
      cases ended : request.link with
      | ok model => exact absurd first.1 (links_of_link ended).nothing_unresolved
      | error failure =>
          obtain ⟨other, also, another, holder, early, called, rfl⟩ :=
            firstUnresolved_of_error (link_error unique ended)
          obtain ⟨rfl, rfl, rfl⟩ := first.unique early
          cases named.symm.trans called
          rfl
  resolved unique := by
    constructor
    · rintro ⟨model, linked⟩ site field typeName
      exact (links_of_link linked).nothing_unresolved
    · intro fine
      cases ended : request.link with
      | ok model => exact ⟨model, rfl⟩
      | error failure =>
          obtain ⟨site, field, typeName, _, first, -⟩ := firstUnresolved_of_error (link_error unique ended)
          exact absurd first.1 (fine site field typeName)
  links _ linked _ _ _ place shown := (links_of_link linked).resolves place shown

/-- The owner of a den is an animal, and what an animal is stands in two files. -/
def warren : Request where
  files := [
    { name := "den.proto"
      package := "wood"
      messages := [
        { name := "Den"
          fields := [
            { name := "owner"
              kind := .message
              typeName := some "..wood.Animal" }] },
        { name := "Animal" }] },
    { name := "animal.proto"
      package := "wood"
      enums := [{ name := "Animal" }] }]

theorem resolution_exact_warren :
    ∃ model, warren.link = .ok model ∧
      (∀ site field typeName, ¬ warren.Unresolved site field typeName) ∧
      model.messages.map (fun message => message.fields.map (·.link)) = [[some (.enum 0)], []] := by
  have linked : warren.link = .ok (warren.link.toOption.getD ⟨[], [], []⟩) := by
    rfl
  have unique : (warren.files.map (·.name)).Nodup := by
    decide +kernel
  exact ⟨_, linked, (resolution_exact warren).resolved unique |>.1 ⟨_, linked⟩, by decide +kernel⟩

end Request

end ProtoSchema
