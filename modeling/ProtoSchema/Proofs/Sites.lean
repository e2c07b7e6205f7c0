import Mathlib.Data.List.Forall2
import Mathlib.Data.List.Lex
import ProtoSchema.Declaration.Link

/-!
Where the declarations of a request stand. A site names a file, the messages around a declaration and its
position there; the descriptor path of a site spells this out. `sites` lists every message and enum of a
request once, in the order of these paths.
-/
namespace ProtoSchema.Request

/-! ## Scopes -/

/-- What a file or a message declares in itself, behind its dotted name. A file has none. -/
structure Scope where
  name : String := ""
  messages : List Message
  enums : List Enum
  fields : List Field := []

def File.scope (file : File) : Scope where
  messages := file.messages
  enums := file.enums

namespace Scope

variable {scope : Scope} {message : Message} {index : Nat}

def inside (scope : Scope) (message : Message) : Scope where
  name := Name.qualify scope.name message.name
  messages := message.nested
  enums := message.enums
  fields := message.fields

/-- The scope of the message that is reached at the positions, from the outermost one in. -/
def at? (scope : Scope) : List Nat → Option Scope
  | [] => some scope
  | index :: rest => scope.messages[index]?.bind fun message => (scope.inside message).at? rest

theorem at?_concat (scope : Scope) (around : List Nat) (index : Nat) :
    scope.at? (around ++ [index]) =
      (scope.at? around).bind fun reached => reached.messages[index]?.map reached.inside := by
  induction around generalizing scope with
  | nil => cases found : scope.messages[index]? <;> simp [at?, found]
  | cons first rest ih =>
      rw [List.cons_append, at?, at?, Option.bind_assoc]
      congr 1
      funext message
      exact ih (scope.inside message)

end Scope

/-! ## Sites -/

inductive Part where
  | message
  | enum
  | field
deriving DecidableEq

/-- Where something is declared: in which file, inside which messages, each by its position in the one
around it, and at which position among the declarations of its kind there. -/
structure Site where
  file : Nat
  around : List Nat := []
  part : Part
  index : Nat
deriving DecidableEq

/-- The number of a part in paths, in a file or in a message. -/
def Part.number (outermost : Bool) : Part → Int
  | .message => if outermost then fileMessages else nestedMessages
  | .enum => if outermost then fileEnums else messageEnums
  | .field => messageFields

/-- The path to the message at the positions, which `spell` spells out. -/
def messagePath (spell : Nat → Int) : List Nat → List Int
  | [] => []
  | first :: rest => fileMessages :: spell first :: rest.flatMap fun index => [nestedMessages, spell index]

theorem messagePath_concat (spell : Nat → Int) (around : List Nat) (index : Nat) :
    messagePath spell (around ++ [index]) =
      messagePath spell around ++ [Part.message.number around.isEmpty, spell index] := by
  cases around with
  | nil => rfl
  | cons first rest => simp [messagePath, Part.number]

namespace Site

def pathBy (spell : Nat → Int) (site : Site) : List Int :=
  messagePath spell site.around ++ [site.part.number site.around.isEmpty, spell site.index]

/-- The descriptor path of what is declared at the site. -/
def path (site : Site) : List Int := site.pathBy Nat.cast

/-- Sites are in the order of their files, and in a file in the order of their paths. -/
def Before (one two : Site) : Prop := (one.file : Int) :: one.path < (two.file : Int) :: two.path

/-- The message around a site, if there is one. -/
def outer? (site : Site) : Option Site :=
  site.around.getLast?.map fun index =>
    { file := site.file, around := site.around.dropLast, part := .message, index }

/-- A field of the message at the site. -/
def field (site : Site) (index : Nat) : Site where
  file := site.file
  around := site.around ++ [site.index]
  part := .field
  index := index

variable {one two : Site}

theorem eq_field_of_outer {site owner : Site} (outer : site.outer? = some owner) (named : site.part = .field) :
    site = owner.field site.index := by
  obtain ⟨last, ended, rfl⟩ := Option.map_eq_some_iff.1 outer
  obtain ⟨front, whole⟩ := List.getLast?_eq_some_iff.1 ended
  obtain ⟨file, around, part, index⟩ := site
  dsimp only at named whole
  subst named whole
  simp [Site.field]

theorem outer?_field {site : Site} (named : site.part = .message) (index : Nat) :
    (site.field index).outer? = some site := by
  obtain ⟨file, around, part, last⟩ := site
  subst named
  simp [Site.field, Site.outer?]

theorem path_of_message {site : Site} (named : site.part = .message) :
    site.path = messagePath Nat.cast (site.around ++ [site.index]) := by
  rw [messagePath_concat, path, pathBy, named]

theorem path_field (site : Site) (index : Nat) :
    (site.field index).path =
      messagePath Nat.cast (site.around ++ [site.index]) ++ [messageFields, (index : Int)] := by
  rw [path, pathBy]
  rfl

theorem before_irrefl (site : Site) : ¬ site.Before site := List.lt_irrefl _

theorem Before.trans {three : Site} (first : one.Before two) (second : two.Before three) :
    one.Before three := List.lt_trans first second

theorem before_of_file (earlier : one.file < two.file) : one.Before two :=
  List.cons_lt_cons_iff.2 (.inl (Int.ofNat_lt.2 earlier))

theorem before_of_path (same : one.file = two.file) (earlier : one.path < two.path) : one.Before two :=
  List.cons_lt_cons_iff.2 (.inr ⟨congrArg _ same, earlier⟩)

end Site

/-! ## Paths tell sites apart -/

theorem messagePath_injective : Function.Injective (messagePath Nat.cast) := by
  have inner (left right : List Nat)
      (same : (left.flatMap fun index : Nat => [nestedMessages, (index : Int)]) =
        right.flatMap fun index : Nat => [nestedMessages, (index : Int)]) : left = right := by
    induction left generalizing right with
    | nil => cases right <;> simp_all
    | cons first rest ih =>
        cases right with
        | nil => simp at same
        | cons other others =>
            simp only [List.flatMap_cons, List.cons_append, List.nil_append, List.cons.injEq,
              Int.natCast_inj, true_and] at same
            rw [same.1, ih others same.2]
  intro left right same
  cases left with
  | nil => cases right <;> simp_all [messagePath]
  | cons first rest =>
      cases right with
      | nil => simp [messagePath] at same
      | cons other others =>
          simp only [messagePath, List.cons.injEq, Int.natCast_inj, true_and] at same
          rw [same.1, inner rest others same.2]

theorem Part.number_injective (outermost : Bool) : Function.Injective (Part.number outermost) := by
  intro one two same
  cases outermost <;> cases one <;> cases two <;> first | rfl | exact absurd same (by decide)

/-- What stands in a file is known by its path. -/
theorem Site.eq_of_path {one two : Site} (file : one.file = two.file) (same : one.path = two.path) :
    one = two := by
  obtain ⟨outer, last⟩ := List.append_inj' same rfl
  have around : one.around = two.around := messagePath_injective outer
  rw [around] at last
  simp only [List.cons.injEq, Int.natCast_inj, and_true] at last
  cases one
  cases two
  cases file
  cases around
  cases Part.number_injective _ last.1
  cases last.2
  rfl

/-- The path to a package statement is not the path of a declaration. -/
theorem Site.path_ne_package (site : Site) : site.path ≠ [packagePart] := by
  intro same
  have lengths := congrArg List.length same
  simp [Site.path, Site.pathBy] at lengths

/-! ## What is declared -/

/-- What surrounds a declaration at the site. -/
def scope? (request : Request) (site : Site) : Option Scope :=
  request.files[site.file]?.bind fun file => file.scope.at? site.around

inductive Item where
  | message (message : Message)
  | enum (enum : Enum)
  | field (field : Field)

def Item.part : Item → Part
  | .message _ => .message
  | .enum _ => .enum
  | .field _ => .field

def Scope.item? (scope : Scope) (index : Nat) : Part → Option Item
  | .message => scope.messages[index]?.map .message
  | .enum => scope.enums[index]?.map .enum
  | .field => scope.fields[index]?.map .field

/-- What is declared at the site. -/
def item? (request : Request) (site : Site) : Option Item :=
  (request.scope? site).bind fun scope => scope.item? site.index site.part

section

variable {request : Request} {site : Site}

theorem item?_eq {given : File} {scope : Scope} (found : request.files[site.file]? = some given)
    (reached : given.scope.at? site.around = some scope) :
    request.item? site = scope.item? site.index site.part := by
  rw [item?, scope?, found, Option.bind_some, reached, Option.bind_some]

theorem part_of_item {item : Item} (shown : request.item? site = some item) : item.part = site.part := by
  obtain ⟨scope, -, listed⟩ := Option.bind_eq_some_iff.1 shown
  cases part : site.part <;> rw [part] at listed <;>
    obtain ⟨_, -, rfl⟩ := Option.map_eq_some_iff.1 listed <;> rfl

theorem item?_field {raw : Message} {field : Field} {index : Nat}
    (shown : request.item? site = some (.message raw)) (listed : raw.fields[index]? = some field) :
    request.item? (site.field index) = some (.field field) := by
  have named : Part.message = site.part := part_of_item shown
  obtain ⟨scope, surrounded, declared⟩ := Option.bind_eq_some_iff.1 shown
  obtain ⟨given, found, reached⟩ := Option.bind_eq_some_iff.1 surrounded
  rw [← named] at declared
  obtain ⟨_, inside, same⟩ := Option.map_eq_some_iff.1 declared
  cases same
  have deeper : given.scope.at? (site.field index).around = some (scope.inside raw) := by
    rw [Site.field, Scope.at?_concat, reached, Option.bind_some, inside, Option.map_some]
  have here : request.files[(site.field index).file]? = some given := found
  rw [item?_eq here deeper]
  exact congrArg (Option.map Item.field) listed

end

/-! ## All sites -/

def sitesOfEnums (file : Nat) (around : List Nat) (enums : List Enum) : List Site :=
  enums.mapIdx fun index _ => { file, around, part := .enum, index }

mutual

def sitesOfMessage (file : Nat) (around : List Nat) (index : Nat) : Message → List Site
  | ⟨_, _, nested, enums, _⟩ =>
    { file, around, part := .message, index }
      :: (sitesOfMessages file (around ++ [index]) 0 nested
        ++ sitesOfEnums file (around ++ [index]) enums)

/-- The sites of messages side by side from an index on, and of everything declared in them. -/
def sitesOfMessages (file : Nat) (around : List Nat) (index : Nat) : List Message → List Site
  | [] => []
  | message :: rest =>
    sitesOfMessage file around index message ++ sitesOfMessages file around (index + 1) rest

end

def Scope.sites (file : Nat) (around : List Nat) (scope : Scope) : List Site :=
  sitesOfMessages file around 0 scope.messages ++ sitesOfEnums file around scope.enums

/-- The sites of files from an index on. -/
def sitesOfFiles (index : Nat) : List File → List Site
  | [] => []
  | file :: rest => file.scope.sites index [] ++ sitesOfFiles (index + 1) rest

/-- The sites of all messages and enums. -/
def sites (request : Request) : List Site := sitesOfFiles 0 request.files

def messageSites (request : Request) : List Site := request.sites.filter (·.part = .message)

def enumSites (request : Request) : List Site := request.sites.filter (·.part = .enum)

theorem sitesOfMessage_eq (file : Nat) (around : List Nat) (index : Nat) (scope : Scope) (message : Message) :
    sitesOfMessage file around index message =
      { file, around, part := .message, index }
        :: (scope.inside message).sites file (around ++ [index]) := by
  cases message
  rfl

/-! ## Their order -/

section

variable {file index : Nat} {around : List Nat} {site : Site}

theorem path_of_mem_sitesOfEnums {enums : List Enum} (member : site ∈ sitesOfEnums file around enums) :
    site.file = file ∧ ∃ j : Nat, site.path = messagePath Nat.cast around ++
      [Part.enum.number around.isEmpty, (j : Int)] := by
  obtain ⟨j, _, rfl⟩ := List.mem_mapIdx.1 member
  exact ⟨rfl, j, rfl⟩

mutual

theorem path_of_mem_sitesOfMessage (file : Nat) (around : List Nat) (index : Nat) {site : Site} :
    (message : Message) → site ∈ sitesOfMessage file around index message →
    site.file = file ∧ ∃ rest, site.path =
      messagePath Nat.cast (around ++ [index]) ++ rest
  | ⟨_, _, nested, enums, _⟩, member => by
      rw [sitesOfMessage, List.mem_cons, List.mem_append] at member
      rcases member with rfl | inside | inside
      · exact ⟨rfl, [], by rw [List.append_nil, messagePath_concat]; rfl⟩
      · obtain ⟨same, j, -, rest, path⟩ :=
          path_of_mem_sitesOfMessages file (around ++ [index]) 0 nested inside
        rw [messagePath_concat, List.append_assoc] at path
        exact ⟨same, _, path⟩
      · obtain ⟨same, j, path⟩ := path_of_mem_sitesOfEnums inside
        exact ⟨same, _, path⟩

theorem path_of_mem_sitesOfMessages (file : Nat) (around : List Nat) (index : Nat) {site : Site} :
    (messages : List Message) → site ∈ sitesOfMessages file around index messages →
    site.file = file ∧ ∃ j, index ≤ j ∧ ∃ rest, site.path =
      messagePath Nat.cast (around ++ [j]) ++ rest
  | [], member => absurd member List.not_mem_nil
  | message :: later, member => by
      rw [sitesOfMessages, List.mem_append] at member
      rcases member with here | behind
      · obtain ⟨same, rest, path⟩ := path_of_mem_sitesOfMessage file around index message here
        exact ⟨same, index, Nat.le_refl index, rest, path⟩
      · obtain ⟨same, j, bound, rest, path⟩ :=
          path_of_mem_sitesOfMessages file around (index + 1) later behind
        exact ⟨same, j, by omega, rest, path⟩

end

theorem lt_append_cons (front : List Int) (first : Int) (rest : List Int) : front < front ++ first :: rest := by
  have longer : front ++ [] < front ++ first :: rest := List.append_left_lt (List.nil_lt_cons _ _)
  rwa [List.append_nil] at longer

/-- The sites in and below a message come before those in and below the messages behind it. -/
theorem path_lt_path_of_lt {one two : Nat} (earlier : one < two) (left right : List Int) :
    messagePath Nat.cast (around ++ [one]) ++ left < messagePath Nat.cast (around ++ [two]) ++ right := by
  rw [messagePath_concat, messagePath_concat, List.append_assoc, List.append_assoc]
  apply List.append_left_lt
  simp [List.cons_lt_cons_iff, earlier]

theorem path_lt_path_of_enum (one two : Nat) (left right : List Int) :
    messagePath Nat.cast (around ++ [one]) ++ left <
      messagePath Nat.cast around ++ Part.enum.number around.isEmpty :: (two : Int) :: right := by
  rw [messagePath_concat, List.append_assoc]
  apply List.append_left_lt
  refine List.cons_lt_cons_iff.2 (.inl ?_)
  cases around with
  | nil => exact (by decide : fileMessages < fileEnums)
  | cons => exact (by decide : nestedMessages < messageEnums)

theorem sitesOfEnums_ascending (file : Nat) (around : List Nat) (enums : List Enum) :
    (sitesOfEnums file around enums).Pairwise Site.Before := by
  refine List.pairwise_iff_getElem.2 fun one two _ _ earlier => ?_
  simp only [sitesOfEnums, List.getElem_mapIdx]
  refine Site.before_of_path rfl ?_
  apply List.append_left_lt
  simpa [List.cons_lt_cons_iff] using earlier

theorem message_before_enum {enums : List Enum} {messages : List Message} {other : Site}
    (first : site ∈ sitesOfMessages file around index messages)
    (second : other ∈ sitesOfEnums file around enums) : site.Before other := by
  obtain ⟨left, j, -, rest, path⟩ := path_of_mem_sitesOfMessages file around index messages first
  obtain ⟨right, k, last⟩ := path_of_mem_sitesOfEnums second
  apply Site.before_of_path (left.trans right.symm)
  rw [path, last]
  exact path_lt_path_of_enum j k rest []

mutual

theorem sitesOfMessage_ascending (file : Nat) (around : List Nat) (index : Nat) : (message : Message) →
    (sitesOfMessage file around index message).Pairwise Site.Before
  | ⟨_, _, nested, enums, _⟩ => by
      rw [sitesOfMessage, List.pairwise_cons, List.pairwise_append]
      refine ⟨fun site member => ?_, sitesOfMessages_ascending file (around ++ [index]) 0 nested,
        sitesOfEnums_ascending file (around ++ [index]) enums, fun site first other second =>
          message_before_enum first second⟩
      -- What is declared in the message has a longer path.
      have own : ({ file, around, part := .message, index } : Site).path =
          messagePath Nat.cast (around ++ [index]) := (messagePath_concat Nat.cast around index).symm
      rcases List.mem_append.1 member with inside | inside
      · obtain ⟨same, j, -, rest, path⟩ := path_of_mem_sitesOfMessages file _ 0 nested inside
        apply Site.before_of_path same.symm
        rw [own, path, messagePath_concat _ (around ++ [index]), List.append_assoc]
        exact lt_append_cons _ _ _
      · obtain ⟨same, j, path⟩ := path_of_mem_sitesOfEnums inside
        apply Site.before_of_path same.symm
        rw [own, path]
        exact lt_append_cons _ _ _

theorem sitesOfMessages_ascending (file : Nat) (around : List Nat) (index : Nat) :
    (messages : List Message) → (sitesOfMessages file around index messages).Pairwise Site.Before
  | [] => List.Pairwise.nil
  | message :: rest => by
      rw [sitesOfMessages, List.pairwise_append]
      refine ⟨sitesOfMessage_ascending file around index message,
        sitesOfMessages_ascending file around (index + 1) rest, fun site first other second => ?_⟩
      obtain ⟨left, _, path⟩ := path_of_mem_sitesOfMessage file around index message first
      obtain ⟨right, j, bound, _, last⟩ := path_of_mem_sitesOfMessages file around (index + 1) rest second
      apply Site.before_of_path (left.trans right.symm)
      rw [path, last]
      exact path_lt_path_of_lt (by omega) _ _

end

end

theorem Scope.sites_ascending (file : Nat) (around : List Nat) (scope : Scope) :
    (scope.sites file around).Pairwise Site.Before :=
  List.pairwise_append.2 ⟨sitesOfMessages_ascending file around 0 scope.messages,
    sitesOfEnums_ascending file around scope.enums, fun _ first _ second => message_before_enum first second⟩

theorem Scope.file_of_mem_sites {file : Nat} {around : List Nat} {scope : Scope} {site : Site}
    (member : site ∈ scope.sites file around) : site.file = file := by
  rcases List.mem_append.1 member with inside | inside
  · exact (path_of_mem_sitesOfMessages file around 0 scope.messages inside).1
  · exact (path_of_mem_sitesOfEnums inside).1

theorem le_file_of_mem_sitesOfFiles {index : Nat} {files : List File} {site : Site}
    (member : site ∈ sitesOfFiles index files) : index ≤ site.file := by
  induction files generalizing index with
  | nil => cases member
  | cons file rest ih =>
      rcases List.mem_append.1 member with here | behind
      · exact Nat.le_of_eq (Scope.file_of_mem_sites here).symm
      · exact Nat.le_of_succ_le (ih behind)

theorem sitesOfFiles_ascending (index : Nat) (files : List File) :
    (sitesOfFiles index files).Pairwise Site.Before := by
  induction files generalizing index with
  | nil => exact List.Pairwise.nil
  | cons file rest ih =>
      refine List.pairwise_append.2 ⟨file.scope.sites_ascending index [], ih (index + 1),
        fun site first other second => Site.before_of_file ?_⟩
      have here := Scope.file_of_mem_sites first
      have behind := le_file_of_mem_sitesOfFiles second
      omega

/-- No site is listed twice: each comes before those behind it. -/
theorem sites_ascending (request : Request) : request.sites.Pairwise Site.Before :=
  sitesOfFiles_ascending 0 request.files

/-! ## Every declaration has a site -/

section

variable {file index : Nat} {around : List Nat}

theorem sitesOfMessage_subset {messages : List Message} {message : Message} {j : Nat}
    (found : messages[j]? = some message) :
    sitesOfMessage file around (index + j) message ⊆ sitesOfMessages file around index messages := by
  induction messages generalizing index j with
  | nil => cases found
  | cons first rest ih =>
      intro site member
      rw [sitesOfMessages, List.mem_append]
      cases j with
      | zero =>
          cases found
          exact .inl member
      | succ j =>
          rw [← Nat.succ_add_eq_add_succ] at member
          exact .inr (ih found member)

theorem Scope.mem_sites {scope reached : Scope} {inner : List Nat} {part : Part} {item : Item}
    (found : scope.at? inner = some reached) (shown : reached.item? index part = some item)
    (named : part ≠ .field) :
    { file, around := around ++ inner, part, index } ∈ scope.sites file around := by
  induction inner generalizing scope around with
  | nil =>
      cases found
      rw [List.append_nil]
      cases part with
      | message =>
          obtain ⟨message, listed, -⟩ := Option.map_eq_some_iff.1 shown
          refine List.mem_append_left _ (sitesOfMessage_subset listed ?_)
          rw [Nat.zero_add, sitesOfMessage_eq file around index reached]
          exact List.mem_cons_self
      | enum =>
          obtain ⟨enum, listed, -⟩ := Option.map_eq_some_iff.1 shown
          obtain ⟨inside, -⟩ := List.getElem?_eq_some_iff.1 listed
          exact List.mem_append_right _ (List.mem_mapIdx.2 ⟨index, inside, rfl⟩)
      | field => exact absurd rfl named
  | cons first rest ih =>
      obtain ⟨message, listed, deeper⟩ := Option.bind_eq_some_iff.1 found
      have inside : (⟨file, around ++ [first] ++ rest, part, index⟩ : Site) ∈ _ := ih deeper
      rw [List.append_assoc] at inside
      refine List.mem_append_left _ (sitesOfMessage_subset listed ?_)
      rw [Nat.zero_add, sitesOfMessage_eq file around first scope]
      exact List.mem_cons_of_mem _ inside

theorem sites_subset_sitesOfFiles {files : List File} {given : File} {j : Nat}
    (found : files[j]? = some given) :
    given.scope.sites (index + j) [] ⊆ sitesOfFiles index files := by
  induction files generalizing index j with
  | nil => cases found
  | cons first rest ih =>
      intro site member
      rw [sitesOfFiles, List.mem_append]
      cases j with
      | zero =>
          cases found
          exact .inl member
      | succ j =>
          rw [← Nat.succ_add_eq_add_succ] at member
          exact .inr (ih found member)

end

theorem mem_sites_of_item {request : Request} {site : Site} {item : Item}
    (shown : request.item? site = some item) (named : site.part ≠ .field) : site ∈ request.sites := by
  obtain ⟨scope, reached, listed⟩ := Option.bind_eq_some_iff.1 shown
  obtain ⟨given, found, inside⟩ := Option.bind_eq_some_iff.1 reached
  refine sites_subset_sitesOfFiles found ?_
  rw [Nat.zero_add]
  exact Scope.mem_sites inside listed named

end ProtoSchema.Request
